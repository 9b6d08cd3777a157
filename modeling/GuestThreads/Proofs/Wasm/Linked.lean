import GuestThreads.Proofs.Wasm.Posting

/-!
# Guests as they are linked

Guests import from modules that offer the signal function and one memory, and nothing else. An
instance of a guest that is linked to such modules is a resident of the store: its imports
post signals, and the memory that it imports is the one on offer.
-/

namespace GuestThreads.Wasm

/-! ## What is on offer -/

/-- The trampoline forwards signals to these functions of the host. -/
structure Trampoline.Signals (t : Trampoline) (functions : List HostFunc) : Prop where
  fits : t.Fits
  count : functions.length = t.funcs.length
  types : ∀ f ∈ t.funcs, f.type = signalType
  hostTypes : ∀ f ∈ functions, f.type = signalType

/-- A module of the host or instance `env`, which offers the signal function and linear memory
`linear` at most. -/
inductive Offers (s : Store) (env linear : Nat) : Provider → Prop
  | host {functions : List HostFunc} (h : ∀ f ∈ functions, f.type = signalType) :
    Offers s env linear (.host functions)
  | env {t : Trampoline} {functions : List HostFunc} (hsignals : t.Signals functions)
    (hstands : t.Stands functions s env) (hlinear : s.linearOf? env = some linear) :
    Offers s env linear (.instance env)

/-- What an import of module `m` is bound to. -/
inductive Bound (s : Store) (m : Module) (env linear : Nat) : Import → Binding → Prop
  | func {module name : String} {index : UInt32} {callee : Callee}
    (htype : m.types[index.toNat]? = some signalType)
    (hposts : ∀ inst, s.instances.size ≤ inst → Posts s env inst callee) :
    Bound s m env linear ⟨module, name, .func index⟩ (.func callee)
  | memory {module name : String} {l : Limits} :
    Bound s m env linear ⟨module, name, .memory l⟩ (.memory linear)

section

variable {s : Store} {m : Module} {env linear : Nat} {modules : List (String × Provider)}
  {pageLimit : Nat} {i : Import} {b : Binding}

theorem bindFunc_ok {index : UInt32} {callee : Callee}
    (h : bindFunc m i index callee signalType = .ok b) :
    m.types[index.toNat]? = some signalType ∧ b = .func callee := by
  rw [bindFunc] at h
  split at h
  · rename_i hwanted
    cases h
    refine ⟨?_, rfl⟩
    cases htype : m.types[index.toNat]? with
    | none =>
      rw [htype] at hwanted
      cases hwanted
    | some t => rw [← hwanted, htype, Option.getD_some]
  · cases h

theorem bindMemory_ok {l : Limits} {memory : Nat} (h : bindMemory s pageLimit i l memory = .ok b) :
    b = .memory memory := by
  rw [bindMemory] at h
  split at h
  · cases h
  · split at h
    · cases h
    · split at h
      · cases h
      · cases h
        rfl

/-- A function that a trampoline exports is one of its forwarders. -/
theorem Trampoline.Signals.export {t : Trampoline} {functions : List HostFunc}
    (h : t.Signals functions) (hstands : t.Stands functions s env) {x : Instance}
    (hx : s.instances[env]? = some x) {name : String} {e : Export}
    (he : x.module.export? name = some e) (hkind : e.kind = .func) :
    x.module.funcType? e.index = some signalType ∧ ∃ callee, x.callees[e.index]? = some callee ∧
      ∀ inst, s.instances.size ≤ inst → Posts s env inst callee := by
  obtain ⟨y, hy, hmodule, hcallees⟩ := hstands.instance
  cases hx.symm.trans hy
  rw [hmodule] at he
  rcases List.mem_append.1 (List.mem_of_find?_eq_some he) with hmem | hmem
  · obtain ⟨memory, -, rfl⟩ := List.mem_map.1 hmem
    cases hkind
  · obtain ⟨i, hi, rfl⟩ := List.mem_mapIdx.1 hmem
    have hi' : i < functions.length := by rw [h.count]; exact hi
    have hf := List.getElem?_eq_getElem hi
    have htype := h.types t.funcs[i] (List.getElem_mem hi)
    refine ⟨?_, .code env (t.funcs.length + i), ?_, fun inst hinst => ?_⟩
    · rw [hmodule, ← htype]
      exact Trampoline.funcType?_export h.fits hf
    · rw [← Array.getElem?_toList, hcallees, Trampoline.calleesOf,
        List.getElem?_append_right (by simp [h.count])]
      simp [h.count, hi]
    · refine .forwarder hstands h.fits hf (List.getElem?_eq_getElem hi') htype
        (h.hostTypes _ (List.getElem_mem hi')) ?_
      have hlt := (Array.getElem?_eq_some_iff.1 hx).1
      omega

theorem resolve_offered (hoffers : ∀ name p, modules.lookup name = some p → Offers s env linear p)
    (h : resolve s modules pageLimit m i = .ok b) : Bound s m env linear i b := by
  obtain ⟨module, name, desc⟩ := i
  rw [resolve] at h
  cases hlookup : modules.lookup module with
  | none => simp [hlookup] at h
  | some p =>
    rw [hlookup] at h
    cases hoffers module p hlookup with
    | @host functions htypes =>
      dsimp only at h
      cases hfind : functions.find? (·.name = name) with
      | none => simp [hfind] at h
      | some function =>
        rw [hfind] at h
        dsimp only at h
        cases desc with
        | func index =>
          dsimp only at h
          rw [htypes function (List.mem_of_find?_eq_some hfind)] at h
          obtain ⟨htype, rfl⟩ := bindFunc_ok h
          exact .func htype fun inst _ => .host function
        | _ => cases h
    | @env t functions hsignals hstands hlinear =>
      obtain ⟨x, hx, -, -⟩ := hstands.instance
      dsimp only at h
      rw [hx] at h
      dsimp only at h
      cases he : x.module.export? name with
      | none => simp [he] at h
      | some e =>
        rw [he] at h
        dsimp only at h
        have hmemory : x.memory = some linear := by
          rwa [Store.linearOf?, hx] at hlinear
        cases desc with
        | func index =>
          cases hkind : e.kind with
          | func =>
            obtain ⟨htype, callee, hcallee, hposts⟩ := hsignals.export hstands hx he hkind
            rw [hkind, hcallee, htype] at h
            obtain ⟨htype, rfl⟩ := bindFunc_ok h
            exact .func htype hposts
          | _ =>
            rw [hkind] at h
            cases h
        | memory l =>
          cases hkind : e.kind with
          | memory =>
            rw [hkind, hmemory] at h
            cases bindMemory_ok h
            exact .memory
          | _ =>
            rw [hkind] at h
            cases h
        | _ => cases h

end

/-! ## Instances -/

/-- The type of an imported function, by its index. -/
def Import.funcIndex? (i : Import) : Option Nat :=
  match i.desc with
  | .func index => some index.toNat
  | _ => none

def Binding.callee? : Binding → Option Callee
  | func callee => some callee
  | memory _ => none

def Binding.memory? : Binding → Option Nat
  | memory m => some m
  | func _ => none

/-- The memories that a module defines. -/
def Module.definedMemories (m : Module) (pageLimit : Nat) : List Memory :=
  m.memories.map fun l => { pages := l.min.toNat, ceiling := l.ceiling pageLimit }

/-- An instance of a module whose imports are bound in this way, in the place of the next one. -/
def Store.linked (s : Store) (m : Module) (pageLimit : Nat) (bindings : List Binding) :
    Instance where
  module := m
  callees := (bindings.filterMap Binding.callee? ++ (List.range m.funcs.length).map fun k =>
    Callee.code s.instances.size ((bindings.filterMap Binding.callee?).length + k)).toArray
  globals := (m.globals.map (·.init.word)).toArray
  memory := (bindings.findSome? Binding.memory?).or
    (if (m.definedMemories pageLimit).isEmpty then none else some s.memories.size)
  rest := m.rest

section

variable {s s' : Store} {m : Module} {env linear : Nat} {modules : List (String × Provider)}
  {pageLimit inst : Nat} {bindings : List Binding}

theorem instantiate_of_bindings
    (h : m.imports.mapM (resolve s modules pageLimit m) = .ok bindings) :
    s.instantiate modules pageLimit m = .ok (s.instances.size, { s with
      memories := s.memories ++ (m.definedMemories pageLimit).toArray
      instances := s.instances.push (s.linked m pageLimit bindings) }) := by
  rw [Store.instantiate, h]
  rfl

theorem instantiate_of_error {reason : String}
    (h : m.imports.mapM (resolve s modules pageLimit m) = .error reason) :
    s.instantiate modules pageLimit m = .error reason := by
  rw [Store.instantiate, h]
  rfl

/-- The imported functions are bound to callees that post signals. -/
theorem bound_funcs {imports : List Import}
    (h : List.Forall₂ (Bound s m env linear) imports bindings) :
    List.Forall₂ (fun index callee => m.types[index]? = some signalType ∧
        ∀ inst, s.instances.size ≤ inst → Posts s env inst callee)
      (imports.filterMap Import.funcIndex?) (bindings.filterMap Binding.callee?) := by
  induction h with
  | nil => exact .nil
  | cons hbound _ ih =>
    cases hbound with
    | func htype hposts => exact .cons ⟨htype, hposts⟩ ih
    | memory => exact ih

/-- An imported memory is the one on offer. -/
theorem bound_memory {imports : List Import}
    (h : List.Forall₂ (Bound s m env linear) imports bindings) :
    bindings.findSome? Binding.memory? =
      if imports.filterMap Import.memory? = [] then none else some linear := by
  induction h with
  | nil => rfl
  | cons hbound _ ih =>
    cases hbound with
    | func htype hposts => exact ih
    | memory => rfl

/-- An instance that is linked to what is on offer is a resident. -/
theorem instantiate_resident
    (hoffers : ∀ name p, modules.lookup name = some p → Offers s env linear p)
    (h : s.instantiate modules pageLimit m = .ok (inst, s')) :
    inst = s.instances.size ∧ (∃ callees, Resident s' env inst m callees) ∧
      (m.importedMemories ≠ [] → s'.linearOf? inst = some linear) := by
  have hevolves := instantiate_evolves h
  cases hbindings : m.imports.mapM (resolve s modules pageLimit m) with
  | error reason => cases (instantiate_of_error hbindings).symm.trans h
  | ok bindings =>
    cases (instantiate_of_bindings hbindings).symm.trans h
    have hbound : List.Forall₂ (Bound s m env linear) m.imports bindings :=
      (mapM_eq_ok_iff.1 hbindings).imp fun i b hb => resolve_offered hoffers hb
    have hfuncs := bound_funcs hbound
    have himported : m.imports.filterMap Import.funcIndex? = m.importedFuncs := rfl
    rw [himported] at hfuncs
    have hcount : m.importedFuncs.length = (bindings.filterMap Binding.callee?).length :=
      hfuncs.length_eq
    refine ⟨rfl, ⟨(s.linked m pageLimit bindings).callees.toList, ?_⟩, fun himports => ?_⟩
    · refine ⟨by rw [Store.code?, Array.getElem?_push_size]; rfl, ?_, ?_⟩
      · intro i hi
        have hi' := hcount ▸ hi
        obtain ⟨htype, hposts⟩ := hfuncs.get hi hi'
        refine ⟨?_, _, ?_, (hposts _ (Nat.le_refl _)).later hevolves⟩
        · rw [Module.funcType?, List.getElem?_append_left hi, List.getElem?_eq_getElem hi]
          exact htype
        · exact (List.getElem?_append_left hi').trans (List.getElem?_eq_getElem hi')
      · intro i hi
        simp [Store.linked, hcount, hi]
    · rw [Module.importedMemories] at himports
      rw [Store.linearOf?, Array.getElem?_push_size, Option.bind_some]
      change (bindings.findSome? Binding.memory?).or _ = _
      rw [bound_memory hbound, if_neg himports, Option.some_or]

end

/-- What is in a store stays as it is when an instance is added. -/
theorem instantiate_stored {s s' : Store} {modules : List (String × Provider)}
    {pageLimit inst : Nat} {m : Module}
    (h : s.instantiate modules pageLimit m = .ok (inst, s')) :
    (∀ k < s.instances.size, s'.instances[k]? = s.instances[k]?) ∧
      ∀ l < s.memories.size, s'.memories[l]? = s.memories[l]? := by
  cases hbindings : m.imports.mapM (resolve s modules pageLimit m) with
  | error reason => cases (instantiate_of_error hbindings).symm.trans h
  | ok bindings =>
    cases (instantiate_of_bindings hbindings).symm.trans h
    constructor
    · intro k hk
      exact Array.getElem?_push_lt hk ▸ (Array.getElem?_eq_getElem hk).symm
    · intro l hl
      exact Array.getElem?_append_left hl

end GuestThreads.Wasm
