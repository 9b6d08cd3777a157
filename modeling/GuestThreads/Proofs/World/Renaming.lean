import GuestThreads.Proofs.Wasm.Alike
import GuestThreads.Proofs.World.Offering
import GuestThreads.Proofs.World.Population

/-!
# Two wirings of the signal function

Guests import the signal function either from the module of the memory, where a trampoline stands in
front of the host, or straight from a module of the host. An engine with a memory is equipped in one
of these ways. Which guests can be linked, and to what, is then said without regard to the wiring.
-/

namespace GuestThreads

/-! ## Guests under another name -/

/-- An import under a new module name, if it is the one that is renamed. -/
def Wasm.Import.renamed (old : Config.ImportName) (n : String) (i : Import) : Import :=
  if i.module = old.module ∧ i.name = old.name then { i with module := n } else i

def Wasm.Module.renamed (old : Config.ImportName) (n : String) (m : Module) : Module :=
  { m with imports := m.imports.map (·.renamed old n) }

/-- The settings with another module name for the signal function. -/
def Config.withSignalModule (c : Config) (n : String) : Config :=
  { c with signal := { c.signal with module := n } }

namespace Wasm

variable (old : Config.ImportName) (n : String)

@[simp] theorem Import.renamed_name (i : Import) : (i.renamed old n).name = i.name := by
  rw [renamed]
  split <;> rfl

@[simp] theorem Import.renamed_desc (i : Import) : (i.renamed old n).desc = i.desc := by
  rw [renamed]
  split <;> rfl

theorem Import.renamed_memory? (i : Import) : (i.renamed old n).memory? = i.memory? := by
  rw [memory?, memory?, renamed_desc]

theorem Module.renamed_bare (m : Module) : (m.renamed old n).bare = m.bare := by
  have hentry (i : Import) : ({ i.renamed old n with module := "" } : Import) =
      { i with module := "" } := by
    rw [Import.renamed]
    split <;> rfl
  simp only [renamed, bare, List.map_map, Function.comp_def, hentry]

end Wasm

namespace World

/-- Whoever reads the second binary finds what is in the first one, with one import renamed. -/
structure Renames [Wasm.Machine] (old : Config.ImportName) (n : String) (bytes bytes' : Bytes) :
    Prop where
  compiled : ∀ pageLimit, Wasm.Machine.compile? pageLimit bytes' =
    (Wasm.Machine.compile? pageLimit bytes).map (·.renamed old n)
  scanned : Wasm.Import.scan bytes' = (Wasm.Import.scan bytes).map (·.map (·.renamed old n))

section

variable {old : Config.ImportName} {n : String} {bytes bytes' : Bytes}

/-- An import is the wanted one just when it is so under its new name. -/
theorem renamed_iff {wanted : Config.ImportName} (hold : wanted ≠ old)
    (hnew : wanted.module ≠ n) (i : Wasm.Import) :
    ((i.renamed old n).module ≠ wanted.module ∨ (i.renamed old n).name ≠ wanted.name) ↔
      (i.module ≠ wanted.module ∨ i.name ≠ wanted.name) := by
  rw [Wasm.Import.renamed]
  split
  · rename_i h
    refine iff_of_true (.inl fun heq => hnew heq.symm) ?_
    by_contra hboth
    obtain ⟨hmodule, hname⟩ := not_or.1 hboth
    apply hold
    cases wanted
    cases old
    exact congrArg₂ Config.ImportName.mk ((not_not.1 hmodule).symm.trans h.1)
      ((not_not.1 hname).symm.trans h.2)
  · rfl

theorem Renames.checkMemoryImport [Wasm.Machine] (h : Renames old n bytes bytes')
    {wanted : Config.ImportName} (hold : wanted ≠ old) (hnew : wanted.module ≠ n)
    (pages maxPages : UInt32) :
    GuestThreads.checkMemoryImport wanted pages maxPages bytes' =
      GuestThreads.checkMemoryImport wanted pages maxPages bytes := by
  rw [GuestThreads.checkMemoryImport, GuestThreads.checkMemoryImport, h.scanned]
  cases Wasm.Import.scan bytes with
  | error e => rfl
  | ok imports =>
    have hfind : (imports.map (·.renamed old n)).findSome?
          (fun i => i.memory?.map fun l => (i, l)) =
        (imports.findSome? fun i => i.memory?.map fun l => (i, l)).map
          fun found => (found.1.renamed old n, found.2) := by
      induction imports with
      | nil => rfl
      | cons i imports ih =>
        rw [List.map_cons, List.findSome?_cons, List.findSome?_cons, Wasm.Import.renamed_memory?]
        cases i.memory? with
        | none => exact ih
        | some l => rfl
    simp only [Except.map, hfind]
    cases imports.findSome? fun i => i.memory?.map fun l => (i, l) with
    | none => rfl
    | some found => simp only [Option.map_some, renamed_iff hold hnew found.1]

/-- A binary is accepted under both names or under none. -/
theorem Renames.accept? [Wasm.Machine] (h : Renames old n bytes bytes') {e e' : Engine}
    (hclosed : e'.closed = e.closed) (hlimit : e'.pageLimit = e.pageLimit) :
    e'.accept? bytes' = (e.accept? bytes).map (·.renamed old n) := by
  rw [Engine.accept?, Engine.accept?, hclosed, hlimit]
  split
  · rfl
  · exact h.compiled e.pageLimit

end

/-- The start function is named in the same way. -/
theorem startName_renamed (m : Wasm.Module) (old : Config.ImportName) (n : String) (start : Nat) :
    startName (m.renamed old n) start = startName m start := by
  rw [startName, startName, ← Wasm.Module.importedFuncs_bare (m.renamed old n),
    Wasm.Module.renamed_bare, Wasm.Module.importedFuncs_bare]
  rfl

/-! ## An engine with a memory -/

/-- An engine that has just got its first memory. -/
def readied (c : Config) : Engine := { config := c, memory := some 0, modules := offered c 0 0 }

/-- What guests call to post a signal. -/
def signalCallee (c : Config) : Wasm.Callee :=
  if merged c then .code 0 1 else .host (hostFunc c 0)

/-- All functions that an instance imports are bound to `callee`. -/
def BoundTo (s : Wasm.Store) (callee : Wasm.Callee) (inst : Nat) : Prop :=
  ∃ x, s.instances[inst]? = some x ∧
    ∀ k < x.module.importedFuncs.length, x.callees[k]? = some callee

/-- There is one engine with one memory, and all guests post signals in the way of its settings. -/
structure Equipped [Wasm.Machine] (c : Config) (min max : UInt32) (w : World) : Prop where
  fits : (trampoline c min max).Fits
  names : merged c → c.memory.importName.name ≠ c.signal.name
  populated : Populated w
  engines : w.engines.map essence = #[readied c]
  memories : w.memories = #[memoryEntry 0 c min max 0 0]
  stands : (trampoline c min max).Stands (forwarded c 0) w.store 0
  linear : w.store.linearOf? 0 = some 0
  bound : ∀ (j : Nat) (i : LiveInstance), w.instances[j]? = some i →
    BoundTo w.store (signalCallee c) i.inst

section

variable {c : Config} {min max : UInt32} {w w' : World}

theorem BoundTo.later {s s' : Wasm.Store} {callee : Wasm.Callee} {inst : Nat}
    (h : BoundTo s callee inst) (hs : Wasm.Evolves s s') : BoundTo s' callee inst := by
  obtain ⟨x, hx, hcallees⟩ := h
  obtain ⟨x', hx', hstays⟩ := hs.instances inst x hx
  refine ⟨x', hx', ?_⟩
  rw [hstays.module, hstays.callees]
  exact hcallees

theorem Equipped.evolve [Wasm.Machine] (h : Equipped c min max w) (hpopulated : Populated w')
    (hlineup : SameLineup w w') (hs : Wasm.Evolves w.store w'.store)
    (hinstances : w'.instances.map lodging = w.instances.map lodging) : Equipped c min max w' where
  fits := h.fits
  names := h.names
  populated := hpopulated
  engines := hlineup.engines.trans h.engines
  memories := hlineup.memories.trans h.memories
  stands := hs.code? h.stands
  linear := linearOf?_later hs h.linear
  bound j i hi := by
    obtain ⟨i₀, hi₀, hlodging⟩ := getElem?_of_map_eq hinstances hi
    rw [(Prod.mk.inj hlodging).1]
    exact (h.bound j i₀ hi₀).later hs

/-- The engine as it is now. -/
theorem Equipped.engine [Wasm.Machine] (h : Equipped c min max w) : ∃ e, w.engines[0]? = some e ∧
    e.config = c ∧ e.closed = false ∧ e.modules = offered c 0 0 := by
  have hmap : (w.engines.map essence)[0]? = some (readied c) := by
    rw [h.engines]
    rfl
  rw [Array.getElem?_map, Option.map_eq_some_iff] at hmap
  obtain ⟨e, he, hessence⟩ := hmap
  obtain ⟨hconfig, -, hmodules, hclosed⟩ := essence_inj (e := readied c) hessence
  exact ⟨e, he, hconfig, hclosed, hmodules⟩

theorem Equipped.no_other_engine [Wasm.Machine] (h : Equipped c min max w) {k : Nat} (hk : k ≠ 0) :
    w.engines[k]? = none := by
  have hsize := congrArg Array.size h.engines
  rw [Array.size_map] at hsize
  rw [Array.getElem?_eq_none_iff, hsize]
  exact Nat.one_le_iff_ne_zero.2 hk

theorem Equipped.engine_eq [Wasm.Machine] (h : Equipped c min max w) {k : Nat} {e : Engine}
    (he : w.engines[k]? = some e) :
    k = 0 ∧ e.config = c ∧ e.closed = false ∧ e.modules = offered c 0 0 := by
  have hk : k = 0 := by
    by_contra hk
    cases (h.no_other_engine hk).symm.trans he
  obtain ⟨e', he', hengine⟩ := h.engine
  cases he'.symm.trans (hk ▸ he)
  exact ⟨hk, hengine⟩

end

/-! ## Linking -/

/-- All that a guest imports is the memory and the signal function. -/
def Plain (c : Config) (m : Wasm.Module) : Prop :=
  ∀ i ∈ m.imports,
    (i.module = c.memory.importName.module ∧ i.name = c.memory.importName.name ∧
      ∃ l, i.desc = .memory l) ∨
    (i.module = c.signal.module ∧ i.name = c.signal.name ∧ ∃ index, i.desc = .func index)

theorem Plain.renamed {c : Config} {m : Wasm.Module} (h : Plain c m)
    (hname : c.memory.importName.name ≠ c.signal.name) (n : String) :
    Plain (c.withSignalModule n) (m.renamed c.signal n) := by
  intro i hi
  obtain ⟨i₀, hi₀, rfl⟩ := List.mem_map.1 hi
  rw [Wasm.Import.renamed_name, Wasm.Import.renamed_desc, Wasm.Import.renamed]
  rcases h i₀ hi₀ with ⟨hm, hn, hdesc⟩ | ⟨hm, hn, hdesc⟩
  · rw [if_neg fun heq => hname (hn.symm.trans heq.2)]
    exact .inl ⟨hm, hn, hdesc⟩
  · rw [if_pos ⟨hm, hn⟩]
    exact .inr ⟨rfl, hn, hdesc⟩

/-- What an import has to ask for to be bound. -/
def Suits (s : Wasm.Store) (pageLimit : Nat) (types : List Wasm.FuncType) :
    Wasm.Import.Desc → Prop
  | .func index => (types[index.toNat]?).getD {} = Wasm.signalType
  | .memory l => ∃ found : Wasm.Memory, s.memories[0]? = some found ∧
    l.min.toNat ≤ found.pages ∧ found.ceiling ≤ l.ceiling pageLimit
  | _ => False

/-- What an import is bound to, where signals are posted by `callee`. -/
def bindingOf (callee : Wasm.Callee) (i : Wasm.Import) : Wasm.Binding :=
  match i.desc with
  | .func _ => .func callee
  | _ => .memory 0

section

variable {c : Config} {min max : UInt32} {w : World} {m : Wasm.Module} {i : Wasm.Import}

theorem Equipped.supplies [Wasm.Machine] (h : Equipped c min max w) :
    Supplies c min max 0 0 0 w.store :=
  ⟨h.fits, h.names, h.stands, h.linear⟩

/-- Whether an import of a plain guest is bound does not depend on the wiring. -/
theorem Equipped.resolve [Wasm.Machine] (h : Equipped c min max w) (pageLimit : Nat)
    (hplain : Plain c m) (hi : i ∈ m.imports) :
    (Suits w.store pageLimit m.types i.desc →
      Wasm.resolve w.store (offered c 0 0) pageLimit m i = .ok (bindingOf (signalCallee c) i)) ∧
    (¬Suits w.store pageLimit m.types i.desc →
      ∃ reason, Wasm.resolve w.store (offered c 0 0) pageLimit m i = .error reason) := by
  rcases hplain i hi with ⟨hmodule, hname, l, hdesc⟩ | ⟨hmodule, hname, index, hdesc⟩
  · rw [h.supplies.resolve_memory pageLimit hmodule hname hdesc, hdesc, bindingOf, hdesc,
      Wasm.bindMemory]
    constructor
    · rintro ⟨found, hfound, hmin, hmax⟩
      rw [hfound]
      dsimp only
      rw [if_neg (Nat.not_lt.2 hmin), if_neg (Nat.not_lt.2 hmax)]
    · intro hsuits
      cases hfound : w.store.memories[0]? with
      | none => exact ⟨_, rfl⟩
      | some found =>
        dsimp only
        split
        · exact ⟨_, rfl⟩
        · split
          · exact ⟨_, rfl⟩
          · rename_i hmin hmax
            exact absurd ⟨found, hfound, Nat.not_lt.1 hmin, Nat.not_lt.1 hmax⟩ hsuits
  · have hsignal : Wasm.resolve w.store (offered c 0 0) pageLimit m i =
        Wasm.bindFunc m i index (signalCallee c) Wasm.signalType :=
      h.supplies.resolve_signal pageLimit hmodule hname hdesc
    rw [hsignal, hdesc, bindingOf, hdesc, Wasm.bindFunc]
    exact ⟨fun hsuits => if_pos hsuits, fun hsuits => ⟨_, if_neg hsuits⟩⟩

theorem mapM_of_suits {α β ε : Type} {f : α → Except ε β} {g : α → β} {P : α → Prop} {xs : List α}
    (h : ∀ x ∈ xs, (P x → f x = .ok (g x)) ∧ (¬P x → ∃ e, f x = .error e)) :
    ((∀ x ∈ xs, P x) → xs.mapM f = .ok (xs.map g)) ∧
      ((¬∀ x ∈ xs, P x) → ∃ e, xs.mapM f = .error e) := by
  induction xs with
  | nil => exact ⟨fun _ => rfl, fun hnone => absurd (by simp) hnone⟩
  | cons x xs ih =>
    obtain ⟨hok, herror⟩ := h x (by simp)
    obtain ⟨hoks, herrors⟩ := ih fun y hy => h y (by simp [hy])
    rw [List.forall_mem_cons, List.mapM_cons]
    constructor
    · rintro ⟨hx, hxs⟩
      rw [hok hx, hoks hxs]
      rfl
    · intro hnot
      by_cases hx : P x
      · obtain ⟨e, he⟩ := herrors fun hxs => hnot ⟨hx, hxs⟩
        rw [hok hx, he]
        exact ⟨e, rfl⟩
      · obtain ⟨e, he⟩ := herror hx
        rw [he]
        exact ⟨e, rfl⟩

/-- The store once a plain guest is linked. -/
def withGuest (s : Wasm.Store) (m : Wasm.Module) (pageLimit : Nat) (callee : Wasm.Callee) :
    Wasm.Store :=
  { s with
    memories := s.memories ++ (m.definedMemories pageLimit).toArray
    instances := s.instances.push (s.linked m pageLimit (m.imports.map (bindingOf callee))) }

theorem Equipped.instantiate [Wasm.Machine] (h : Equipped c min max w) (pageLimit : Nat)
    (hplain : Plain c m) :
    ((∀ i ∈ m.imports, Suits w.store pageLimit m.types i.desc) →
      w.store.instantiate (offered c 0 0) pageLimit m =
        .ok (w.store.instances.size, withGuest w.store m pageLimit (signalCallee c))) ∧
    ((¬∀ i ∈ m.imports, Suits w.store pageLimit m.types i.desc) →
      ∃ reason, w.store.instantiate (offered c 0 0) pageLimit m = .error reason) := by
  obtain ⟨hok, herror⟩ := mapM_of_suits fun i hi => h.resolve pageLimit hplain hi
  constructor
  · intro hsuits
    exact Wasm.instantiate_of_bindings (hok hsuits)
  · intro hsuits
    obtain ⟨reason, hreason⟩ := herror hsuits
    exact ⟨reason, Wasm.instantiate_of_error hreason⟩

theorem withGuest_alike {s s' : Wasm.Store} (h : Wasm.Alike 0 s s') (m : Wasm.Module)
    (pageLimit : Nat) (old : Config.ImportName) (n : String) (callee callee' : Wasm.Callee) :
    Wasm.Alike 0 (withGuest s m pageLimit callee)
      (withGuest s' (m.renamed old n) pageLimit callee') where
  memories := congrArg (· ++ (m.definedMemories pageLimit).toArray) h.memories
  size := by
    rw [withGuest, withGuest, Array.size_push, Array.size_push, h.size]
  guests k hk := by
    have hbindings : ((m.renamed old n).imports.map (bindingOf callee')).findSome?
        Wasm.Binding.memory? =
          (m.imports.map (bindingOf callee)).findSome? Wasm.Binding.memory? := by
      have hentry (i : Wasm.Import) : (bindingOf callee' (i.renamed old n)).memory? =
          (bindingOf callee i).memory? := by
        rw [bindingOf, bindingOf, Wasm.Import.renamed_desc]
        cases i.desc <;> rfl
      simp only [Wasm.Module.renamed, List.findSome?_map, Function.comp_def, hentry]
    have hlinked : (s'.linked (m.renamed old n) pageLimit
        ((m.renamed old n).imports.map (bindingOf callee'))).bare =
        (s.linked m pageLimit (m.imports.map (bindingOf callee))).bare := by
      simp only [Wasm.Instance.bare, Wasm.Store.linked, Wasm.Module.renamed_bare, hbindings,
        h.memories]
      rfl
    rw [withGuest, withGuest, Array.getElem?_push, Array.getElem?_push, h.size]
    split
    · rw [Option.map_some, hlinked]
      rfl
    · exact h.guests k hk

theorem withGuest_boundTo (s : Wasm.Store) (m : Wasm.Module) (pageLimit : Nat)
    (callee : Wasm.Callee) : BoundTo (withGuest s m pageLimit callee) callee s.instances.size := by
  have hcallees : (m.imports.map (bindingOf callee)).filterMap Wasm.Binding.callee? =
      m.importedFuncs.map fun _ => callee := by
    have hentry (i : Wasm.Import) : (bindingOf callee i).callee? =
        i.funcIndex?.map fun _ => callee := by
      rw [bindingOf, Wasm.Import.funcIndex?]
      cases i.desc <;> rfl
    change _ = (m.imports.filterMap Wasm.Import.funcIndex?).map _
    simp only [List.filterMap_map, List.map_filterMap, Function.comp_def, hentry]
  refine ⟨_, Array.getElem?_push_size, fun k hk => ?_⟩
  have hk' : k < (m.importedFuncs.map fun _ => callee).length := by
    rw [List.length_map]
    exact hk
  rw [Wasm.Store.linked, hcallees]
  dsimp only
  rw [List.getElem?_toArray, List.getElem?_append_left hk', List.getElem?_eq_getElem hk',
    List.getElem_map]

end

end World

end GuestThreads
