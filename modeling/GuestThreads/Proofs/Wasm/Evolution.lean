import GuestThreads.Proofs.Wasm.Machine
import GuestThreads.Wasm.Linking

/-!
# What guest code can do to a store

Instances and memories are never taken out of a store, and what an instance is linked to stays. A
step of guest code leaves the scope of its own instance in another state, and nothing else changes.
-/

namespace GuestThreads.Wasm

/-! ## Evolution -/

/-- An instance and a later state of it. -/
structure Instance.Stays (x x' : Instance) : Prop where
  module : x'.module = x.module
  callees : x'.callees = x.callees
  memory : x'.memory = x.memory

/-- A store and a later state of it. -/
structure Evolves (s s' : Store) : Prop where
  instances : ∀ (j : Nat) x, s.instances[j]? = some x →
    ∃ x', s'.instances[j]? = some x' ∧ x.Stays x'
  memories : s.memories.size ≤ s'.memories.size

theorem Instance.Stays.refl (x : Instance) : x.Stays x := ⟨rfl, rfl, rfl⟩

theorem Instance.Stays.trans {x x' x'' : Instance} (h : x.Stays x') (h' : x'.Stays x'') :
    x.Stays x'' :=
  ⟨h'.module.trans h.module, h'.callees.trans h.callees, h'.memory.trans h.memory⟩

namespace Evolves

variable {s s' s'' : Store}

theorem refl (s : Store) : Evolves s s := ⟨fun _ x hx => ⟨x, hx, .refl x⟩, Nat.le_refl _⟩

theorem size_le (h : Evolves s s') : s.instances.size ≤ s'.instances.size := by
  by_contra hlt
  obtain ⟨x', hx', -⟩ := h.instances s'.instances.size _ (Array.getElem?_eq_getElem (by omega))
  exact absurd (Array.getElem?_eq_some_iff.1 hx').1 (Nat.lt_irrefl _)

theorem trans (h : Evolves s s') (h' : Evolves s' s'') : Evolves s s'' := by
  refine ⟨fun j x hx => ?_, Nat.le_trans h.memories h'.memories⟩
  obtain ⟨x', hx', hstays⟩ := h.instances j x hx
  obtain ⟨x'', hx'', hstays'⟩ := h'.instances j x' hx'
  exact ⟨x'', hx'', hstays.trans hstays'⟩

theorem modify {f : Instance → Instance} (h : ∀ x : Instance, x.Stays (f x)) (s : Store) (j : Nat) :
    Evolves s { s with instances := s.instances.modify j f } := by
  refine ⟨fun i x hx => ?_, Nat.le_refl _⟩
  rw [Array.getElem?_modify, hx]
  split
  · exact ⟨f x, rfl, h x⟩
  · exact ⟨x, rfl, .refl x⟩

theorem setGlobal (s : Store) (inst index : Nat) (v : UInt64) :
    Evolves s (s.setGlobal inst index v) := by
  refine modify (fun x => ?_) s inst
  exact ⟨rfl, rfl, rfl⟩

theorem closeInstance (s : Store) (inst : Nat) (why : Closing) :
    Evolves s (s.closeInstance inst why) := by
  refine modify (fun x => ?_) s inst
  split
  · exact .refl x
  · exact ⟨rfl, rfl, rfl⟩

theorem close (s : Store) (owner : Owner) (why : Closing) : Evolves s (s.close owner why) := by
  cases owner with
  | «instance» inst => exact closeInstance s inst why
  | host home =>
    change Evolves s (s.closeHost home why)
    rw [Store.closeHost]
    split
    · exact refl s
    · exact ⟨(refl s).instances, (refl s).memories⟩

theorem closeAll (s : Store) (owners : List Owner) :
    Evolves s (owners.foldl (·.close · .released) s) := by
  induction owners generalizing s with
  | nil => exact refl s
  | cons owner owners ih => exact (close s owner .released).trans (ih _)

theorem setMemory (s : Store) (j : Nat) (m : Memory) : Evolves s (s.setMemory j m) :=
  ⟨(refl s).instances, Nat.le_of_eq (Array.size_setIfInBounds ..).symm⟩

/-- What is added to a store leaves what is there alone. -/
theorem extend (s : Store) (x : Instance) (memories : Array Memory) :
    Evolves s { s with
      memories := s.memories ++ memories
      instances := s.instances.push x } := by
  constructor
  · intro j y hy
    have hlt := (Array.getElem?_eq_some_iff.1 hy).1
    refine ⟨y, ?_, .refl y⟩
    rw [Array.getElem?_push, if_neg (by omega), hy]
  · rw [Array.size_append]
    exact Nat.le_add_right _ _

end Evolves

theorem instantiate_evolves {s s' : Store} {modules : List (String × Provider)}
    {pageLimit inst : Nat} {m : Module}
    (h : s.instantiate modules pageLimit m = .ok (inst, s')) : Evolves s s' := by
  unfold Store.instantiate at h
  cases hbindings : m.imports.mapM (resolve s modules pageLimit m) with
  | error reason =>
    rw [hbindings] at h
    cases h
  | ok bindings =>
    rw [hbindings] at h
    cases h
    exact .extend s _ _

/-! ## Scopes -/

section Leave

theorem modify_eq_self {α : Type} {xs : Array α} {i : Nat} {f : α → α}
    (h : ∀ x, xs[i]? = some x → f x = x) : xs.modify i f = xs := by
  refine Array.ext_getElem? fun j => ?_
  rw [Array.getElem?_modify]
  split
  · rename_i hij
    subst hij
    cases hx : xs[i]? with
    | none => rfl
    | some x => exact congrArg some (h x hx)
  · rfl

theorem setIfInBounds_eq_self {α : Type} {xs : Array α} {i : Nat} {x : α} (h : xs[i]? = some x) :
    xs.setIfInBounds i x = xs := by
  refine Array.ext_getElem? fun j => ?_
  rw [Array.getElem?_setIfInBounds]
  split
  · rename_i hij
    subst hij
    rw [h, if_pos (Array.getElem?_eq_some_iff.1 h).1]
  · rfl

variable {s : Store} {inst j : Nat} {v : Scope}

theorem leave_instances (s : Store) (inst : Nat) (v : Scope) :
    (s.leave inst v).instances =
      s.instances.modify inst fun x => { x with globals := v.globals, rest := v.rest } := rfl

theorem leave_self {x : Instance} (hx : s.instances[inst]? = some x) :
    (s.leave inst v).instances[inst]? = some { x with globals := v.globals, rest := v.rest } := by
  rw [leave_instances, Array.getElem?_modify, if_pos rfl, hx]
  rfl

theorem leave_others (h : j ≠ inst) : (s.leave inst v).instances[j]? = s.instances[j]? := by
  rw [leave_instances, Array.getElem?_modify, if_neg h.symm]

theorem leave_memories_size (s : Store) (inst : Nat) (v : Scope) :
    (s.leave inst v).memories.size = s.memories.size := by
  rw [Store.leave]
  dsimp only
  split
  · exact Array.size_setIfInBounds ..
  · rfl

/-- Only the memory of the instance itself is written to. -/
theorem leave_memories (h : s.linearOf? inst ≠ some j) :
    (s.leave inst v).memories[j]? = s.memories[j]? := by
  rw [Store.leave]
  dsimp only
  split
  · rename_i m memory hm _
    have hne : m ≠ j := by
      rintro rfl
      exact h hm
    rw [Array.getElem?_setIfInBounds_ne hne]
  · rfl

/-- What is left in the memory is what it holds from then on. -/
theorem leave_memory {memory : Memory} (hlinear : s.linearOf? inst = some j)
    (hj : j < s.memories.size) (hv : v.memory = some memory) :
    (s.leave inst v).memories[j]? = some memory := by
  rw [Store.leave, hlinear, hv]
  exact Array.getElem?_setIfInBounds_self_of_lt hj

/-- Code finds what the memory of its instance holds. -/
theorem scope_memory (hlinear : s.linearOf? inst = some j) :
    (s.scope inst).memory = s.memories[j]? := by
  obtain ⟨x, hx, hmemory⟩ := Option.bind_eq_some_iff.1 hlinear
  rw [Store.scope, hx]
  dsimp only
  rw [hmemory, Option.bind_some]

/-- A scope that is left as it was found leaves the store as it was. -/
theorem leave_scope (s : Store) (inst : Nat) : s.leave inst (s.scope inst) = s := by
  have hinstances : (s.leave inst (s.scope inst)).instances = s.instances := by
    rw [leave_instances]
    refine modify_eq_self fun x hx => ?_
    rw [Store.scope, hx]
  have hmemories : (s.leave inst (s.scope inst)).memories = s.memories := by
    rw [Store.leave]
    dsimp only
    split
    · rename_i m memory hm hmemory
      obtain ⟨x, hx, hxm⟩ := Option.bind_eq_some_iff.1 hm
      rw [Store.scope, hx] at hmemory
      dsimp only at hmemory
      rw [hxm, Option.bind_some] at hmemory
      exact setIfInBounds_eq_self hmemory
    · rfl
  cases s
  exact congrArg₂ (fun memories instances => Store.mk memories instances _) hmemories hinstances

end Leave

theorem Evolves.leave (s : Store) (inst : Nat) (v : Scope) : Evolves s (s.leave inst v) := by
  have hinstances := (modify (f := fun x => { x with globals := v.globals, rest := v.rest })
    (fun _ => ⟨rfl, rfl, rfl⟩) s inst).instances
  exact ⟨hinstances, Nat.le_of_eq (leave_memories_size s inst v).symm⟩

/-! ## Steps -/

variable [Machine]

/-- Code that leaves its scope as it found it changes nothing. -/
theorem step_silent {s : Store} {f : Frame} {body : Machine.Body} (rest : List Frame)
    (h : f.move s = .ran (s.scope f.inst) body) :
    step s (f :: rest) = .running s ({ f with body := body } :: rest) := by
  rw [step_ran rest h, leave_scope]

/-- A call changes no store. -/
theorem startCall_store {s s' : Store} {f : Frame} {rest frames' : List Frame} {index : Nat}
    {args : List UInt64} (h : startCall s f rest index args = .running s' frames') : s' = s := by
  unfold startCall at h
  dsimp only at h
  split at h
  · split at h
    · unfold invoke at h
      split at h
      · cases h
      · split at h
        · cases h
        · split at h
          · cases h
            rfl
          · cases h
    · cases h
  · cases h

/-- A step changes the scope of the innermost call's instance and nothing else. -/
theorem step_leaves {s s' : Store} {f : Frame} {rest frames' : List Frame}
    (h : step s (f :: rest) = .running s' frames') : ∃ v, s' = s.leave f.inst v := by
  rw [step] at h
  cases hmove : f.move s with
  | ran v body =>
    rw [hmove] at h
    cases h
    exact ⟨v, rfl⟩
  | call index args body =>
    rw [hmove] at h
    exact ⟨_, (startCall_store h).trans (leave_scope s f.inst).symm⟩
  | ended operands =>
    rw [hmove] at h
    cases rest with
    | nil => cases h
    | cons caller rest =>
      cases h
      exact ⟨_, (leave_scope s f.inst).symm⟩
  | trapped reason =>
    rw [hmove] at h
    cases h
  | closed why =>
    rw [hmove] at h
    cases h

theorem step_evolves {s s' : Store} {frames frames' : List Frame}
    (h : step s frames = .running s' frames') : Evolves s s' := by
  cases frames with
  | nil => cases h
  | cons f rest =>
    obtain ⟨v, rfl⟩ := step_leaves h
    exact .leave s f.inst v

/-- A run that posts signals evolves the store. -/
theorem run_evolves (steps : Nat) (posted : List Signal) (s : Store) (frames : List Frame) :
    Evolves s (run signalHost steps posted s frames).2.2 := by
  induction steps generalizing posted s frames with
  | zero => exact .refl s
  | succ steps ih =>
    rw [run]
    cases hstep : step s frames with
    | running s' frames' => exact (step_evolves hstep).trans (ih posted s' frames')
    | finished results => exact .refl s
    | trapped reason => exact .refl s
    | closed why => exact .refl s
    | asked function args frames' =>
      simp only [signalHost]
      cases signalOf? args with
      | none => exact .refl s
      | some signal => exact ih _ s _

end GuestThreads.Wasm
