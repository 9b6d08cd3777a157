import GuestThreads.Proofs.Wasm.Memory
import GuestThreads.Proofs.World.Population

/-!
# Memory that all share

The code of instances that share a memory and views of it find the same in it at any time. What one
of them writes is what all of them find from then on.
-/

namespace GuestThreads.World

/-- An instance that was given memory `id` and imports a memory. -/
structure Shares (w : World) (id : Nat) (i : LiveInstance) : Prop where
  given : i.memory = id
  imports : ∃ x, w.store.instances[i.inst]? = some x ∧ x.module.importedMemories ≠ []

/-- A view of memory `id`, of its own or through an open instance. -/
def View.Shows (w : World) (id : Nat) : View → Prop
  | .memory k => k = id
  | .instance j => ∃ i, w.instances[j]? = some i ∧ i.isOpen = true ∧ Shares w id i

/-- On a store that has come from the one of a world, all that share memory `id` find this in it. -/
structure Seen (w : World) (id : Nat) (s : Wasm.Store) (memory : Wasm.Memory) : Prop where
  guests : ∀ (j : Nat) (i : LiveInstance), w.instances[j]? = some i → Shares w id i →
    (s.scope i.inst).memory = some memory
  views : ∀ view : View, view.Shows w id → view.memory? { w with store := s } = some memory

variable [Wasm.Machine]

/-- There is one memory `id` for all, and what is written to it is seen by all. -/
structure Coherent (w : World) (id : Nat) : Prop where
  /-- While guests run, all find the same at any time. -/
  same : (w.memories[id]?).isSome → ∀ s, Wasm.Evolves w.store s → ∃ memory, Seen w id s memory
  /-- What a step of a guest's code leaves in the memory is found by all. -/
  code : ∀ (j : Nat) (i : LiveInstance) (s : Wasm.Store) (f : Wasm.Frame) (rest : List Wasm.Frame)
    (v : Wasm.Scope) (body : Wasm.Machine.Body) (memory : Wasm.Memory),
    w.instances[j]? = some i → Shares w id i → Wasm.Evolves w.store s → f.inst = i.inst →
    f.move s = .ran v body → v.memory = some memory →
    ∃ s', Wasm.step s (f :: rest) = .running s' ({ f with body := body } :: rest) ∧
      Seen w id s' memory
  /-- What is written through a view is found by all. -/
  write : ∀ (view : View) (offset : UInt32) (bytes : Bytes) (w' : World), view.Shows w id →
    (Request.write view offset bytes).perform w = (.ok .done, w') →
    ∃ memory, Seen w id w.store memory ∧ memory.covers offset.toNat bytes.length = true ∧
      Seen w id w'.store (memory.store offset.toNat bytes) ∧
      ∀ (view' : View) (length : UInt32), view'.Shows w id → length.toNat = bytes.length →
        MemoryView.read (view'.memory? w') offset length = .ok bytes

section

variable {w : World} {id j : Nat} {i : LiveInstance} {m : SharedMemory} {s : Wasm.Store}
  {view : View} {memory : Wasm.Memory}

theorem Populated.linear_of_shares (h : Populated w) (hi : w.instances[j]? = some i)
    (hshares : Shares w id i) : ∃ m, w.memories[id]? = some m ∧
      w.store.linearOf? i.inst = some m.linear := by
  obtain ⟨m, hm, module, callees, hresident, hlinear⟩ := h.lodged j i hi
  obtain ⟨x, hx, himports⟩ := hshares.imports
  obtain ⟨x', hx', hmodule, -⟩ := hresident.found
  cases hx.symm.trans hx'
  exact ⟨m, hshares.given ▸ hm, hlinear (hmodule ▸ himports)⟩

theorem Populated.view_linear (h : Populated w) (hm : w.memories[id]? = some m)
    (hview : view.Shows w id) (hs : Wasm.Evolves w.store s) :
    view.linear? { w with store := s } = some m.linear := by
  cases view with
  | memory k =>
    cases hview
    exact congrArg (Option.map (·.linear)) hm
  | «instance» j =>
    obtain ⟨i, hi, hopen, hshares⟩ := hview
    obtain ⟨m', hm', hlinear⟩ := h.linear_of_shares hi hshares
    cases hm.symm.trans hm'
    have hlater := linearOf?_later hs hlinear
    rw [View.linear?, instanceMemory?]
    dsimp only
    rw [hi]
    change (if i.isOpen then (s.instances[i.inst]?).bind (·.memory) else none) = _
    rw [hopen]
    exact hlater

/-- What the one linear memory holds is seen by all. -/
theorem Populated.seen (h : Populated w) (hm : w.memories[id]? = some m)
    (hs : Wasm.Evolves w.store s) (hmemory : s.memories[m.linear]? = some memory) :
    Seen w id s memory where
  guests j i hi hshares := by
    obtain ⟨m', hm', hlinear⟩ := h.linear_of_shares hi hshares
    cases hm.symm.trans hm'
    rw [Wasm.scope_memory (linearOf?_later hs hlinear), hmemory]
  views view hview := by
    rw [View.memory?, h.view_linear hm hview hs]
    exact hmemory

theorem Populated.linear_lt (h : Populated w) (hm : w.memories[id]? = some m)
    (hs : Wasm.Evolves w.store s) : m.linear < s.memories.size := by
  obtain ⟨t, functions, -, -, -, hlt⟩ := h.founded id m hm
  exact Nat.lt_of_lt_of_le hlt hs.memories

/-- What a write through a view does, if it succeeds. -/
theorem write_run {offset : UInt32} {bytes : Bytes} {w' : World}
    (h : (Request.write view offset bytes).perform w = (.ok .done, w')) :
    ∃ linear memory, view.linear? w = some linear ∧ w.store.memories[linear]? = some memory ∧
      memory.covers offset.toNat bytes.length = true ∧
      w' = { w with store := w.store.setMemory linear (memory.store offset.toNat bytes) } := by
  rw [Request.perform_write, bind_run, alterMemory, read_run, bind_run] at h
  cases hwrite : MemoryView.write ((view.linear? w).bind (w.store.memories[·]?)) offset bytes with
  | error f =>
    rw [hwrite] at h
    cases h
  | ok memory' =>
    rw [hwrite] at h
    cases h
    obtain ⟨memory, hmemory, hcovers, rfl⟩ := write_ok hwrite
    obtain ⟨linear, hlinear, hmemory⟩ := Option.bind_eq_some_iff.1 hmemory
    rw [hlinear]
    exact ⟨linear, memory, rfl, hmemory, hcovers, rfl⟩

theorem Populated.coherent (h : Populated w) (id : Nat) : Coherent w id where
  same hid s hs := by
    obtain ⟨m, hm⟩ := Option.isSome_iff_exists.1 hid
    exact ⟨_, h.seen hm hs (Array.getElem?_eq_getElem (h.linear_lt hm hs))⟩
  code j i s f rest v body memory hi hshares hs hf hmove hv := by
    obtain ⟨m, hm, hlinear⟩ := h.linear_of_shares hi hshares
    refine ⟨_, Wasm.step_ran rest hmove, h.seen hm (hs.trans (.leave s f.inst v)) ?_⟩
    exact Wasm.leave_memory (hf ▸ linearOf?_later hs hlinear) (h.linear_lt hm hs) hv
  write view offset bytes w' hview hwrite := by
    obtain ⟨linear, memory, hlinear, hmemory, hcovers, rfl⟩ := write_run hwrite
    obtain ⟨m, hm⟩ : ∃ m, w.memories[id]? = some m := by
      cases view with
      | memory k =>
        cases hview
        exact (Option.map_eq_some_iff.1 hlinear).imp fun m hm => hm.1
      | «instance» j =>
        obtain ⟨i, hi, -, hshares⟩ := hview
        exact (h.linear_of_shares hi hshares).imp fun m hm => hm.1
    cases (h.view_linear hm hview (.refl _)).symm.trans hlinear
    have hwritten :
        (w.store.setMemory m.linear (memory.store offset.toNat bytes)).memories[m.linear]? =
          some (memory.store offset.toNat bytes) :=
      Array.getElem?_setIfInBounds_self_of_lt (h.linear_lt hm (.refl _))
    have hseen := h.seen hm (.setMemory w.store m.linear _) hwritten
    refine ⟨memory, h.seen hm (.refl _) hmemory, hcovers, hseen, ?_⟩
    intro view' length hview' hlength
    rw [hseen.views view' hview', MemoryView.read, Option.bind_some, hlength,
      Wasm.Memory.read_store_self hcovers]

end

end GuestThreads.World
