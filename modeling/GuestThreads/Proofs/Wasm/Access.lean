import GuestThreads.Proofs.Wasm.Interpreter
import GuestThreads.Proofs.Wasm.Memory

/-!
# Words in shared memory

Instructions that access memory read and write words of the linear memory of their instance. A word
is the same for all instances that share the memory.
-/

namespace GuestThreads.Wasm

namespace Store

/-- The word at an address of a linear memory. -/
def word? (s : Store) (linear address : Nat) : Option UInt32 :=
  (s.memories[linear]?).bind (·.word? address)

/-- The store once a word is written. -/
def setWord (s : Store) (linear address : Nat) (v : UInt32) : Store :=
  { s with memories := s.memories.modify linear (·.store address (Bytes.ofUInt32 v)) }

section

variable {s : Store} {linear linear' address address' : Nat} {v : UInt32}

theorem word?_eq_some (h : s.word? linear address = some v) :
    ∃ memory, s.memories[linear]? = some memory ∧ memory.word? address = some v :=
  Option.bind_eq_some_iff.1 h

theorem word?_setWord_self {old : UInt32} (h : s.word? linear address = some old) (v : UInt32) :
    (s.setWord linear address v).word? linear address = some v := by
  obtain ⟨memory, hmemory, hword⟩ := word?_eq_some h
  have hsize : address + 4 ≤ memory.size := by
    rw [← Memory.word?_isSome_iff, hword]
    rfl
  rw [word?, setWord, Array.getElem?_modify, if_pos rfl, hmemory, Option.map_some, Option.bind_some]
  exact Memory.word?_store_self v hsize

/-- Words that do not overlap with the one that is written stay. -/
theorem word?_setWord_beside
    (h : linear' ≠ linear ∨ address' + 4 ≤ address ∨ address + 4 ≤ address') (v : UInt32) :
    (s.setWord linear address v).word? linear' address' = s.word? linear' address' := by
  rw [word?, word?, setWord, Array.getElem?_modify]
  split
  · rename_i hlinear
    subst hlinear
    cases s.memories[linear]? with
    | none => rfl
    | some memory =>
      rw [Option.map_some, Option.bind_some, Option.bind_some]
      exact Memory.word?_store_beside (h.resolve_left (by simp))
  · rfl

/-- What an instance finds in its memory, and what it leaves there. -/
theorem leave_putWord {inst : Nat} {memory : Memory} (hlinear : s.linearOf? inst = some linear)
    (h : s.memories[linear]? = some memory) (address : Nat) (v : UInt32) :
    s.leave inst ((s.scope inst).putWord memory address v) = s.setWord linear address v := by
  have hinstances : (s.leave inst ((s.scope inst).putWord memory address v)).instances =
      s.instances := by
    rw [leave_instances]
    refine modify_eq_self fun x hx => ?_
    rw [scope, hx]
    rfl
  have hmemories : (s.leave inst ((s.scope inst).putWord memory address v)).memories =
      s.memories.modify linear (·.store address (Bytes.ofUInt32 v)) := by
    rw [leave, hlinear]
    refine Array.ext_getElem? fun i => ?_
    change (s.memories.setIfInBounds linear (memory.store address (Bytes.ofUInt32 v)))[i]? = _
    rw [Array.getElem?_setIfInBounds, Array.getElem?_modify]
    split
    · rename_i hi
      subst hi
      rw [if_pos (Array.getElem?_eq_some_iff.1 h).1, h]
      rfl
    · rfl
  cases s
  exact congrArg₂ (fun memories instances => Store.mk memories instances _) hmemories hinstances

end

end Store

section

variable {s : Store} {f : Frame} {rest : List Frame} {offset : UInt32} {code : List Instr}
  {stack : List UInt64} {base v : UInt64} {linear : Nat} {old : UInt32}

theorem access_of_word (aligned : Bool) (hlinear : s.linearOf? f.inst = some linear)
    {address : Nat} (hword : s.word? linear address = some old)
    (haligned : aligned = true → address % 4 = 0) :
    ∃ memory, s.memories[linear]? = some memory ∧
      access (s.scope f.inst) aligned address = .ok (memory, old) := by
  obtain ⟨memory, hmemory, hword⟩ := Store.word?_eq_some hword
  rw [Memory.word?] at hword
  obtain ⟨n, hn, rfl⟩ := Option.map_eq_some_iff.1 hword
  obtain ⟨x, hx, hx'⟩ := Option.bind_eq_some_iff.1 hlinear
  refine ⟨memory, hmemory, ?_⟩
  have hscope : (s.scope f.inst).memory = some memory := by
    simp [Store.scope, hx, hx', hmemory]
  have hcheck : ¬((aligned && decide (address % 4 ≠ 0)) = true) := by
    simpa using haligned
  simp only [access, hscope, hn, if_neg hcheck]

theorem step_i32Store (hcode : f.code = .i32Store offset :: code)
    (hstack : f.stack = v :: base :: stack) (hlinear : s.linearOf? f.inst = some linear)
    (hword : s.word? linear (effective base offset) = some old) :
    step s (f :: rest) = .running (s.setWord linear (effective base offset) v.toUInt32)
      (f.reach code stack :: rest) := by
  obtain ⟨memory, hmemory, haccess⟩ := access_of_word false hlinear hword (fun h => by cases h)
  have hmove : f.move s = .ran ((s.scope f.inst).putWord memory (effective base offset) v.toUInt32)
      (Activation.goOn f.body stack) := by
    rw [move_instr hcode]
    simp only [runInstr, show Activation.stack f.body = v :: base :: stack from hstack, haccess]
  rw [step_ran rest hmove, Store.leave_putWord hlinear hmemory, goOn_eq hcode]

theorem step_i32AtomicRmwAdd (hcode : f.code = .i32AtomicRmwAdd offset :: code)
    (hstack : f.stack = v :: base :: stack) (hlinear : s.linearOf? f.inst = some linear)
    (hword : s.word? linear (effective base offset) = some old)
    (haligned : effective base offset % 4 = 0) :
    step s (f :: rest) = .running (s.setWord linear (effective base offset) (old + v.toUInt32))
      (f.reach code (old.toUInt64 :: stack) :: rest) := by
  obtain ⟨memory, hmemory, haccess⟩ := access_of_word true hlinear hword fun _ => haligned
  have hmove : f.move s =
      .ran ((s.scope f.inst).putWord memory (effective base offset) (old + v.toUInt32))
        (Activation.goOn f.body (old.toUInt64 :: stack)) := by
    rw [move_instr hcode]
    simp only [runInstr, show Activation.stack f.body = v :: base :: stack from hstack, haccess]
  rw [step_ran rest hmove, Store.leave_putWord hlinear hmemory, goOn_eq hcode]

end

end GuestThreads.Wasm
