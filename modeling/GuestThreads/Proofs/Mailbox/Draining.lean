import GuestThreads.Proofs.Mailbox.Fifo

/-!
# Mailboxes can be drained

A pump that was told of the close does not fall asleep any more. Until it stops, either the pump or
the reader can make a step, and each step leaves less to do.
-/

namespace GuestThreads.Mailbox

variable {α : Type}

/-- The mailbox is closed, and its pump knows or is about to hear of it. -/
structure Awake (m : Mailbox α) : Prop where
  closed : m.closed = true
  rung : m.pump = .waiting → m.rung = true

theorem Awake.moves {m m' : Mailbox α} (h : Awake m) (hm : Moves m m') : Awake m' := by
  cases hm with
  | takes | ends | wakes | offers | quits => exact ⟨h.closed, nofun⟩
  | sleeps hpump hqueue hclosed => cases hclosed.symm.trans h.closed
  | @accounts rest hpump => exact ⟨h.closed, by cases rest <;> nofun⟩

theorem Awake.receives {m m' : Mailbox α} {v : α} (h : Awake m) (hm : m.receive = some (v, m')) :
    Awake m' := by
  obtain ⟨rest, -, rfl⟩ := receive_eq_some hm
  exact ⟨h.closed, nofun⟩

end GuestThreads.Mailbox
