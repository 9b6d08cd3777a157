import GuestThreads.Proofs.Mailbox.Exchange

/-!
# The pump misses no call

A party changes the mailbox first and calls the pump afterwards, and the pump looks at the mailbox
first and waits afterwards. A call that comes while the pump is busy is kept for it, and many calls
are kept as one. A pump that waits although there is something to do was called or is about to be
called, after every schedule, discards included.
-/

namespace GuestThreads.Mailbox

variable {α : Type}

/-- What calls the pump, or lets it make a step. -/
def Action.calls : Action α → Bool
  | .ring | .finish | .pump => true
  | _ => false

/-- A pump that waits wakes up from either call. -/
theorem advance_of_called {m : Mailbox α} (hwaiting : m.pump = .waiting)
    (h : m.rung = true ∨ m.discarded = true) :
    ∃ m', m.advance = some m' ∧ m'.pump ≠ .waiting := by
  unfold advance
  rw [hwaiting]
  cases hrung : m.rung with
  | true => exact ⟨_, rfl, nofun⟩
  | false =>
    have hdiscarded : m.discarded = true := by simpa [hrung] using h
    rw [hdiscarded]
    exact ⟨_, rfl, nofun⟩

namespace Exchange

/-- The pump was called, or a party is about to call it. -/
def Summoned (x : Exchange α) : Prop :=
  x.box.rung = true ∨ x.box.discarded = true ∨ 0 < x.ringing ∨ 0 < x.finishing

/-- There is something to do for a pump that waits. -/
def Demanding (x : Exchange α) : Prop := x.box.queue ≠ [] ∨ x.box.closed = true

/-- A pump that waits although there is something to do is summoned. -/
def Attentive (x : Exchange α) : Prop := x.box.pump = .waiting → x.Demanding → x.Summoned

variable {x y : Exchange α}

/-- The pump falls asleep only where there is nothing to do. -/
theorem Attentive.moves {box : Mailbox α} (hbox : Moves x.box box) :
    Attentive { x with box := box } := by
  intro hwaiting hdemanding
  cases hbox with
  | sleeps hpump hqueue hclosed => simp [Demanding, hqueue, hclosed] at hdemanding
  | @accounts rest hpump => cases rest <;> cases hwaiting
  | takes | ends | wakes | offers | quits => cases hwaiting

theorem Attentive.step (h : x.Attentive) {a : Action α} (hy : x.step a = some y) :
    y.Attentive := by
  cases takes_of_step hy with
  | drops => exact h
  | accepts | closes => exact fun _ _ => .inr (.inr (.inl (Nat.succ_pos _)))
  | rings => exact fun _ _ => .inl rfl
  | clears => exact fun _ _ => .inr (.inr (.inr (Nat.succ_pos _)))
  | finishes => exact fun _ _ => .inr (.inl rfl)
  | moves hbox => exact .moves hbox
  | notices | hands => exact fun hwaiting => by cases hwaiting

theorem attentive_of_run {as : List (Action α)} (hrun : Exchange.run {} as = some x) :
    x.Attentive := by
  have hstart : Attentive ({} : Exchange α) := fun hwaiting => by cases hwaiting
  exact run_induction (P := fun _ x => x.Attentive) (fun h hy => h.step hy) hstart hrun

/-! ## Waking up -/

/-- The calls under way, if any, are enough for the pump to wake up. -/
def WakesUp (x : Exchange α) : Prop :=
  ∃ as y, (∀ a ∈ as, a.calls = true) ∧ x.run as = some y ∧ y.box.pump ≠ .waiting

theorem wakesUp_of_called (hwaiting : x.box.pump = .waiting)
    (h : x.box.rung = true ∨ x.box.discarded = true) : x.WakesUp := by
  obtain ⟨box, hadvance, hpump⟩ := advance_of_called hwaiting h
  refine ⟨[.pump], { x with box := box }, by simp [Action.calls], ?_, hpump⟩
  simp [run, step, hadvance]

/-- A call is made, and the pump wakes up from it. -/
theorem WakesUp.of_step {a : Action α} (ha : a.calls = true) (hy : x.step a = some y)
    (h : y.WakesUp) : x.WakesUp := by
  obtain ⟨as, z, has, hz, hpump⟩ := h
  refine ⟨a :: as, z, by simpa [ha] using has, ?_, hpump⟩
  rw [run, hy]
  exact hz

theorem Summoned.wakesUp (h : x.Summoned) (hwaiting : x.box.pump = .waiting) : x.WakesUp := by
  obtain hrung | hdiscarded | hringing | hfinishing := h
  · exact wakesUp_of_called hwaiting (.inl hrung)
  · exact wakesUp_of_called hwaiting (.inr hdiscarded)
  · have hring : x.step .ring = some { x with box := x.box.notify, ringing := x.ringing - 1 } :=
      if_pos hringing
    exact .of_step rfl hring (wakesUp_of_called hwaiting (.inl rfl))
  · have hfinish : x.step .finish =
        some { x with box := x.box.finish, finishing := x.finishing - 1 } := if_pos hfinishing
    exact .of_step rfl hfinish (wakesUp_of_called hwaiting (.inr rfl))

end Exchange

/-- What the calls of a mailbox do for its pump. -/
structure Wakes (x : Exchange α) : Prop where
  /-- Where the pump waits and no call was made or is about to be made, there is nothing to do. -/
  idle : x.box.pump = .waiting → x.box.rung = false → x.box.discarded = false → x.ringing = 0 →
    x.finishing = 0 → x.box.queue = [] ∧ x.box.closed = false
  /-- The pump does not go on waiting if there is something to do. -/
  busy : x.box.pump = .waiting → x.box.queue ≠ [] ∨ x.box.closed = true → x.WakesUp

/-- No call to the pump is lost after any schedule of posts, closes, discards, calls, receives and
steps of the pump, and the operations are such schedules. -/
theorem pump_misses_no_call :
    (∀ (as : List (Action α)) (x : Exchange α), Exchange.run {} as = some x → Wakes x) ∧
    ∀ (x : Exchange α) (v : α),
      x.Reaches (x.post v) ∧ x.Reaches x.close ∧ x.Reaches x.recv ∧ x.Reaches x.discard := by
  refine ⟨?_, fun x v => ⟨(x.leads_post v).reaches, x.leads_close.reaches, x.leads_recv.reaches,
    x.reaches_discard⟩⟩
  intro as x hrun
  have hattentive := Exchange.attentive_of_run hrun
  constructor
  · intro hwaiting hrung hdiscarded hringing hfinishing
    have hidle : ¬x.Demanding := fun hdemanding => by
      simpa [Exchange.Summoned, hrung, hdiscarded, hringing, hfinishing] using
        hattentive hwaiting hdemanding
    simpa [Exchange.Demanding] using hidle
  · intro hwaiting hdemanding
    exact (hattentive hwaiting hdemanding).wakesUp hwaiting

/-- An item is posted while the pump offers another one, whose call the pump finds when the item is
gone already. Then it waits, and the mailbox is closed. -/
theorem pump_misses_no_call_of_two :
    let as : List (Action Nat) := [.pump, .post 1, .ring, .pump, .pump, .pump, .post 2, .ring,
      .receive, .pump, .pump, .pump, .receive, .pump, .pump, .pump, .pump, .close]
    ∃ x, Exchange.run {} as = some x ∧ x.box.pump = .waiting ∧ x.box.closed = true ∧
      x.WakesUp := by
  intro as
  have hwakes := (pump_misses_no_call (α := Nat)).1 as _ rfl
  exact ⟨_, rfl, rfl, rfl, hwakes.busy rfl (.inr rfl)⟩

end GuestThreads.Mailbox
