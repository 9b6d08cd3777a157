import GuestThreads.Mailbox

/-!
# Exchanges through a mailbox

Any number of parties post to a mailbox, close it or discard it while its pump runs and a reader
receives. An exchange is the mailbox with what is known about the parties, and a schedule is a list
of the pieces that each run without interruption. The operations of a mailbox are schedules
themselves.
-/

namespace GuestThreads.Mailbox

variable {α : Type}

/-- What the pump has taken from the queue and not yet handed over. -/
def Pump.batch : Pump α → List α
  | .checking v rest => v :: rest
  | .offering v rest => v :: rest
  | .delivered rest => rest
  | _ => []

/-- An item was handed over and is not yet accounted for. -/
def Pump.handedOver : Pump α → Bool
  | .delivered _ => true
  | _ => false

@[simp] theorem Pump.batch_next (rest : List α) : (next rest).batch = rest := by
  cases rest <;> rfl

@[simp] theorem Pump.handedOver_next (rest : List α) : (next rest).handedOver = false := by
  cases rest <;> rfl

theorem Pump.next_ne_stopped (rest : List α) : next rest ≠ .stopped := by
  cases rest <;> nofun

/-- A mailbox and the parties around it. -/
structure Exchange (α : Type) where
  box : Mailbox α := {}
  /-- The items that were accepted, in the order of the lock. -/
  accepted : List α := []
  received : List α := []
  /-- How many parties have posted or closed and are about to ring. -/
  ringing : Nat := 0
  /-- How many parties have discarded and are about to tell the pump. -/
  finishing : Nat := 0

/-- What runs without interruption. -/
inductive Action (α : Type) where
  | post (v : α)
  | close
  /-- A party that has posted or closed rings. -/
  | ring
  | discard
  /-- A party that has discarded tells the pump. -/
  | finish
  | pump
  /-- The pump wakes up because of a discard, though someone rang as well. -/
  | notice
  | receive

namespace Exchange

/-- The exchange after an action, if it can take place. -/
def step (x : Exchange α) : Action α → Option (Exchange α)
  | .post v =>
    if x.box.closed then some x
    else some { x with
      box := x.box.enqueue v, accepted := x.accepted ++ [v], ringing := x.ringing + 1 }
  | .close => some { x with box := x.box.markClosed, ringing := x.ringing + 1 }
  | .ring =>
    if 0 < x.ringing then some { x with box := x.box.notify, ringing := x.ringing - 1 } else none
  | .discard => some { x with box := x.box.clear, finishing := x.finishing + 1 }
  | .finish =>
    if 0 < x.finishing then some { x with box := x.box.finish, finishing := x.finishing - 1 }
    else none
  | .pump => x.box.advance.map fun box => { x with box := box }
  | .notice =>
    match x.box.pump, x.box.discarded with
    | .waiting, true => some { x with box := { x.box with pump := .stopped } }
    | _, _ => none
  | .receive => x.box.receive.map fun (v, box) =>
    { x with box := box, received := x.received ++ [v] }

theorem step_post_of_closed {x : Exchange α} (h : x.box.closed = true) (v : α) :
    x.step (.post v) = some x := by
  simp [step, h]

theorem step_post_of_open {x : Exchange α} (h : x.box.closed = false) (v : α) :
    x.step (.post v) = some { x with
      box := { x.box with queue := x.box.queue ++ [v], pending := x.box.pending + 1 }
      accepted := x.accepted ++ [v]
      ringing := x.ringing + 1 } := by
  simp [step, enqueue, h]

theorem step_ring {x : Exchange α} {n : Nat} (h : x.ringing = n + 1) :
    x.step .ring = some { x with box := x.box.notify, ringing := n } := by
  simp [step, h]

/-- The exchange after a schedule. -/
def run : Exchange α → List (Action α) → Option (Exchange α)
  | x, [] => some x
  | x, a :: as => (x.step a).bind (run · as)

theorem run_append (x : Exchange α) (as bs : List (Action α)) :
    x.run (as ++ bs) = (x.run as).bind (run · bs) := by
  induction as generalizing x with
  | nil => rfl
  | cons a as ih =>
    rw [List.cons_append, run, run]
    cases x.step a with
    | none => rfl
    | some y => exact ih y

/-- What every action keeps, with the schedule so far, holds after every schedule. -/
theorem run_invariant {P : List (Action α) → Exchange α → Prop} {p : Action α → Prop}
    (hstep : ∀ {as x a y}, P as x → p a → x.step a = some y → P (as ++ [a]) y)
    {before as : List (Action α)} {x y : Exchange α} (hx : P before x) (has : ∀ a ∈ as, p a)
    (hrun : x.run as = some y) : P (before ++ as) y := by
  induction as generalizing before x with
  | nil =>
    cases hrun
    rwa [List.append_nil]
  | cons a as ih =>
    obtain ⟨z, hz, hrest⟩ := Option.bind_eq_some_iff.1 hrun
    have hnext := ih (hstep hx (has a (by simp)) hz) (fun b hb => has b (by simp [hb])) hrest
    rwa [List.append_assoc] at hnext

/-- The same where nothing is asked of the actions, and the schedule is a whole one. -/
theorem run_induction {P : List (Action α) → Exchange α → Prop}
    (hstep : ∀ {as x a y}, P as x → x.step a = some y → P (as ++ [a]) y)
    {as : List (Action α)} {x y : Exchange α} (hx : P [] x) (hrun : x.run as = some y) : P as y :=
  run_invariant (p := fun _ => True) (fun h _ hy => hstep h hy) hx (fun _ _ => trivial) hrun

end Exchange

/-! ## The pump -/

/-- What the pump does in one step. -/
inductive Moves (m : Mailbox α) : Mailbox α → Prop
  | takes {v : α} {rest : List α} (hpump : m.pump = .taking) (hqueue : m.queue = v :: rest) :
      Moves m { m with queue := [], pump := .checking v rest }
  | sleeps (hpump : m.pump = .taking) (hqueue : m.queue = []) (hclosed : m.closed = false) :
      Moves m { m with pump := .waiting }
  | ends (hpump : m.pump = .taking) (hqueue : m.queue = []) (hclosed : m.closed = true) :
      Moves m { m with pump := .stopped }
  | wakes (hpump : m.pump = .waiting) (hrung : m.rung = true) :
      Moves m { m with rung := false, pump := .taking }
  | offers {v : α} {rest : List α} (hpump : m.pump = .checking v rest)
      (hdiscarded : m.discarded = false) : Moves m { m with pump := .offering v rest }
  | accounts {rest : List α} (hpump : m.pump = .delivered rest) :
      Moves m { m with pending := m.pending - 1, pump := .next rest }
  | quits (hdiscarded : m.discarded = true) (hpump : m.pump.handedOver = false) :
      Moves m { m with pump := .stopped }

theorem advance_moves {m m' : Mailbox α} (h : m.advance = some m') : Moves m m' := by
  obtain ⟨queue, pending, closed, rung, discarded, pump⟩ := m
  cases pump with
  | taking =>
    cases queue with
    | cons v rest =>
      cases h
      exact .takes rfl rfl
    | nil =>
      cases closed with
      | true =>
        cases h
        exact .ends rfl rfl rfl
      | false =>
        cases h
        exact .sleeps rfl rfl rfl
  | waiting =>
    cases rung with
    | true =>
      cases h
      exact .wakes rfl rfl
    | false =>
      cases discarded <;> cases h
      exact .quits rfl rfl
  | checking v rest =>
    cases discarded with
    | true =>
      cases h
      exact .quits rfl rfl
    | false =>
      cases h
      exact .offers rfl rfl
  | offering v rest =>
    cases discarded <;> cases h
    exact .quits rfl rfl
  | delivered rest =>
    cases h
    exact .accounts rfl
  | stopped => cases h

theorem receive_eq_some {m m' : Mailbox α} {v : α} (h : m.receive = some (v, m')) :
    ∃ rest, m.pump = .offering v rest ∧ m' = { m with pump := .delivered rest } := by
  unfold receive at h
  split at h
  · cases h
    exact ⟨_, ‹_›, rfl⟩
  · cases h

/-! ## Actions -/

namespace Exchange

/-- What an action does, and where it can take place. -/
inductive Takes (x : Exchange α) : Action α → Exchange α → Prop
  | drops {v : α} (hclosed : x.box.closed = true) : Takes x (.post v) x
  | accepts {v : α} (hopen : x.box.closed = false) : Takes x (.post v) { x with
      box := { x.box with queue := x.box.queue ++ [v], pending := x.box.pending + 1 }
      accepted := x.accepted ++ [v]
      ringing := x.ringing + 1 }
  | closes : Takes x .close { x with box := x.box.markClosed, ringing := x.ringing + 1 }
  | rings (hringing : 0 < x.ringing) :
      Takes x .ring { x with box := x.box.notify, ringing := x.ringing - 1 }
  | clears : Takes x .discard { x with box := x.box.clear, finishing := x.finishing + 1 }
  | finishes (hfinishing : 0 < x.finishing) :
      Takes x .finish { x with box := x.box.finish, finishing := x.finishing - 1 }
  | moves {box : Mailbox α} (hbox : Moves x.box box) : Takes x .pump { x with box := box }
  | notices (hpump : x.box.pump = .waiting) (hdiscarded : x.box.discarded = true) :
      Takes x .notice { x with box := { x.box with pump := .stopped } }
  | hands {v : α} {rest : List α} (hpump : x.box.pump = .offering v rest) :
    Takes x .receive { x with
      box := { x.box with pump := .delivered rest }, received := x.received ++ [v] }

theorem takes_of_step {x y : Exchange α} {a : Action α} (h : x.step a = some y) : Takes x a y := by
  cases a with
  | post v =>
    cases hclosed : x.box.closed with
    | true =>
      cases (step_post_of_closed hclosed v).symm.trans h
      exact .drops hclosed
    | false =>
      cases (step_post_of_open hclosed v).symm.trans h
      exact .accepts hclosed
  | close =>
    cases h
    exact .closes
  | ring =>
    rw [step] at h
    split at h <;> cases h
    exact .rings ‹_›
  | discard =>
    cases h
    exact .clears
  | finish =>
    rw [step] at h
    split at h <;> cases h
    exact .finishes ‹_›
  | pump =>
    obtain ⟨box, hadvance, rfl⟩ := Option.map_eq_some_iff.1 h
    exact .moves (advance_moves hadvance)
  | notice =>
    simp only [step] at h
    split at h <;> cases h
    exact .notices ‹_› ‹_›
  | receive =>
    obtain ⟨⟨v, box⟩, hreceive, rfl⟩ := Option.map_eq_some_iff.1 h
    obtain ⟨rest, hpump, rfl⟩ := receive_eq_some hreceive
    exact .hands hpump

end Exchange

/-! ## Operations -/

namespace Exchange

/-- A party hands in an item, and the pump runs until it waits. -/
def post (x : Exchange α) (v : α) : Exchange α :=
  { x with
    box := x.box.post v
    accepted := if x.box.closed then x.accepted else x.accepted ++ [v] }

def close (x : Exchange α) : Exchange α := { x with box := x.box.close }

/-- The reader takes the next item, if one is there. -/
def recv (x : Exchange α) : Exchange α :=
  let (r, box) := x.box.recv
  { x with
    box := box
    received := match r with
      | .item v => x.received ++ [v]
      | _ => x.received }

/-- Some schedule without a discard leads from one exchange to the other. -/
def Leads (x y : Exchange α) : Prop := ∃ as, (∀ a ∈ as, a ≠ Action.discard) ∧ x.run as = some y

theorem Leads.refl (x : Exchange α) : x.Leads x := ⟨[], by simp, rfl⟩

theorem Leads.trans {x y z : Exchange α} (hxy : x.Leads y) (hyz : y.Leads z) : x.Leads z := by
  obtain ⟨as, has, hy⟩ := hxy
  obtain ⟨bs, hbs, hz⟩ := hyz
  refine ⟨as ++ bs, ?_, ?_⟩
  · intro a ha
    exact (List.mem_append.1 ha).elim (has a) (hbs a)
  · rw [run_append, hy]
    exact hz

theorem Leads.step {x y : Exchange α} {a : Action α} (h : x.step a = some y) (ha : a ≠ .discard) :
    x.Leads y := by
  refine ⟨[a], by simpa using ha, ?_⟩
  rw [run, h]
  rfl

theorem leads_run (x : Exchange α) (steps : Nat) : x.Leads { x with box := x.box.run steps } := by
  induction steps generalizing x with
  | zero => exact .refl x
  | succ steps ih =>
    rw [Mailbox.run]
    cases hadvance : x.box.advance with
    | none => exact .refl x
    | some box =>
      have hpump : x.step .pump = some { x with box := box } := by rw [step, hadvance]; rfl
      exact (Leads.step hpump nofun).trans (ih { x with box := box })

theorem leads_post (x : Exchange α) (v : α) : x.Leads (x.post v) := by
  unfold post Mailbox.post
  cases hclosed : x.box.closed with
  | true => exact .refl x
  | false =>
    have henqueue : x.box.enqueue v =
        { x.box with queue := x.box.queue ++ [v], pending := x.box.pending + 1 } := by
      simp [enqueue, hclosed]
    rw [henqueue]
    exact (Leads.step (step_post_of_open hclosed v) nofun).trans
      ((Leads.step (step_ring rfl) nofun).trans (leads_run _ 6))

theorem leads_close (x : Exchange α) : x.Leads x.close := by
  have hclose : x.step .close = some { x with box := x.box.markClosed, ringing := x.ringing + 1 } :=
    rfl
  exact (Leads.step hclose nofun).trans ((Leads.step (step_ring rfl) nofun).trans (leads_run _ 6))

theorem leads_recv (x : Exchange α) : x.Leads x.recv := by
  have hsettle := leads_run x 6
  unfold recv Mailbox.recv settle
  cases hreceive : (x.box.run 6).receive with
  | none =>
    simp only [hreceive]
    cases (x.box.run 6).pump <;> exact hsettle
  | some taken =>
    obtain ⟨v, box⟩ := taken
    simp only [hreceive]
    have htake : ({ x with box := x.box.run 6 } : Exchange α).step .receive =
        some { x with box := box, received := x.received ++ [v] } := by
      rw [step, hreceive]
      rfl
    exact hsettle.trans ((Leads.step htake nofun).trans (leads_run _ 6))

def discard (x : Exchange α) : Exchange α := { x with box := x.box.discard }

/-- Some schedule leads from one exchange to the other. -/
def Reaches (x y : Exchange α) : Prop := ∃ as, x.run as = some y

theorem Leads.reaches {x y : Exchange α} (h : x.Leads y) : x.Reaches y :=
  let ⟨as, _, hrun⟩ := h
  ⟨as, hrun⟩

theorem reaches_discard (x : Exchange α) : x.Reaches x.discard := by
  let cleared : Exchange α := { x with box := x.box.clear.finish }
  obtain ⟨as, -, hrun⟩ := leads_run cleared 6
  refine ⟨.discard :: .finish :: as, ?_⟩
  have hfinish : ({ x with box := x.box.clear, finishing := x.finishing + 1 } : Exchange α).step
      .finish = some cleared := by
    simp [step, cleared]
  rw [run, step, Option.bind_some, run, hfinish]
  exact hrun

end Exchange

end GuestThreads.Mailbox
