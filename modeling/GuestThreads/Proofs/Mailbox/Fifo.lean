import GuestThreads.Proofs.Mailbox.Exchange

/-!
# Mailboxes are lossless and in order

As long as no one discards, what was accepted is what was received, followed by what the pump holds
and by what is queued, after every schedule. The counter of pending items says how many these are,
but for an item that was just handed over.
-/

namespace GuestThreads.Mailbox

variable {α : Type}

/-- An action that stops the mailbox from accepting. -/
def Action.closes : Action α → Bool
  | .close => true
  | .discard => true
  | _ => false

/-- The items posted before the mailbox stops accepting. -/
def offered : List (Action α) → List α
  | [] => []
  | .post v :: as => v :: offered as
  | .close :: _ => []
  | .discard :: _ => []
  | _ :: as => offered as

theorem offered_append (as bs : List (Action α)) :
    offered (as ++ bs) = offered as ++ if as.any Action.closes then [] else offered bs := by
  induction as with
  | nil => rfl
  | cons a as ih =>
    cases a with
    | post v => exact congrArg (v :: ·) ih
    | close | discard => rfl
    | ring | finish | pump | notice | receive => exact ih

/-- No item is lost, and the counter says how many there are. -/
structure Balanced (x : Exchange α) : Prop where
  contents : x.accepted = x.received ++ x.box.pump.batch ++ x.box.queue
  pending : x.box.pending =
    x.box.pump.batch.length + x.box.queue.length + x.box.pump.handedOver.toNat
  ended : x.box.pump = .stopped → x.box.closed = true ∧ x.box.queue = []
  undiscarded : x.box.discarded = false
  finishing : x.finishing = 0

namespace Balanced

variable {x y : Exchange α}

theorem post (h : Balanced x) {v : α} (hy : x.step (.post v) = some y) : Balanced y := by
  cases hclosed : x.box.closed with
  | true =>
    cases (Exchange.step_post_of_closed hclosed v).symm.trans hy
    exact h
  | false =>
    cases (Exchange.step_post_of_open hclosed v).symm.trans hy
    refine ⟨?_, ?_, ?_, h.undiscarded, h.finishing⟩
    · simp [h.contents]
    · simp [h.pending]
      omega
    · intro hstopped
      cases hclosed.symm.trans (h.ended hstopped).1

theorem enqueue (h : Balanced x) (hopen : x.box.closed = false) (v : α) :
    Balanced { x with box := x.box.enqueue v, accepted := x.accepted ++ [v] } := by
  have hpost := h.post (Exchange.step_post_of_open hopen v)
  have henqueue : x.box.enqueue v =
      { x.box with queue := x.box.queue ++ [v], pending := x.box.pending + 1 } := by
    simp [Mailbox.enqueue, hopen]
  rw [henqueue]
  exact { hpost with }

/-- A step of the pump moves items between its batch and the queue, and keeps their order. -/
theorem pump (h : Balanced x) {box : Mailbox α} (hbox : Moves x.box box) :
    Balanced { x with box := box } := by
  obtain ⟨hcontents, hpending, hended, hundiscarded, hfinishing⟩ := h
  cases hbox with
  | takes hpump hqueue =>
    rw [hpump, hqueue] at hcontents hpending
    exact ⟨by simpa [Pump.batch] using hcontents,
      by simpa [Pump.batch, Pump.handedOver] using hpending, nofun, hundiscarded, hfinishing⟩
  | sleeps hpump hqueue hclosed =>
    rw [hpump] at hcontents hpending
    exact ⟨hcontents, hpending, nofun, hundiscarded, hfinishing⟩
  | ends hpump hqueue hclosed =>
    rw [hpump] at hcontents hpending
    exact ⟨hcontents, hpending, fun _ => ⟨hclosed, hqueue⟩, hundiscarded, hfinishing⟩
  | wakes hpump hrung =>
    rw [hpump] at hcontents hpending
    exact ⟨hcontents, hpending, nofun, hundiscarded, hfinishing⟩
  | offers hpump hdiscarded =>
    rw [hpump] at hcontents hpending
    exact ⟨hcontents, hpending, nofun, hundiscarded, hfinishing⟩
  | @accounts rest hpump =>
    rw [hpump] at hcontents hpending
    change x.accepted = x.received ++ rest ++ x.box.queue at hcontents
    change x.box.pending = rest.length + x.box.queue.length + 1 at hpending
    exact ⟨by simpa using hcontents, by simp [hpending],
      fun hstopped => absurd hstopped (Pump.next_ne_stopped rest), hundiscarded, hfinishing⟩
  | quits hdiscarded hpump => cases hdiscarded.symm.trans hundiscarded

/-- A hand-over moves the first item of the batch to the reader. -/
theorem receive (h : Balanced x) (hy : x.step .receive = some y) : Balanced y := by
  obtain ⟨⟨v, box⟩, hreceive, rfl⟩ := Option.map_eq_some_iff.1 hy
  obtain ⟨rest, hpump, rfl⟩ := receive_eq_some hreceive
  obtain ⟨hcontents, hpending, hended, hundiscarded, hfinishing⟩ := h
  rw [hpump] at hcontents hpending
  refine ⟨by simpa [Pump.batch] using hcontents, ?_, nofun, hundiscarded, hfinishing⟩
  simp only [Pump.batch, Pump.handedOver, List.length_cons] at hpending ⊢
  simp only [hpending, Bool.toNat_true, Bool.toNat_false]
  omega

theorem step (h : Balanced x) {a : Action α} (ha : a ≠ .discard) (hy : x.step a = some y) :
    Balanced y := by
  cases a with
  | post v => exact h.post hy
  | close =>
    cases hy
    exact { h with ended := fun hstopped => ⟨rfl, (h.ended hstopped).2⟩ }
  | ring =>
    rw [Exchange.step] at hy
    split at hy <;> cases hy
    exact { h with }
  | discard => exact absurd rfl ha
  | finish =>
    rw [Exchange.step, h.finishing] at hy
    cases hy
  | pump =>
    obtain ⟨box, hadvance, rfl⟩ := Option.map_eq_some_iff.1 hy
    exact h.pump (advance_moves hadvance)
  | notice =>
    simp only [Exchange.step, h.undiscarded] at hy
    split at hy <;> cases hy
    cases ‹false = true›
  | receive => exact h.receive hy

end Balanced

/-- The mailbox has accepted what the schedule offered it, and closed with it. -/
structure Faithful (as : List (Action α)) (x : Exchange α) : Prop where
  accepted : x.accepted = offered as
  closed : x.box.closed = as.any Action.closes

namespace Faithful

variable {as : List (Action α)} {x y : Exchange α}

/-- An action that neither posts nor closes. -/
theorem extend (h : Faithful as x) {a : Action α} (hcloses : a.closes = false)
    (hoffered : offered [a] = []) (haccepted : y.accepted = x.accepted)
    (hclosed : y.box.closed = x.box.closed) : Faithful (as ++ [a]) y where
  accepted := by
    rw [haccepted, h.accepted, offered_append, hoffered, ite_self, List.append_nil]
  closed := by
    rw [hclosed, h.closed, List.any_append]
    simp [hcloses]

theorem post (h : Faithful as x) {v : α} (hy : x.step (.post v) = some y) :
    Faithful (as ++ [.post v]) y := by
  have hany : x.box.closed = (as ++ [Action.post v]).any Action.closes := by
    simp [h.closed, Action.closes]
  cases hclosed : x.box.closed with
  | true =>
    cases (Exchange.step_post_of_closed hclosed v).symm.trans hy
    refine ⟨?_, hany⟩
    rw [offered_append, ← h.closed, hclosed, if_pos rfl, List.append_nil]
    exact h.accepted
  | false =>
    cases (Exchange.step_post_of_open hclosed v).symm.trans hy
    refine ⟨?_, hany⟩
    rw [offered_append, ← h.closed, hclosed]
    exact congrArg (· ++ [v]) h.accepted

theorem step (h : Faithful as x) {a : Action α} (ha : a ≠ .discard) (hy : x.step a = some y) :
    Faithful (as ++ [a]) y := by
  cases a with
  | post v => exact h.post hy
  | close =>
    cases hy
    refine ⟨?_, ?_⟩
    · simp [offered_append, offered, h.accepted]
    · simp [Action.closes, markClosed]
  | discard => exact absurd rfl ha
  | ring | finish =>
    rw [Exchange.step] at hy
    split at hy <;> cases hy
    exact h.extend rfl rfl rfl rfl
  | pump =>
    obtain ⟨box, hadvance, rfl⟩ := Option.map_eq_some_iff.1 hy
    have hclosed : box.closed = x.box.closed := by cases advance_moves hadvance <;> rfl
    exact h.extend rfl rfl rfl hclosed
  | notice =>
    simp only [Exchange.step] at hy
    split at hy <;> cases hy
    exact h.extend rfl rfl rfl rfl
  | receive =>
    obtain ⟨⟨v, box⟩, hreceive, rfl⟩ := Option.map_eq_some_iff.1 hy
    obtain ⟨rest, -, rfl⟩ := receive_eq_some hreceive
    exact h.extend rfl rfl rfl rfl

end Faithful

/-- Both hold after every schedule without discards. -/
theorem faithful_and_balanced_of_run {as : List (Action α)} {x : Exchange α}
    (has : ∀ a ∈ as, a ≠ .discard) (hrun : Exchange.run {} as = some x) :
    Faithful as x ∧ Balanced x := by
  have hstart : Faithful [] ({} : Exchange α) ∧ Balanced ({} : Exchange α) :=
    ⟨⟨rfl, rfl⟩, ⟨rfl, rfl, nofun, rfl, rfl⟩⟩
  exact Exchange.run_invariant (P := fun as x => Faithful as x ∧ Balanced x)
    (fun h ha hy => ⟨h.1.step ha hy, h.2.step ha hy⟩) hstart has hrun

/-- What a mailbox promises to those around it. -/
structure Fifo (as : List (Action α)) (x : Exchange α) : Prop where
  accepted : x.accepted = offered as
  contents : x.accepted = x.received ++ x.box.pump.batch ++ x.box.queue
  length : x.box.pending + x.received.length = x.accepted.length + x.box.pump.handedOver.toNat
  /-- The counter is above zero whenever the pump lowers it. -/
  positive : x.box.pump.handedOver = true → 0 < x.box.pending
  /-- Nothing is received that was posted after a close. -/
  late : ∀ before after, as = before ++ .close :: after → x.received <+: offered before
  ended : x.box.pump = .stopped → x.box.closed = true ∧ x.received = x.accepted

/-- Mailboxes are lossless and in order after every schedule without discards, and the operations
are such schedules. -/
theorem exchange_lossless_in_order :
    (∀ (as : List (Action α)) (x : Exchange α), (∀ a ∈ as, a ≠ .discard) →
      Exchange.run {} as = some x → Fifo as x) ∧
    ∀ (x : Exchange α) (v : α), x.Leads (x.post v) ∧ x.Leads x.close ∧ x.Leads x.recv := by
  refine ⟨?_, fun x v => ⟨x.leads_post v, x.leads_close, x.leads_recv⟩⟩
  intro as x has hrun
  obtain ⟨hfaithful, hbalanced⟩ := faithful_and_balanced_of_run has hrun
  have hpending := hbalanced.pending
  refine ⟨hfaithful.accepted, hbalanced.contents, ?_, ?_, ?_, ?_⟩
  · rw [hbalanced.contents]
    simp only [List.length_append]
    omega
  · intro hwindow
    rw [hwindow, Bool.toNat_true] at hpending
    omega
  · rintro before after rfl
    have hoffered : offered (before ++ Action.close :: after) = offered before := by
      simp [offered_append, offered]
    rw [← hoffered, ← hfaithful.accepted, hbalanced.contents, List.append_assoc]
    exact List.prefix_append _ _
  · intro hstopped
    obtain ⟨hclosed, hqueue⟩ := hbalanced.ended hstopped
    refine ⟨hclosed, ?_⟩
    rw [hbalanced.contents, hstopped, hqueue]
    simp [Pump.batch]

/-- Two parties post, one of them closes before the other's second post, and the reader gets both
items. -/
theorem exchange_of_two_parties :
    let as : List (Action Nat) := [.post 1, .pump, .post 2, .close, .post 3, .pump, .ring, .receive,
      .ring, .pump, .pump, .pump, .receive, .pump, .pump]
    ∃ x, Exchange.run {} as = some x ∧ x.box.pump = .stopped ∧ x.received = [1, 2] ∧ Fifo as x := by
  intro as
  have has : ∀ a ∈ as, a ≠ Action.discard := by simp [as]
  exact ⟨_, rfl, rfl, rfl, exchange_lossless_in_order.1 as _ has rfl⟩

end GuestThreads.Mailbox
