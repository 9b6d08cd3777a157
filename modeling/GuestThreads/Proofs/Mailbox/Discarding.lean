import GuestThreads.Proofs.Mailbox.Fifo

/-!
# Discarding a mailbox

Whatever the schedule, the reader gets the accepted items in order, from the first one on. A discard
drops what is queued, and what the pump holds is dropped as well, but for an item that is on offer
when the discard returns. From then on nothing is pending, no item is accepted, and the pump comes
to its end without a reader.
-/

namespace GuestThreads.Mailbox

variable {α : Type}

/-- The channel of the reader is closed. -/
def Pump.ended : Pump α → Bool
  | .stopped => true
  | _ => false

theorem Pump.ended_iff {p : Pump α} : p.ended = true ↔ p = .stopped := by
  cases p <;> simp [ended]

/-- A discard returns. -/
def Action.tells : Action α → Bool
  | .finish => true
  | _ => false

/-! ## In order, discards included -/

/-- The reader has got the first of the accepted items, and the next ones are those that the pump
holds and those in the queue. Once someone has discarded, nothing is queued or pending. -/
structure Sequenced (x : Exchange α) : Prop where
  contents : x.received ++ x.box.pump.batch ++ x.box.queue <+: x.accepted
  whole : x.box.closed = false → x.received ++ x.box.pump.batch ++ x.box.queue = x.accepted
  cleared : 0 < x.finishing ∨ x.box.discarded = true →
    x.box.closed = true ∧ x.box.queue = [] ∧ x.box.pending = 0
  ended : x.box.pump = .stopped → x.box.closed = true

/-- What the pump holds and what is queued stays as it is with a step of the pump, in order, unless
the pump drops it. -/
theorem Moves.held {m m' : Mailbox α} (h : Moves m m')
    (hqueue : m.discarded = true → m.queue = []) :
    m'.pump.batch ++ m'.queue = m.pump.batch ++ m.queue ∨
      m.discarded = true ∧ m'.pump.batch ++ m'.queue = [] := by
  cases h with
  | takes hpump hqueue => simp [hpump, hqueue, Pump.batch]
  | sleeps hpump | ends hpump | wakes hpump | offers hpump => simp [hpump, Pump.batch]
  | accounts hpump => exact .inl (by simp only [Pump.batch_next, hpump]; rfl)
  | quits hdiscarded hpump => exact .inr ⟨hdiscarded, by simp [Pump.batch, hqueue hdiscarded]⟩

theorem Moves.cleared {m m' : Mailbox α} (h : Moves m m') (hqueue : m.queue = [])
    (hpending : m.pending = 0) : m'.queue = [] ∧ m'.pending = 0 := by
  cases h <;> simp_all

/-- The pump ends where the mailbox is closed or discarded. -/
theorem Moves.stops {m m' : Mailbox α} (h : Moves m m') (hm' : m'.pump = .stopped) :
    m.closed = true ∨ m.discarded = true := by
  cases h with
  | takes | sleeps | wakes | offers => cases hm'
  | accounts => exact absurd hm' (Pump.next_ne_stopped _)
  | ends _ _ hclosed => exact .inl hclosed
  | quits hdiscarded => exact .inr hdiscarded

theorem Moves.flags {m m' : Mailbox α} (h : Moves m m') :
    m'.closed = m.closed ∧ m'.discarded = m.discarded := by
  cases h <;> exact ⟨rfl, rfl⟩

/-- A pump that was told of a discard offers nothing anew. -/
theorem Moves.no_offer {m m' : Mailbox α} (h : Moves m m') (hdiscarded : m.discarded = true)
    (v : α) (rest : List α) : m'.pump ≠ .offering v rest := by
  intro hpump
  cases h with
  | takes | sleeps | ends | wakes | quits => cases hpump
  | offers _ hopen => cases hdiscarded.symm.trans hopen
  | @accounts left => cases left <;> cases hpump

namespace Sequenced

variable {x y : Exchange α}

theorem pump (h : Sequenced x) {box : Mailbox α} (hbox : Moves x.box box) :
    Sequenced { x with box := box } := by
  obtain ⟨hclosed, hdiscarded⟩ := hbox.flags
  have hcleared : 0 < x.finishing ∨ box.discarded = true →
      box.closed = true ∧ box.queue = [] ∧ box.pending = 0 := by
    rw [hclosed, hdiscarded]
    intro hdiscard
    obtain ⟨hx, hqueue, hpending⟩ := h.cleared hdiscard
    exact ⟨hx, hbox.cleared hqueue hpending⟩
  have hended (hstopped : box.pump = .stopped) : box.closed = true := by
    rw [hclosed]
    exact (hbox.stops hstopped).elim id fun hdiscard => (h.cleared (.inr hdiscard)).1
  obtain hheld | ⟨hdiscard, hheld⟩ := hbox.held fun hdiscard => (h.cleared (.inr hdiscard)).2.1
  · have hsame : x.received ++ box.pump.batch ++ box.queue =
        x.received ++ x.box.pump.batch ++ x.box.queue := by
      rw [List.append_assoc, hheld, List.append_assoc]
    exact ⟨hsame ▸ h.contents, fun hopen => hsame.trans (h.whole (hclosed.symm.trans hopen)),
      hcleared, hended⟩
  · have hcontents : x.received ++ box.pump.batch ++ box.queue <+: x.accepted := by
      rw [List.append_assoc, hheld, List.append_nil]
      refine List.IsPrefix.trans ?_ h.contents
      simp
    refine ⟨hcontents, fun hopen => ?_, hcleared, hended⟩
    cases hopen.symm.trans (hclosed.trans (h.cleared (.inr hdiscard)).1)

theorem step (h : Sequenced x) {a : Action α} (hy : x.step a = some y) : Sequenced y := by
  cases Exchange.takes_of_step hy with
  | drops => exact h
  | @accepts v hopen =>
    have hwhole : x.received ++ x.box.pump.batch ++ (x.box.queue ++ [v]) = x.accepted ++ [v] := by
      rw [← h.whole hopen, List.append_assoc _ _ [v]]
    refine ⟨hwhole ▸ List.prefix_rfl, fun _ => hwhole, fun hdiscard => ?_, h.ended⟩
    cases hopen.symm.trans (h.cleared hdiscard).1
  | closes =>
    refine ⟨h.contents, ?_, fun hdiscard => ⟨rfl, (h.cleared hdiscard).2⟩, fun _ => rfl⟩
    intro hopen
    cases hopen
  | rings => exact { h with }
  | clears =>
    refine ⟨List.IsPrefix.trans ?_ h.contents, ?_, fun _ => ⟨rfl, rfl, rfl⟩, fun _ => rfl⟩
    · simp [clear]
    · intro hopen
      cases hopen
  | finishes hfinishing => exact { h with cleared := fun _ => h.cleared (.inl hfinishing) }
  | moves hbox => exact h.pump hbox
  | notices hpump hdiscarded => exact h.pump (.quits hdiscarded (by rw [hpump]; rfl))
  | @hands v rest hpump =>
    have hsame : x.received ++ [v] ++ rest ++ x.box.queue =
        x.received ++ x.box.pump.batch ++ x.box.queue := by
      simp [hpump, Pump.batch]
    refine ⟨hsame ▸ h.contents, fun hopen => hsame.trans (h.whole hopen), h.cleared, ?_⟩
    intro hended
    cases hended

end Sequenced

theorem Faithful.discard {as : List (Action α)} {x : Exchange α} (h : Faithful as x) (n : Nat) :
    Faithful (as ++ [.discard]) { x with box := x.box.clear, finishing := n } where
  accepted := by simp [offered_append, offered, h.accepted]
  closed := by simp [Action.closes, clear]

/-- Both hold after every schedule. -/
theorem faithful_and_sequenced_of_run {as : List (Action α)} {x : Exchange α}
    (hrun : Exchange.run {} as = some x) : Faithful as x ∧ Sequenced x := by
  have hstart : Faithful [] ({} : Exchange α) ∧ Sequenced ({} : Exchange α) :=
    ⟨⟨rfl, rfl⟩, ⟨List.prefix_rfl, fun _ => rfl, by simp, nofun⟩⟩
  refine Exchange.run_induction (P := fun as x => Faithful as x ∧ Sequenced x)
    (fun {as x a y} h hy => ⟨?_, h.2.step hy⟩) hstart hrun
  by_cases ha : a = .discard
  · subst ha
    cases hy
    exact h.1.discard _
  · exact h.1.step ha hy

/-! ## Once only -/

namespace Exchange

/-- How often a condition comes to hold along a schedule. -/
def rises (p : Exchange α → Bool) : Exchange α → List (Action α) → Nat
  | _, [] => 0
  | x, a :: as => ((x.step a).map fun y => (!p x && p y).toNat + rises p y as).getD 0

/-- A condition that lasts comes to hold once, unless it holds from the beginning. -/
theorem rises_of_lasting {p : Exchange α → Bool}
    (hp : ∀ {x a y}, p x = true → x.step a = some y → p y = true) {as : List (Action α)}
    {x y : Exchange α} (hrun : x.run as = some y) : (p x).toNat + x.rises p as = (p y).toNat := by
  induction as generalizing x with
  | nil =>
    cases hrun
    rfl
  | cons a as ih =>
    obtain ⟨z, hz, hrest⟩ := Option.bind_eq_some_iff.1 hrun
    have hih := ih hrest
    rw [rises, hz]
    cases hx : p x with
    | true => simp [hp hx hz] at hih ⊢; omega
    | false => simp at hih ⊢; omega

variable {x y : Exchange α} {a : Action α}

theorem discarded_lasts (hx : x.box.discarded = true) (hy : x.step a = some y) :
    y.box.discarded = true := by
  cases takes_of_step hy with
  | moves hbox => exact hbox.flags.2.trans hx
  | finishes => rfl
  | drops | accepts | closes | rings | clears | notices | hands => exact hx

theorem ended_lasts (hx : x.box.pump.ended = true) (hy : x.step a = some y) :
    y.box.pump.ended = true := by
  have hstopped := Pump.ended_iff.1 hx
  cases takes_of_step hy with
  | moves hbox =>
    cases hbox with
    | quits => rfl
    | takes hpump | sleeps hpump | ends hpump | wakes hpump | offers hpump | accounts hpump =>
      cases hpump.symm.trans hstopped
  | notices => rfl
  | hands hpump => cases hpump.symm.trans hstopped
  | drops | accepts | closes | rings | clears | finishes => exact hx

/-! ## After a discard -/

/-- The pump was told if a discard has returned. -/
theorem discarded_of_run {as : List (Action α)} (hrun : Exchange.run {} as = some x) :
    x.box.discarded = as.any Action.tells := by
  refine run_induction (P := fun as x => x.box.discarded = as.any Action.tells)
    (fun {as x a y} h hy => ?_) rfl hrun
  rw [List.any_append, ← h]
  cases takes_of_step hy with
  | moves hbox => simp [Action.tells, hbox.flags.2]
  | finishes => simp [Action.tells, finish]
  | drops | accepts | closes | rings | clears | notices | hands =>
    simp [Action.tells, markClosed, notify, clear]

/-- What has become of an exchange `x` in which a discard had returned: nothing is accepted any
more, and of the items that the pump held only one that was on offer can get through. -/
structure Winding (x y : Exchange α) : Prop where
  discarded : y.box.discarded = true
  accepted : y.accepted = x.accepted
  received : y.received = x.received ∧
      (∀ v rest, y.box.pump = .offering v rest → x.box.pump = .offering v rest) ∨
    ∃ v rest, x.box.pump = .offering v rest ∧ y.received = x.received ++ [v] ∧
      ∀ v rest, y.box.pump ≠ .offering v rest

theorem Winding.step {z : Exchange α} (h : Winding x y) (hclosed : y.box.closed = true)
    (hz : y.step a = some z) : Winding x z := by
  obtain ⟨hdiscarded, haccepted, hreceived⟩ := h
  have hlasts := discarded_lasts hdiscarded hz
  -- Where the reader has got nothing and the pump offers nothing, nothing gets through any more.
  have hpassed {p : Pump α} (hp : ∀ v rest, p ≠ .offering v rest) :
      y.received = x.received ∧ (∀ v rest, p = .offering v rest → x.box.pump = .offering v rest) ∨
        ∃ v rest, x.box.pump = .offering v rest ∧ y.received = x.received ++ [v] ∧
          ∀ v rest, p ≠ .offering v rest := by
    obtain ⟨hsame, -⟩ | ⟨v, rest, hpump, hlast, -⟩ := hreceived
    · exact .inl ⟨hsame, fun v rest hoffer => absurd hoffer (hp v rest)⟩
    · exact .inr ⟨v, rest, hpump, hlast, hp⟩
  cases takes_of_step hz with
  | drops => exact ⟨hlasts, haccepted, hreceived⟩
  | accepts hopen => cases hclosed.symm.trans hopen
  | closes | rings | clears | finishes => exact ⟨hlasts, haccepted, hreceived⟩
  | moves hbox => exact ⟨hlasts, haccepted, hpassed (hbox.no_offer hdiscarded)⟩
  | notices => exact ⟨hlasts, haccepted, hpassed nofun⟩
  | @hands v rest hpump =>
    refine ⟨hlasts, haccepted, .inr ?_⟩
    obtain ⟨hsame, hoffered⟩ | ⟨_, _, _, _, hnone⟩ := hreceived
    · exact ⟨v, rest, hoffered v rest hpump, by rw [hsame], nofun⟩
    · exact absurd hpump (hnone v rest)

/-- What holds in every later state, from a state on in which a discard had returned. -/
theorem winding_of_run {z : Exchange α} {as : List (Action α)} (hx : Sequenced x)
    (hdiscarded : x.box.discarded = true) (hrun : x.run as = some z) :
    Winding x z ∧ Sequenced z := by
  have hstart : Winding x x ∧ Sequenced x := ⟨⟨hdiscarded, rfl, .inl ⟨rfl, fun _ _ => id⟩⟩, hx⟩
  exact run_induction (P := fun _ y => Winding x y ∧ Sequenced y)
    (fun h hy => ⟨h.1.step (h.2.cleared (.inr h.1.discarded)).1 hy, h.2.step hy⟩) hstart hrun

end Exchange

/-- A pump that was told of a discard comes to its end by itself, if the mailbox is closed and
nothing is queued. -/
theorem settle_ends {m : Mailbox α} (hdiscarded : m.discarded = true) (hclosed : m.closed = true)
    (hqueue : m.queue = []) : m.settle.pump = .stopped := by
  obtain ⟨queue, pending, closed, rung, discarded, pump⟩ := m
  cases hdiscarded
  cases hclosed
  cases hqueue
  cases pump with
  | waiting => cases rung <;> rfl
  | delivered rest => cases rest <;> rfl
  | taking | checking | offering | stopped => rfl

/-- What is left of an exchange `x` in which a discard had returned, in a later state `y`. -/
structure Dropped (x y : Exchange α) : Prop where
  pending : y.box.pending = 0
  /-- No post is accepted. -/
  accepted : y.accepted = x.accepted
  /-- At most one item is received, which was on offer and is the next one in order. -/
  received : y.received = x.received ∨ ∃ v rest, x.box.pump = .offering v rest ∧
    x.accepted[x.received.length]? = some v ∧ y.received = x.received ++ [v]
  /-- The pump comes to its end without a reader. -/
  ends : y.box.settle.pump = .stopped

/-- What an exchange promises after every schedule, discards included. -/
structure Orderly (as : List (Action α)) (x : Exchange α) : Prop where
  accepted : x.accepted = offered as
  received : x.received <+: x.accepted
  ended : x.box.pump = .stopped → x.box.closed = true
  /-- The channel of the reader is closed when the pump ends, once. -/
  endsOnce : Exchange.rises (·.box.pump.ended) {} as = x.box.pump.ended.toNat
  /-- The pump is told of a discard once, however often a discard returns. -/
  toldOnce : Exchange.rises (·.box.discarded) {} as = (as.any Action.tells).toNat

theorem orderly_of_run {as : List (Action α)} {x : Exchange α}
    (hrun : Exchange.run {} as = some x) : Orderly as x := by
  obtain ⟨hfaithful, hsequenced⟩ := faithful_and_sequenced_of_run hrun
  have hreceived : x.received <+: x.accepted := by
    refine List.IsPrefix.trans ?_ hsequenced.contents
    simp
  have hends := Exchange.rises_of_lasting (p := (·.box.pump.ended)) Exchange.ended_lasts hrun
  have htold := Exchange.rises_of_lasting (p := (·.box.discarded)) Exchange.discarded_lasts hrun
  rw [Exchange.discarded_of_run hrun] at htold
  exact ⟨hfaithful.accepted, hreceived, hsequenced.ended, by simpa [Pump.ended] using hends,
    by simpa using htold⟩

theorem dropped_of_run {before after : List (Action α)} {x y : Exchange α}
    (hx : Exchange.run {} (before ++ [.finish]) = some x) (hy : x.run after = some y) :
    Dropped x y := by
  have hdiscarded : x.box.discarded = true := by simp [Exchange.discarded_of_run hx, Action.tells]
  have hsequenced := (faithful_and_sequenced_of_run hx).2
  obtain ⟨hwinding, hlater⟩ := Exchange.winding_of_run hsequenced hdiscarded hy
  obtain ⟨hclosed, hqueue, hpending⟩ := hlater.cleared (.inr hwinding.discarded)
  refine ⟨hpending, hwinding.accepted, ?_, settle_ends hwinding.discarded hclosed hqueue⟩
  obtain ⟨hsame, -⟩ | ⟨v, rest, hpump, hlast, -⟩ := hwinding.received
  · exact .inl hsame
  · refine .inr ⟨v, rest, hpump, ?_, hlast⟩
    obtain ⟨dropped, haccepted⟩ := hsequenced.contents
    rw [← haccepted, hpump]
    simp [Pump.batch]

/-- A discard drops all items but one at most, whatever the schedule before and after its return,
and the reader gets the accepted items in order. The operation is such a schedule. -/
theorem discard_drops_all_but_one :
    (∀ (before after : List (Action α)) (x y : Exchange α),
      Exchange.run {} (before ++ [.finish]) = some x → x.run after = some y → Dropped x y) ∧
    (∀ (as : List (Action α)) (x : Exchange α), Exchange.run {} as = some x → Orderly as x) ∧
    ∀ x : Exchange α, x.Reaches x.discard ∧ x.discard.box.pump = .stopped :=
  ⟨fun _ _ _ _ => dropped_of_run, fun _ _ => orderly_of_run, fun x =>
    ⟨x.reaches_discard, settle_ends rfl rfl rfl⟩⟩

/-- Two parties discard while the pump offers the first of two items of its batch and a third item
is queued. The reader takes the item on offer after the first discard has returned, and a late post
is dropped. -/
theorem discard_of_two_parties :
    let before : List (Action Nat) :=
      [.post 1, .post 2, .pump, .pump, .ring, .post 3, .discard, .discard]
    let after : List (Action Nat) := [.receive, .post 4, .finish, .pump, .pump]
    ∃ x y, Exchange.run {} (before ++ [.finish]) = some x ∧ x.run after = some y ∧
      x.accepted = [1, 2, 3] ∧ x.received = [] ∧ y.received = [1] ∧ y.box.pump = .stopped ∧
      Dropped x y ∧ Orderly (before ++ [.finish]) x := by
  intro before after
  exact ⟨_, _, rfl, rfl, rfl, rfl, rfl, rfl, discard_drops_all_but_one.1 before after _ _ rfl rfl,
    discard_drops_all_but_one.2.1 _ _ rfl⟩

end GuestThreads.Mailbox
