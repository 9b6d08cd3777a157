import GuestThreads.Proofs.Mailbox.Draining
import GuestThreads.Proofs.World.Traffic
import GuestThreads.Wasm.Assembly

/-!
# Signals from end to end

When the parties around a module are done the module is closed, and the reader goes on until the
stream ends. What was received by then is what the code of the threads posted, each signal once and
on behalf of its own thread.
-/

namespace GuestThreads.World

open Mailbox (Awake)

/-- What the stream is like when the closing of the module has come this far. -/
def Stage.Holds (box : Mailbox ThreadSignal) : Stage → Prop
  | .ended => box.closed = true
  | .rung => Awake box
  | _ => True

namespace Traffic

section

variable {k n : Nat} {ρ : Nat → Nat} {m : LoadedModule} {s : Traffic}

/-! ## The end of the stream -/

/-- The stream accepts signals until the module is closed, and by then the parties are done. -/
inductive Phase (k : Nat) (m : LoadedModule) (s : Traffic) : Prop
  | running (hcloser : s.closer = none) (hmodule : m.closed = false)
      (hopen : m.stream.closed = false)
  | closing {p : Process Unit} {stage : Stage} (hcloser : s.closer = some p)
      (hended : ∀ q ∈ s.parties, q.rest.ended = true)
      (hp : p.Honours (closing k) (fun _ stage _ => stage = .rung) stage s.world)
      (hstage : stage.Holds m.stream)

theorem moduleClosed?_onStream (w : World) (k : Nat)
    (f : Mailbox ThreadSignal → Mailbox ThreadSignal) :
    (w.onStream k f).moduleClosed? k = w.moduleClosed? k := by
  have hmap : (w.onStream k f).modules.map (·.closed) = w.modules.map (·.closed) := by
    dsimp only [World.onStream]
    exact map_modify fun _ => rfl
  rw [moduleClosed?, moduleClosed?, ← Array.getElem?_map, hmap, Array.getElem?_map]

/-- The pump or the reader makes a step. -/
theorem Phase.onStream (h : Phase k m s) {f : Mailbox ThreadSignal → Mailbox ThreadSignal}
    {received : List ThreadSignal} (hclosed : (f m.stream).closed = m.stream.closed)
    (hawake : Awake m.stream → Awake (f m.stream)) :
    Phase k { m with stream := f m.stream }
      { s with world := s.world.onStream k f, received := received } := by
  cases h with
  | running hcloser hmodule hopen => exact .running hcloser hmodule (hclosed.trans hopen)
  | @closing p stage hcloser hended hp hstage =>
    refine .closing hcloser hended (hp.later (moduleClosed?_onStream _ k f)) ?_
    cases stage with
    | entered | shut => trivial
    | ended => exact hclosed.trans hstage
    | rung => exact hawake hstage

/-- What holds of the traffic around module `k` at any time. -/
def Valid (k : Nat) (s : Traffic) : Prop := ∃ ρ m, Sound k ρ m s ∧ Phase k m s

variable {s' : Traffic}

theorem Valid.spawn [Wasm.Machine] (h : Valid k s) {closurePtr : UInt32}
    {ops : List (String × Bridge.Op)} {cancelled heard : Bool}
    (hstep : s.step k (.spawn closurePtr ops cancelled heard) = some s') : Valid k s' := by
  obtain ⟨ρ, m, hsound, hphase⟩ := h
  cases hphase with
  | closing hcloser => simp [step, hcloser] at hstep
  | running hcloser hmodule hopen =>
    obtain ⟨ρ', m', hsound', hstream, hclosed⟩ := hsound.spawn closurePtr ops cancelled heard
    simp only [step, hcloser, Option.isSome_none, Bool.false_eq_true, if_false,
      Option.some.injEq] at hstep
    subst hstep
    refine ⟨ρ', m', hsound', .running ?_ (hclosed.trans hmodule) (hstream ▸ hopen)⟩
    rcases newThread k ops s.world with ⟨_ | _, _⟩ <;> exact hcloser

theorem Valid.use [Wasm.Machine] (h : Valid k s) {i : Nat} {cancelled : Bool}
    {script : Bridge.Script} (hstep : s.step k (.use i cancelled script) = some s') :
    Valid k s' := by
  obtain ⟨ρ, m, hsound, hphase⟩ := h
  cases hphase with
  | closing hcloser => simp [step, hcloser] at hstep
  | running hcloser hmodule hopen =>
    simp only [step, hcloser, Option.isSome_none, Bool.false_eq_true, if_false] at hstep
    obtain ⟨b, hb, rfl⟩ := Option.map_eq_some_iff.1 hstep
    exact ⟨ρ, m, hsound.use hb cancelled script, .running hcloser hmodule hopen⟩

theorem Valid.go [Wasm.Machine] (h : Valid k s) (hstep : s.step k (.go n) = some s') :
    Valid k s' := by
  obtain ⟨ρ, m, hsound, hphase⟩ := h
  obtain ⟨p, hp, hrest⟩ := Option.bind_eq_some_iff.1 hstep
  obtain ⟨⟨event, rest, w⟩, hturn, hs⟩ := Option.bind_eq_some_iff.1 hrest
  cases hs
  cases hphase with
  | closing hcloser hended =>
    cases (going_of_turn hturn).symm.trans (hended p (List.mem_of_getElem? hp))
  | running hcloser hmodule hopen =>
    obtain ⟨m', hsound', hstream, hclosed⟩ := hsound.go hopen hp hturn
    exact ⟨ρ, m', hsound', .running hcloser (hclosed.trans hmodule) (hstream.trans hopen)⟩

theorem Sound.stream (h : Sound k ρ m s) : s.world.stream? k = some m.stream := by
  rw [stream?, h.module]
  rfl

/-- The pump makes a step. -/
theorem Sound.pump (h : Sound k ρ m s) {box : Mailbox ThreadSignal}
    (hbox : m.stream.advance = some box) :
    Sound k ρ { m with stream := box } { s with world := s.world.onStream k fun _ => box } :=
  h.onStream (f := fun _ => box) (h.balanced.pump (Mailbox.advance_moves hbox))

/-- The reader takes a signal. -/
theorem Sound.receive (h : Sound k ρ m s) {v : ThreadSignal} {box : Mailbox ThreadSignal}
    (hbox : m.stream.receive = some (v, box)) :
    Sound k ρ { m with stream := box }
      { s with world := s.world.onStream k fun _ => box, received := s.received ++ [v] } := by
  refine h.onStream (f := fun _ => box) (h.balanced.receive ?_)
  rw [Mailbox.Exchange.step, hbox]
  rfl

theorem Valid.pump [Wasm.Machine] (h : Valid k s) (hstep : s.step k .pump = some s') :
    Valid k s' := by
  obtain ⟨ρ, m, hsound, hphase⟩ := h
  rw [step, hsound.stream] at hstep
  obtain ⟨box, hbox, rfl⟩ := Option.map_eq_some_iff.1 hstep
  have hmoves := Mailbox.advance_moves hbox
  refine ⟨ρ, _, hsound.pump hbox, hphase.onStream (f := fun _ => box) ?_ fun h => h.moves hmoves⟩
  cases hmoves <;> rfl

theorem Valid.receive [Wasm.Machine] (h : Valid k s) (hstep : s.step k .receive = some s') :
    Valid k s' := by
  obtain ⟨ρ, m, hsound, hphase⟩ := h
  rw [step, hsound.stream] at hstep
  obtain ⟨⟨v, box⟩, hbox, rfl⟩ := Option.map_eq_some_iff.1 hstep
  obtain ⟨rest, -, hrest⟩ := Mailbox.receive_eq_some hbox
  refine ⟨ρ, _, hsound.receive hbox,
    hphase.onStream (f := fun _ => box) ?_ fun h => h.receives hbox⟩
  rw [hrest]

theorem Sound.closer (h : Sound k ρ m s) (q : Option (Process Unit)) :
    Sound k ρ m { s with closer := q } := { h with }

theorem Valid.close [Wasm.Machine] (h : Valid k s) (hstep : s.step k .close = some s') :
    Valid k s' := by
  obtain ⟨ρ, m, hsound, hphase⟩ := h
  rw [step] at hstep
  split at hstep <;> cases hstep
  rename_i hcond
  obtain ⟨hcloser, hended⟩ := hcond
  cases hphase with
  | closing hsome => simp [hsome] at hcloser
  | running hnone hmodule hopen =>
    refine ⟨ρ, m, hsound.closer _, .closing rfl ?_ (honours_forget (closeModule_closing ?_))
      trivial⟩
    · simpa using hended
    · rw [moduleClosed?, hsound.module, Option.map_some, hmodule]

/-- A module is closed in the store. -/
theorem Valid.store (h : Valid k s) (store : Wasm.Store) :
    Valid k { s with world := { s.world with store := store } } := by
  obtain ⟨ρ, m, hsound, hphase⟩ := h
  have hquiet : Quiet s.world { s.world with store := store } := ⟨{ later.refl _ with }, rfl, rfl⟩
  refine ⟨ρ, m, hsound.quiet hquiet, ?_⟩
  cases hphase with
  | running hcloser hmodule hopen => exact .running hcloser hmodule hopen
  | closing hcloser hended hp hstage => exact .closing hcloser hended (hp.later rfl) hstage

theorem Valid.other (h : Valid k s) {f : World → World} (hf : Elsewhere k s.world (f s.world)) :
    Valid k { s with world := f s.world } := by
  obtain ⟨ρ, m, hsound, hphase⟩ := h
  refine ⟨ρ, m, hsound.elsewhere hf, ?_⟩
  cases hphase with
  | running hcloser hmodule hopen => exact .running hcloser hmodule hopen
  | closing hcloser hended hp hstage =>
    exact .closing hcloser hended (hp.later (congrArg (Option.map _) hf.module)) hstage

/-- The closing of the module goes on by a piece. -/
theorem Valid.shut [Wasm.Machine] (h : Valid k s) (hstep : s.step k .shut = some s') :
    Valid k s' := by
  obtain ⟨ρ, m, hsound, hphase⟩ := h
  obtain ⟨p, hcloser, hrest⟩ := Option.bind_eq_some_iff.1 hstep
  obtain ⟨⟨event, rest, w⟩, hturn, hs⟩ := Option.bind_eq_some_iff.1 hrest
  cases hs
  cases hphase with
  | running hnone => cases hnone.symm.trans hcloser
  | closing hsome hended hp hstage =>
    cases hsome.symm.trans hcloser
    obtain ⟨stage', ⟨-, hcloses⟩, hrest⟩ := hp.turn hturn
    cases hcloses with
    | shuts =>
      have hlater : Later s.world (setModule k (fun m => { m with closed := true }) s.world).2 :=
        { later.refl _ with }
      refine ⟨ρ, { m with closed := true }, ?_, .closing rfl hended hrest trivial⟩
      exact (hsound.move hlater (getElem?_modify_self hsound.module) hsound.balanced rfl
        fun _ _ => rfl).closer _
    | ends =>
      have hended' := hsound.balanced.ended
      refine ⟨ρ, _, (hsound.onStream (f := .markClosed) { hsound.balanced with
        ended := fun hstopped => ⟨rfl, (hended' hstopped).2⟩ }).closer _,
        .closing rfl hended hrest rfl⟩
    | rings =>
      refine ⟨ρ, _, (hsound.onStream (f := .notify) { hsound.balanced with }).closer _,
        .closing rfl hended hrest ⟨hstage, fun _ => rfl⟩⟩
    | quiet hw => exact ⟨ρ, m, (hsound.quiet hw).closer _, .closing rfl hended hrest hstage⟩

theorem Valid.step [Wasm.Machine] (h : Valid k s) {turn : Turn} (hturn : turn.Elsewhere k)
    (hstep : s.step k turn = some s') : Valid k s' := by
  cases turn with
  | spawn => exact h.spawn hstep
  | use => exact h.use hstep
  | go => exact h.go hstep
  | cancel owner =>
    cases hstep
    exact h.store _
  | pump => exact h.pump hstep
  | receive => exact h.receive hstep
  | close => exact h.close hstep
  | shut => exact h.shut hstep
  | other f =>
    cases hstep
    exact h.other (hturn s.world)

theorem Valid.run [Wasm.Machine] (h : Valid k s) {turns : List Turn}
    (hturns : ∀ turn ∈ turns, turn.Elsewhere k) (hrun : s.run k turns = some s') : Valid k s' := by
  induction turns generalizing s with
  | nil =>
    cases hrun
    exact h
  | cons turn turns ih =>
    obtain ⟨t, ht, hrest⟩ := Option.bind_eq_some_iff.1 hrun
    exact ih (h.step (hturns turn (by simp)) ht) (fun u hu => hturns u (by simp [hu])) hrest

/-- What the reader got is what the code of the threads posted. -/
structure Delivered (k : Nat) (s : Traffic) : Prop where
  /-- The signals arrive unchanged and in the order in which they were left in the stream. -/
  received : s.received = s.posted.map Posting.shown
  /-- Each party left in the stream what its code signalled, in order. -/
  each : ∀ n, s.posted.filter (·.party = n) = s.signalled.filter (·.party = n)
  /-- If the parties of a thread came one after the other, the signals that carry its number are
  those that its code called for, in order. -/
  inOrder : ∀ i, s.Serial i →
    s.received.filter (·.thread = i) = (s.signalled.filter (·.thread = i)).map Posting.shown
  /-- A signal carries the number of the thread whose code called for it. -/
  own : ∀ x ∈ s.signalled, ∃ p, s.parties[x.party]? = some p ∧ p.thread = x.thread
  counted : ∀ m i t, s.world.modules[k]? = some m → m.threads[i]? = some t →
    (s.world.threadStatus t).signals =
      UInt64.ofNat (s.received.filter (·.thread = i)).length

/-- At the end each party has posted all that its code signalled. -/
theorem Sound.each (h : Sound k ρ m s) (hended : ∀ q ∈ s.parties, q.rest.ended = true) (n : Nat) :
    s.posted.filter (·.party = n) = s.signalled.filter (·.party = n) := by
  cases hp : s.parties[n]? with
  | some p =>
    obtain ⟨-, owed, hhonours, hposted⟩ := h.running n p hp
    have howed := honours_ended hhonours (hended p (List.mem_of_getElem? hp))
    simpa [howed] using hposted.symm
  | none =>
    have hnone : s.signalled.filter (·.party = n) = [] := by
      refine List.filter_eq_nil_iff.2 fun x hx hparty => ?_
      obtain ⟨p, hp', -⟩ := h.own x hx
      rw [of_decide_eq_true hparty, hp] at hp'
      cases hp'
    rw [hnone]
    exact List.filter_eq_nil_iff.2 fun x hx => List.filter_eq_nil_iff.1 hnone x (h.kept x hx)

/-- Lists of postings with the same postings of each party. -/
theorem perm_of_each {xs ys : List Posting}
    (h : ∀ n, xs.filter (·.party = n) = ys.filter (·.party = n)) : xs.Perm ys := by
  have hcount (zs : List Posting) (x : Posting) :
      (zs.filter (·.party = x.party)).count x = zs.count x := List.count_filter (by simp)
  refine List.perm_iff_count.2 fun x => ?_
  rw [← hcount xs, h x.party, hcount ys]

theorem Sound.signals (h : Sound k ρ m s) {i : Nat} {t : Thread} (ht : m.threads[i]? = some t) :
    (s.world.threadStatus t).signals =
      UInt64.ofNat (s.signalled.filter (·.thread = i)).length := by
  obtain ⟨engine, hhired⟩ := (h.sited i t ht).hired
  obtain ⟨e, he, houtfit⟩ := Option.map_eq_some_iff.1 hhired
  obtain ⟨hrelay, -⟩ := Prod.mk.inj houtfit
  rw [threadStatus, he, ← h.counts i (List.getElem?_eq_some_iff.1 ht).1, ← hrelay]

theorem Valid.delivered (h : Valid k s) (hend : s.Ended k) : Delivered k s := by
  obtain ⟨ρ, m, hsound, hphase⟩ := h
  obtain ⟨m', hm', hstopped⟩ := hend
  cases hm'.symm.trans hsound.module
  obtain ⟨hclosed, hqueue⟩ := hsound.balanced.ended hstopped
  cases hphase with
  | running _ _ hopen => cases hopen.symm.trans hclosed
  | closing _ hended =>
    have hcontents := hsound.balanced.contents
    rw [hstopped, hqueue] at hcontents
    have hreceived : s.received = s.posted.map Posting.shown := by
      simpa [Mailbox.Pump.batch] using hcontents.symm
    have hlength (i : Nat) : (s.posted.filter (·.thread = i)).length =
        (s.signalled.filter (·.thread = i)).length :=
      ((perm_of_each (hsound.each hended)).filter _).length_eq
    have hthread (i : Nat) : s.received.filter (·.thread = i) =
        (s.posted.filter (·.thread = i)).map Posting.shown := by
      rw [hreceived, List.filter_map]
      rfl
    refine ⟨hreceived, hsound.each hended, fun i hserial => ?_, hsound.own, fun m i t hm ht => ?_⟩
    · rw [hthread, (hsound.leads i hserial).eq_of_length (hlength i)]
    · cases hm.symm.trans hsound.module
      rw [hsound.signals ht, hthread, List.length_map, hlength]

end

/-! ## From the load on -/

theorem valid_of_load [Wasm.Machine] {w w' : World} {rk k : Nat} {bytes : Bytes}
    (h : load rk bytes w = (.ok k, w')) : Valid k { world := w' } := by
  obtain ⟨m, v, logs, hprepare, rfl, rfl⟩ := load_prepared h
  obtain ⟨r, -, -, hhousing, hstream, hopen, -⟩ := prepare_ok hprepare
  have hthreads : m.threads = [] := List.map_eq_nil_iff.1 (congrArg Housing.places hhousing)
  have hmodule : (v.modules.push m)[v.modules.size]? = some m := Array.getElem?_push_size
  refine ⟨fun _ => 0, m, ⟨hmodule, ?_, ?_, ?_, nofun, nofun, nofun, nofun, fun _ _ => ⟨[], rfl⟩⟩,
    .running rfl hopen ?_⟩
  · rw [hstream]
    exact ⟨rfl, rfl, nofun, rfl, rfl⟩
  · rw [hthreads]
    nofun
  · rw [hthreads]
    nofun
  · rw [hstream]
    rfl

end Traffic

end GuestThreads.World
