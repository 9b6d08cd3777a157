import GuestThreads.Proofs.Mailbox.Fifo
import GuestThreads.Proofs.World.Duties

/-!
# The traffic around a module

Threads are spawned from a module and brought up, their bridges are used, the pump of the module's
stream runs and a reader receives, all in turns. At any time each party has posted what its code
signalled, but for what it still owes, and the stream holds what was posted and not yet received.
-/

namespace GuestThreads.World

open Mailbox (Balanced)

variable {α : Type}

/-- A signal, with the party that posts it and the thread whose code the party runs. -/
structure Posting where
  party : Nat
  thread : Nat
  signal : Signal
deriving DecidableEq

/-- What a reader sees of a posting. -/
def Posting.shown (x : Posting) : ThreadSignal := { thread := x.thread, signal := x.signal }

/-- The stream of a loaded module. -/
def stream? (w : World) (k : Nat) : Option (Mailbox ThreadSignal) := w.modules[k]?.map (·.stream)

/-- The bridge of a thread that runs. -/
def bridge? (w : World) (k i : Nat) : Option Nat := do
  let m ← w.modules[k]?
  let t ← m.threads[i]?
  t.bridge

namespace Process

def forget (p : Process α) : Process Unit := p >>= fun _ => done ()

def ended : Process α → Bool
  | done _ => true
  | piece .. => false

end Process

/-- Someone who runs the code of a thread. -/
structure Party where
  thread : Nat
  rest : Process Unit
  /-- The earlier parties of the thread were done when this one came. -/
  alone : Bool

/-- What goes on around a loaded module. -/
structure Traffic where
  world : World
  parties : List Party := []
  /-- The closing of the module, once it has begun. -/
  closer : Option (Process Unit) := none
  /-- The signals that guest code called for, in order. -/
  signalled : List Posting := []
  /-- The signals that were left in the stream, in order. -/
  posted : List Posting := []
  received : List ThreadSignal := []

namespace Traffic

inductive Turn where
  /-- A thread is spawned. A worker whose wait is cancelled may not hear of its message. -/
  | spawn (closurePtr : UInt32) (ops : List (String × Bridge.Op)) (cancelled heard : Bool)
  /-- Something is done with the bridge of a thread. -/
  | use (thread : Nat) (cancelled : Bool) (script : Bridge.Script)
  /-- A party goes on by a piece. -/
  | go (n : Nat)
  /-- The context of a call is done while it runs, and the owner of the function is closed. -/
  | cancel (owner : Wasm.Owner)
  | pump
  | receive
  /-- All parties are done, and the module is about to be closed. -/
  | close
  /-- The closing goes on by a piece. -/
  | shut
  /-- Something else happens. -/
  | other (f : World → World)

/-- No party runs the code of thread `i`. -/
def idle (s : Traffic) (i : Nat) : Bool := s.parties.all fun p => p.thread ≠ i || p.rest.ended

def enter (s : Traffic) (i : Nat) (p : Process Unit) : Traffic :=
  { s with parties := s.parties ++ [{ thread := i, rest := p, alone := s.idle i }] }

/-- A thread was spawned or refused. -/
def spawned [Wasm.Machine] (k : Nat) (s : Traffic) (closurePtr : UInt32) (cancelled heard : Bool) :
    Except Fault Thread × World → Traffic
  | (.ok t, w) =>
    let serve := Course.serve k t closurePtr cancelled heard
    ({ s with world := w }).enter t.id (Process.forget serve)
  | (.error _, w) => { s with world := w }

/-- Party `n` has gone on by a piece. -/
def gone (s : Traffic) (n : Nat) (p : Party) (event : Option Event) (rest : Process Unit)
    (w : World) : Traffic :=
  { s with
    world := w
    parties := s.parties.set n { p with rest := rest }
    signalled := s.signalled ++ (event.bind Event.signalled?).toList.map (Posting.mk n p.thread)
    posted := s.posted ++ (event.bind Event.posted?).toList.map (Posting.mk n p.thread) }

/-- The traffic around module `k` after a turn, if it can be taken. -/
def step [Wasm.Machine] (k : Nat) (s : Traffic) : Turn → Option Traffic
  | .spawn closurePtr ops cancelled heard =>
    if s.closer.isSome then none
    else some (s.spawned k closurePtr cancelled heard (newThread k ops s.world))
  | .use i cancelled script =>
    if s.closer.isSome then none
    else (s.world.bridge? k i).map fun b =>
      s.enter i (Process.forget (Course.drive b cancelled script))
  | .go n => do
    let p ← s.parties[n]?
    let (event, rest, w) ← p.rest.turn s.world
    return s.gone n p event rest w
  | .cancel owner => some { s with
    world := { s.world with store := s.world.store.close owner .cancelled } }
  | .pump => ((s.world.stream? k).bind Mailbox.advance).map fun box =>
    { s with world := s.world.onStream k fun _ => box }
  | .receive => ((s.world.stream? k).bind Mailbox.receive).map fun taken =>
    { s with world := s.world.onStream k fun _ => taken.2, received := s.received ++ [taken.1] }
  | .close =>
    if s.closer.isNone ∧ s.parties.all (·.rest.ended) then
      some { s with closer := some (Process.forget (Course.closeModule k)) }
    else none
  | .shut => do
    let p ← s.closer
    let (_, rest, w) ← p.turn s.world
    return { s with world := w, closer := some rest }
  | .other f => some { s with world := f s.world }

def run [Wasm.Machine] (k : Nat) : Traffic → List Turn → Option Traffic
  | s, [] => some s
  | s, turn :: turns => (s.step k turn).bind fun s' => run k s' turns

/-- Module `k` and the relays that lead to it are left alone. -/
structure Elsewhere (k : Nat) (w w' : World) : Prop where
  later : Later w w'
  module : w'.modules[k]? = w.modules[k]?
  relays : ∀ (r : Nat) (relay : Relay) (i : Nat), w.relays[r]? = some (relay, .stream k i) →
    w'.relays[r]? = some (relay, .stream k i)

/-- Whatever else happens, it happens elsewhere. -/
def Turn.Elsewhere (k : Nat) : Turn → Prop
  | .other f => ∀ w, Traffic.Elsewhere k w (f w)
  | _ => True

/-- The reader has met the end of the stream. -/
def Ended (k : Nat) (s : Traffic) : Prop :=
  ∃ m, s.world.modules[k]? = some m ∧ m.stream.pump = .stopped

/-- The module was closed. -/
def Closed (s : Traffic) : Prop := ∃ p, s.closer = some p ∧ p.ended = true

/-! ## What holds at any time -/

/-- A party has posted what its code signalled, but for what it still owes. -/
def Running (k : Nat) (ρ : Nat → Nat) (s : Traffic) (n : Nat) (p : Party) : Prop :=
  ∃ owed, p.rest.Honours (duty k p.thread (ρ p.thread)) (fun _ owed _ => owed = []) owed s.world ∧
    s.signalled.filter (·.party = n) =
      s.posted.filter (·.party = n) ++ owed.map (Posting.mk n p.thread)

/-- The parties of thread `i` came one after the other. -/
def Serial (s : Traffic) (i : Nat) : Prop := ∀ p ∈ s.parties, p.thread = i → p.alone = true

/-- Party `n` runs the code of thread `i` and is not done. -/
def Working (s : Traffic) (n i : Nat) : Prop :=
  ∃ p, s.parties[n]? = some p ∧ p.thread = i ∧ p.rest.ended = false

/-- Thread `i` of module `k` posts through relay `ρ i`, which counts what its code signals, and the
stream holds what was posted. Where the parties of a thread come one after the other, one of them
runs at a time, and the thread posts in the order in which its code signals. -/
structure Sound (k : Nat) (ρ : Nat → Nat) (m : LoadedModule) (s : Traffic) : Prop where
  module : s.world.modules[k]? = some m
  balanced : Balanced {
    box := m.stream, accepted := s.posted.map Posting.shown, received := s.received }
  sited : AllSited k ρ s.world m.threads
  counts : ∀ i < m.threads.length,
    s.world.relayCount (ρ i) = UInt64.ofNat (s.signalled.filter (·.thread = i)).length
  running : ∀ n p, s.parties[n]? = some p → p.thread < m.threads.length ∧ Running k ρ s n p
  own : ∀ x ∈ s.signalled, ∃ p, s.parties[x.party]? = some p ∧ p.thread = x.thread
  kept : ∀ x ∈ s.posted, x ∈ s.signalled
  single : ∀ i, s.Serial i → ∀ n n', s.Working n i → s.Working n' i → n = n'
  leads : ∀ i, s.Serial i →
    s.posted.filter (·.thread = i) <+: s.signalled.filter (·.thread = i)

section

variable {k n : Nat} {ρ : Nat → Nat} {m m' : LoadedModule} {s : Traffic} {p : Party} {w : World}

theorem Sound.wired (h : Sound k ρ m s) {i : Nat} (hi : i < m.threads.length) :
    Wired k i (ρ i) s.world :=
  (h.sited i _ (List.getElem?_eq_getElem hi)).wired

/-- Something happens to the world that is not the doing of a party. -/
theorem Sound.move (h : Sound k ρ m s) {received : List ThreadSignal} (hlater : Later s.world w)
    (hmodule : w.modules[k]? = some m')
    (hbalanced : Balanced {
      box := m'.stream, accepted := s.posted.map Posting.shown, received := received })
    (hthreads : m'.threads = m.threads)
    (hcounts : ∀ i < m.threads.length, w.relayCount (ρ i) = s.world.relayCount (ρ i)) :
    Sound k ρ m' { s with world := w, received := received } where
  module := hmodule
  balanced := hbalanced
  sited := hthreads ▸ h.sited.later hlater
  counts i hi := (hcounts i (hthreads ▸ hi)).trans (h.counts i (hthreads ▸ hi))
  running j q hq := by
    obtain ⟨hthread, owed, hhonours, hposted⟩ := h.running j q hq
    exact ⟨hthreads ▸ hthread, owed, hhonours.later hlater, hposted⟩
  own := h.own
  kept := h.kept
  single := h.single
  leads := h.leads

/-- Something happens to the stream. -/
theorem Sound.onStream (h : Sound k ρ m s) {f : Mailbox ThreadSignal → Mailbox ThreadSignal}
    {received : List ThreadSignal} (hbalanced : Balanced {
      box := f m.stream, accepted := s.posted.map Posting.shown, received := received }) :
    Sound k ρ { m with stream := f m.stream }
      { s with world := s.world.onStream k f, received := received } :=
  h.move (onStream_later _ k f) (getElem?_modify_self h.module) hbalanced rfl fun _ _ => rfl

theorem Sound.quiet (h : Sound k ρ m s) (hw : Quiet s.world w) :
    Sound k ρ m { s with world := w } := by
  refine h.move hw.later (hw.modules ▸ h.module) h.balanced rfl fun i _ => ?_
  rw [relayCount, relayCount, hw.relays]

theorem Sound.elsewhere (h : Sound k ρ m s) (hw : Elsewhere k s.world w) :
    Sound k ρ m { s with world := w } := by
  refine h.move hw.later (hw.module.trans h.module) h.balanced rfl fun i hi => ?_
  obtain ⟨⟨relay, outbox⟩, hrelay, hwire⟩ := Option.map_eq_some_iff.1 (h.wired hi)
  obtain ⟨-, rfl⟩ := Prod.mk.inj hwire
  rw [relayCount, relayCount, hw.relays _ _ _ hrelay, hrelay]

/-! ## The pieces of a party -/

theorem filter_party (n thread : Nat) (signals : List Signal) (i : Nat) :
    (signals.map (Posting.mk n thread)).filter (·.party = i) =
      if n = i then signals.map (Posting.mk n thread) else [] := by
  split <;> simp_all [List.filter_eq_self, List.filter_eq_nil_iff]

theorem parties_gone_self (s : Traffic) {event : Option Event} {rest : Process Unit}
    (hp : s.parties[n]? = some p) :
    (s.gone n p event rest w).parties[n]? = some { p with rest := rest } :=
  List.getElem?_set_self (List.getElem?_eq_some_iff.1 hp).1

theorem parties_gone_ne (s : Traffic) {event : Option Event} {rest : Process Unit} {j : Nat}
    (hj : n ≠ j) : (s.gone n p event rest w).parties[j]? = s.parties[j]? :=
  List.getElem?_set_ne hj

/-- The parties came before the piece as they came after it. -/
theorem Serial.of_gone {event : Option Event} {rest : Process Unit} {i : Nat}
    (h : (s.gone n p event rest w).Serial i) (hp : s.parties[n]? = some p) : s.Serial i := by
  intro q hq hthread
  obtain ⟨j, hj⟩ := List.mem_iff_getElem?.1 hq
  by_cases hn : n = j
  · subst hn
    cases hp.symm.trans hj
    exact h { p with rest := rest } (List.mem_of_getElem? (s.parties_gone_self hp)) hthread
  · exact h q (List.mem_of_getElem? ((s.parties_gone_ne hn).trans hj)) hthread

/-- A party that runs after a piece ran before it. -/
theorem Working.of_gone {event : Option Event} {rest : Process Unit} {j i : Nat}
    (h : (s.gone n p event rest w).Working j i) (hp : s.parties[n]? = some p)
    (hgoing : p.rest.ended = false) : s.Working j i := by
  obtain ⟨q, hq, hthread, hrest⟩ := h
  by_cases hn : n = j
  · subst hn
    rw [s.parties_gone_self hp] at hq
    cases hq
    exact ⟨p, hp, hthread, hgoing⟩
  · exact ⟨q, (s.parties_gone_ne hn).symm.trans hq, hthread, hrest⟩

/-- Party `n` goes on by a piece, with the rest of what holds checked for it alone. -/
theorem Sound.gone (h : Sound k ρ m s) {event : Option Event} {rest : Process Unit}
    (hp : s.parties[n]? = some p) (hgoing : p.rest.ended = false) (hlater : Later s.world w)
    (hmodule : w.modules[k]? = some m') (hlength : m'.threads.length = m.threads.length)
    (hbalanced : Balanced {
      box := m'.stream, accepted := (s.gone n p event rest w).posted.map Posting.shown
      received := s.received })
    (hsited : AllSited k ρ w m'.threads)
    (hcounts : ∀ i < m.threads.length, w.relayCount (ρ i) =
      UInt64.ofNat ((s.gone n p event rest w).signalled.filter (·.thread = i)).length)
    (hrunning : Running k ρ (s.gone n p event rest w) n { p with rest := rest })
    (hleads : ∀ i, s.Serial i → (s.gone n p event rest w).posted.filter (·.thread = i) <+:
      (s.gone n p event rest w).signalled.filter (·.thread = i)) :
    Sound k ρ m' (s.gone n p event rest w) where
  module := hmodule
  balanced := hbalanced
  sited := hsited
  counts i hi := hcounts i (hlength ▸ hi)
  running j q hq := by
    by_cases hj : n = j
    · subst hj
      rw [s.parties_gone_self hp] at hq
      cases hq
      exact ⟨hlength ▸ (h.running n p hp).1, hrunning⟩
    · rw [s.parties_gone_ne hj] at hq
      obtain ⟨hthread, owed, hhonours, hposted⟩ := h.running j q hq
      refine ⟨hlength ▸ hthread, owed, hhonours.later hlater, ?_⟩
      simpa [Traffic.gone, filter_party, hj] using hposted
  own x hx := by
    obtain hold | hnew := List.mem_append.1 hx
    · obtain ⟨q, hq, hthread⟩ := h.own x hold
      by_cases hj : n = x.party
      · rw [← hj, hp] at hq
        cases hq
        refine ⟨{ p with rest := rest }, ?_, hthread⟩
        rw [← hj]
        exact s.parties_gone_self hp
      · exact ⟨q, (s.parties_gone_ne hj).trans hq, hthread⟩
    · obtain ⟨signal, -, rfl⟩ := List.mem_map.1 hnew
      exact ⟨_, s.parties_gone_self hp, rfl⟩
  kept x hx := by
    obtain hold | hnew := List.mem_append.1 hx
    · exact List.mem_append_left _ (h.kept x hold)
    · obtain ⟨signal, -, rfl⟩ := List.mem_map.1 hnew
      obtain ⟨owed, -, hposted⟩ := hrunning
      have hmem : Posting.mk n p.thread signal ∈
          (s.gone n p event rest w).signalled.filter (·.party = n) := by
        rw [hposted]
        exact List.mem_append_left _ (List.mem_filter.2 ⟨hx, by simp⟩)
      exact (List.mem_filter.1 hmem).1
  single i hserial a b ha hb :=
    h.single i (hserial.of_gone hp) a b (ha.of_gone hp hgoing) (hb.of_gone hp hgoing)
  leads i hserial := hleads i (hserial.of_gone hp)

theorem relayCount_counted {r : Nat} {b : Bool × Outbox} (h : w.relays[r]?.map wire = some b) :
    (w.counted r).relayCount r = w.relayCount r + 1 := by
  obtain ⟨⟨relay, outbox⟩, hr, -⟩ := Option.map_eq_some_iff.1 h
  have hcounted : (w.counted r).relays[r]? =
      some ({ relay with count := relay.count + 1 }, outbox) := getElem?_modify_self hr
  rw [relayCount, relayCount, hcounted, hr]

theorem relayCount_counted_ne {r r' : Nat} (h : r ≠ r') :
    (w.counted r).relayCount r' = w.relayCount r' := by
  rw [relayCount, relayCount, counted, Array.getElem?_modify, if_neg h]

/-- The relays of two threads are different. -/
theorem Sound.relay_inj (h : Sound k ρ m s) {i j : Nat} (hi : i < m.threads.length)
    (hj : j < m.threads.length) (hij : ρ i = ρ j) : i = j := by
  have hwired := h.wired hi
  rw [hij, Wired, h.wired hj] at hwired
  cases hwired
  rfl

theorem honours_ended {γ : Type} {c : Contract γ} {P : γ → Prop} {g : γ} {q : Process Unit}
    (h : q.Honours c (fun _ g _ => P g) g w) (hq : q.ended = true) : P g := by
  cases q with
  | done a => exact h w (c.rely.refl w)
  | piece => cases hq

/-- What of thread `i` is signalled and not posted yet, as far as a party of the thread owes it. -/
theorem filter_party_tail {i : Nat} {owed : List Signal} {tail : List Posting}
    (htail : s.posted.filter (·.thread = i) ++ tail = s.signalled.filter (·.thread = i))
    (hposted : s.signalled.filter (·.party = n) =
      s.posted.filter (·.party = n) ++ owed.map (Posting.mk n i)) :
    tail.filter (·.party = n) = owed.map (Posting.mk n i) := by
  have hown : (owed.map (Posting.mk n i)).filter (·.thread = i) = owed.map (Posting.mk n i) := by
    simp [List.filter_eq_self]
  have hcomm (xs : List Posting) : (xs.filter (·.party = n)).filter (·.thread = i) =
      (xs.filter (·.thread = i)).filter (·.party = n) := by
    simp [List.filter_filter, Bool.and_comm]
  have hall := congrArg (List.filter (·.thread = i)) hposted
  rw [List.filter_append, hown, hcomm, hcomm, ← htail, List.filter_append] at hall
  exact List.append_cancel_left hall

/-- Where one party of a thread runs at a time, the thread owes what this party owes. -/
theorem Sound.signalled_eq (h : Sound k ρ m s) {owed : List Signal} (hp : s.parties[n]? = some p)
    (hgoing : p.rest.ended = false) (hserial : s.Serial p.thread)
    (hposted : s.signalled.filter (·.party = n) =
      s.posted.filter (·.party = n) ++ owed.map (Posting.mk n p.thread)) :
    s.signalled.filter (·.thread = p.thread) =
      s.posted.filter (·.thread = p.thread) ++ owed.map (Posting.mk n p.thread) := by
  obtain ⟨tail, htail⟩ := h.leads p.thread hserial
  have hparty : ∀ x ∈ tail, x.party = n := by
    intro x hx
    have hmem : x ∈ s.signalled.filter (·.thread = p.thread) :=
      htail ▸ List.mem_append_right _ hx
    obtain ⟨hsignalled, hthread⟩ := List.mem_filter.1 hmem
    obtain ⟨q, hq, hqx⟩ := h.own x hsignalled
    have hqp : q.thread = p.thread := hqx.trans (of_decide_eq_true hthread)
    cases hended : q.rest.ended with
    | false => exact h.single _ hserial _ _ ⟨q, hq, hqp, hended⟩ ⟨p, hp, rfl, hgoing⟩
    | true =>
      -- A party that is done owes nothing, so `x` is not one of its postings.
      obtain ⟨-, owed', hhonours, hposted'⟩ := h.running _ q hq
      rw [honours_ended hhonours hended, hqp] at hposted'
      have hnone := List.filter_eq_nil_iff.1 (filter_party_tail htail hposted') x hx
      simp at hnone
  have hall : tail.filter (·.party = n) = tail := List.filter_eq_self.2 (by simpa using hparty)
  rw [← htail, ← filter_party_tail htail hposted, hall]

/-- A party counts a signal that its code calls for. -/
theorem Sound.count (h : Sound k ρ m s) {signal : Signal} {rest : Process Unit} {owed : List Signal}
    (hp : s.parties[n]? = some p) (hgoing : p.rest.ended = false)
    (hposted : s.signalled.filter (·.party = n) =
      s.posted.filter (·.party = n) ++ owed.map (Posting.mk n p.thread))
    (hrest : rest.Honours (duty k p.thread (ρ p.thread)) (fun _ owed _ => owed = [])
      (owed ++ [signal]) (s.world.counted (ρ p.thread))) :
    Sound k ρ m
      (s.gone n p (some (.signalled signal)) rest (s.world.counted (ρ p.thread))) := by
  have hthread := (h.running n p hp).1
  refine h.gone hp hgoing (counted_later _ _) h.module rfl ?_ (h.sited.later (counted_later _ _)) ?_
    ⟨_, hrest, ?_⟩ fun i hserial => ?_
  · simpa [Traffic.gone, Event.posted?] using h.balanced
  · intro i hi
    by_cases heq : p.thread = i
    · subst heq
      rw [relayCount_counted (h.wired hi), h.counts p.thread hi]
      simp [Traffic.gone, Event.signalled?, UInt64.ofNat_add]
    · rw [relayCount_counted_ne fun hρ => heq (h.relay_inj hthread hi hρ), h.counts i hi]
      simp [Traffic.gone, Event.signalled?, heq]
  · simp [Traffic.gone, Event.signalled?, Event.posted?, hposted]
  · simpa [Traffic.gone, Event.posted?] using
      (h.leads i hserial).trans (List.prefix_append _ _)

/-- A party leaves a signal that it owes in the stream. -/
theorem Sound.post (h : Sound k ρ m s) (hopen : m.stream.closed = false) {signal : Signal}
    {rest : Process Unit} {owed : List Signal} (hp : s.parties[n]? = some p)
    (hgoing : p.rest.ended = false)
    (hposted : s.signalled.filter (·.party = n) =
      s.posted.filter (·.party = n) ++ (signal :: owed).map (Posting.mk n p.thread))
    (hrest : rest.Honours (duty k p.thread (ρ p.thread)) (fun _ owed _ => owed = []) owed
      (s.world.onStream k (·.enqueue { thread := p.thread, signal := signal }))) :
    Sound k ρ { m with stream := m.stream.enqueue { thread := p.thread, signal := signal } }
      (s.gone n p (some (.posted signal)) rest
        (s.world.onStream k (·.enqueue { thread := p.thread, signal := signal }))) := by
  refine h.gone hp hgoing (onStream_later _ k _) (getElem?_modify_self h.module) rfl ?_
    (h.sited.later (onStream_later _ k _)) ?_ ⟨_, hrest, ?_⟩ fun i hserial => ?_
  · have hbalanced := h.balanced.enqueue hopen { thread := p.thread, signal := signal }
    simpa [Traffic.gone, Event.posted?, Posting.shown] using hbalanced
  · intro i hi
    change s.world.relayCount (ρ i) = _
    rw [h.counts i hi]
    simp [Traffic.gone, Event.signalled?]
  · simp [Traffic.gone, Event.signalled?, Event.posted?, hposted]
  · by_cases heq : p.thread = i
    · subst heq
      have hsignalled := h.signalled_eq hp hgoing hserial hposted
      simp [Traffic.gone, Event.signalled?, Event.posted?, hsignalled]
    · simpa [Traffic.gone, Event.signalled?, Event.posted?, heq] using h.leads i hserial

/-- A party does something else. -/
theorem Sound.proceed (h : Sound k ρ m s) {event : Option Event} {rest : Process Unit}
    {owed : List Signal} (hp : s.parties[n]? = some p) (hgoing : p.rest.ended = false)
    (hsignalled : event.bind Event.signalled? = none) (hevent : event.bind Event.posted? = none)
    (hw : Steady k p.thread (ρ p.thread) s.world w)
    (hposted : s.signalled.filter (·.party = n) =
      s.posted.filter (·.party = n) ++ owed.map (Posting.mk n p.thread))
    (hrest : rest.Honours (duty k p.thread (ρ p.thread)) (fun _ owed _ => owed = []) owed w) :
    ∃ m', Sound k ρ m' (s.gone n p event rest w) ∧ m'.stream.closed = m.stream.closed ∧
      m'.closed = m.closed := by
  obtain ⟨m', hm', hgoes⟩ := hw.goes m h.module
  refine ⟨m', h.gone hp hgoing hw.later hm' hgoes.length ?_ (hgoes.sited ρ rfl h.sited) ?_
    ⟨_, hrest, ?_⟩ fun i hserial => ?_, ?_, hgoes.closed⟩
  · obtain hstream | hstream := hgoes.stream
    · simpa [Traffic.gone, hevent, hstream] using h.balanced
    · simpa [Traffic.gone, hevent, hstream] using
        ({ h.balanced with } : Balanced { box := m.stream.notify
                                          accepted := s.posted.map Posting.shown
                                          received := s.received })
  · intro i hi
    rw [relayCount, hw.relays, ← relayCount, h.counts i hi]
    simp [Traffic.gone, hsignalled]
  · simp [Traffic.gone, hsignalled, hevent, hposted]
  · simpa [Traffic.gone, hsignalled, hevent] using h.leads i hserial
  · obtain hstream | hstream := hgoes.stream <;> rw [hstream]
    rfl

theorem going_of_turn {q : Process α} {taken : Option Event × Process α × World}
    (h : q.turn w = some taken) : q.ended = false := by
  cases q with
  | done a => cases h
  | piece => rfl

/-- As long as the stream accepts signals, what holds goes on to hold with every piece of a
party. -/
theorem Sound.go (h : Sound k ρ m s) (hopen : m.stream.closed = false) {event : Option Event}
    {rest : Process Unit} (hp : s.parties[n]? = some p)
    (hturn : p.rest.turn s.world = some (event, rest, w)) :
    ∃ m', Sound k ρ m' (s.gone n p event rest w) ∧ m'.stream.closed = m.stream.closed ∧
      m'.closed = m.closed := by
  obtain ⟨-, owed, hhonours, hposted⟩ := h.running n p hp
  obtain ⟨owed', howes, hrest⟩ := hhonours.turn hturn
  have hgoing := going_of_turn hturn
  cases howes with
  | counts signal => exact ⟨m, h.count hp hgoing hposted hrest, rfl, rfl⟩
  | posts howed =>
    subst howed
    refine ⟨_, h.post hopen hp hgoing hposted hrest, ?_, rfl⟩
    simp [Mailbox.enqueue, hopen]
  | steady hsignalled hevent hw => exact h.proceed hp hgoing hsignalled hevent hw hposted hrest

/-! ## New parties -/

theorem honours_forget {γ : Type} {c : Contract γ} {P : γ → Prop} {g : γ} {q : Process α}
    (h : q.Honours c (fun _ g' _ => P g') g w) :
    q.forget.Honours c (fun _ g' _ => P g') g w :=
  h.bind fun _ _ _ hend _ _ => hend

/-- The code of a thread, as what a party runs. -/
theorem duty_forget {i r : Nat} {R : α → World → Prop} {q : Course α}
    (h : q.Honours (duty k i r) [] R w) :
    (Process.forget q).Honours (duty k i r) (fun _ owed _ => owed = []) [] w :=
  honours_forget (Process.Honours.imp h fun _ _ _ hend => hend.1)

theorem Sound.enter (h : Sound k ρ m s) {i : Nat} {q : Process Unit} (hi : i < m.threads.length)
    (hq : q.Honours (duty k i (ρ i)) (fun _ owed _ => owed = []) [] s.world) :
    Sound k ρ m (s.enter i q) := by
  have hnone : s.signalled.filter (·.party = s.parties.length) = [] := by
    refine List.filter_eq_nil_iff.2 fun x hx => ?_
    obtain ⟨p, hp, -⟩ := h.own x hx
    have hlt := (List.getElem?_eq_some_iff.1 hp).1
    simp only [decide_eq_true_eq]
    omega
  have hnone' : s.posted.filter (·.party = s.parties.length) = [] :=
    List.filter_eq_nil_iff.2 fun x hx => List.filter_eq_nil_iff.1 hnone x (h.kept x hx)
  have hserial {i' : Nat} (hs : (s.enter i q).Serial i') : s.Serial i' :=
    fun p hp => hs p (List.mem_append_left _ hp)
  refine { h with
    running := ?_, own := ?_, single := ?_, leads := fun i' hs => h.leads i' (hserial hs) }
  · intro j p hp
    obtain hold | ⟨rfl, rfl⟩ := getElem?_concat_eq_some hp
    · exact h.running j p hold
    · exact ⟨hi, [], hq, by simp [Traffic.enter, hnone, hnone']⟩
  · intro x hx
    obtain ⟨p, hp, hthread⟩ := h.own x hx
    exact ⟨p, (List.getElem?_append_left (List.getElem?_eq_some_iff.1 hp).1).trans hp, hthread⟩
  · -- The new party is alone, so the earlier parties of its thread are done.
    have hcases {j i' : Nat} (hs : (s.enter i q).Serial i') (hj : (s.enter i q).Working j i') :
        i' ≠ i ∧ s.Working j i' ∨ i' = i ∧ j = s.parties.length := by
      obtain ⟨p, hp, hthread, hgoing⟩ := hj
      obtain hold | ⟨hlength, rfl⟩ := getElem?_concat_eq_some hp
      · refine .inl ⟨?_, p, hold, hthread, hgoing⟩
        rintro rfl
        have hidle : s.idle i' = true := hs _ List.mem_concat_self rfl
        have hdone := List.all_eq_true.1 hidle p (List.mem_of_getElem? hold)
        simp [hthread, hgoing] at hdone
      · exact .inr ⟨hthread.symm, hlength⟩
    intro i' hs a b ha hb
    obtain ⟨hne, ha⟩ | ⟨heq, rfl⟩ := hcases hs ha
    · obtain ⟨-, hb⟩ | ⟨heq, -⟩ := hcases hs hb
      · exact h.single i' (hserial hs) a b ha hb
      · exact absurd heq hne
    · obtain ⟨hne, -⟩ | ⟨-, rfl⟩ := hcases hs hb
      · exact absurd heq hne
      · rfl

/-- The bridge of a thread is used. -/
theorem Sound.use [Wasm.Machine] (h : Sound k ρ m s) {i b : Nat} (hb : s.world.bridge? k i = some b)
    (cancelled : Bool) (script : Bridge.Script) :
    Sound k ρ m (s.enter i (Process.forget (Course.drive b cancelled script))) := by
  obtain ⟨m', hm', hrest⟩ := Option.bind_eq_some_iff.1 hb
  obtain ⟨t, ht, hbridge⟩ := Option.bind_eq_some_iff.1 hrest
  cases hm'.symm.trans h.module
  have hsited := h.sited i t ht
  exact h.enter (List.getElem?_eq_some_iff.1 ht).1
    (duty_forget (drive_duty b cancelled (hsited.joined b hbridge) hsited.wired script))

/-- The traffic goes on as it was when a thread is entered. -/
theorem Sound.entered (h : Sound k ρ m s) {layout : Layout} {t : Thread}
    (hw : Entered k m layout t s.world w) :
    Sound k (assign ρ m.threads.length s.world.relays.size)
      { m with layout := layout, threads := m.threads ++ [t] } { s with world := w } := by
  refine ⟨hw.module, h.balanced, ?_, ?_, ?_, h.own, h.kept, h.single, h.leads⟩
  · intro j u hu
    obtain hold | ⟨rfl, rfl⟩ := getElem?_concat_eq_some hu
    · have hj := (List.getElem?_eq_some_iff.1 hold).1
      exact ((h.sited j u hold).later hw.later).congr (assign_of_lt ρ _ hj)
    · exact hw.sited
  · intro i hi
    rw [relayCount, hw.relay]
    obtain hlt | rfl := Nat.lt_or_eq_of_le (Nat.le_of_lt_succ (by simpa using hi))
    · obtain ⟨relay, hrelay, -⟩ := Option.map_eq_some_iff.1 (h.wired hlt)
      have hne := Nat.ne_of_lt (Array.getElem?_eq_some_iff.1 hrelay).1
      rw [assign_of_lt ρ _ hlt, Array.getElem?_push, if_neg hne]
      exact h.counts i hlt
    · have hnone : s.signalled.filter (·.thread = m.threads.length) = [] := by
        refine List.filter_eq_nil_iff.2 fun x hx => ?_
        obtain ⟨p, hp, hthread⟩ := h.own x hx
        have hlt := (h.running _ p hp).1
        simp only [decide_eq_true_eq]
        omega
      rw [assign_self, Array.getElem?_push_size, hnone]
      rfl
  · intro n p hp
    obtain ⟨hthread, owed, hhonours, hposted⟩ := h.running n p hp
    refine ⟨by simp; omega, owed, ?_, hposted⟩
    rw [assign_of_lt ρ _ hthread]
    exact hhonours.later hw.later

theorem Sound.spawn [Wasm.Machine] (h : Sound k ρ m s) (closurePtr : UInt32)
    (ops : List (String × Bridge.Op)) (cancelled heard : Bool) :
    ∃ ρ' m', Sound k ρ' m' (s.spawned k closurePtr cancelled heard (newThread k ops s.world)) ∧
      m'.stream = m.stream ∧ m'.closed = m.closed := by
  obtain ⟨f, hf⟩ | ⟨t, layout, w, ht, hentered⟩ := newThread_cases h.module ops
  · rw [hf]
    exact ⟨ρ, m, h, rfl, rfl⟩
  · rw [ht]
    have hsited := hentered.sited (ρ := ρ)
    refine ⟨_, _, (h.entered hentered).enter (i := t.id) ?_
      (duty_forget (serve_duty rfl ?_ ?_ _ _ _)), rfl, rfl⟩
    · simp [hentered.id]
    · rw [hentered.id]
      exact hsited.hired
    · rw [hentered.id]
      exact hsited.wired

/-! ## Going on to the end -/

/-- All parties are done. -/
def Finished (s : Traffic) : Prop := ∀ p ∈ s.parties, p.rest.ended = true

theorem run_append [Wasm.Machine] (k : Nat) (s : Traffic) (turns turns' : List Turn) :
    s.run k (turns ++ turns') = (s.run k turns).bind fun s' => s'.run k turns' := by
  induction turns generalizing s with
  | nil => rfl
  | cons turn turns ih =>
    rw [List.cons_append, run, run, Option.bind_assoc]
    exact Option.bind_congr fun s' _ => ih s'

/-- A party that has turns enough comes to its end. -/
theorem finishes [Wasm.Machine] (hp : s.parties[n]? = some p) :
    ∃ count s', s.run k (List.replicate count (.go n)) = some s' ∧
      s'.parties.length = s.parties.length ∧ (∃ q, s'.parties[n]? = some q ∧ q.rest.ended = true) ∧
      ∀ i, n ≠ i → s'.parties[i]? = s.parties[i]? := by
  obtain ⟨thread, rest, alone⟩ := p
  induction rest generalizing s with
  | done a => exact ⟨0, s, rfl, rfl, ⟨_, hp, rfl⟩, fun _ _ => rfl⟩
  | piece event act next ih =>
    let s₁ := s.gone n ⟨thread, .piece event act next, alone⟩ event (next (act s.world).1)
      (act s.world).2
    have hstep : s.step k (.go n) = some s₁ := by
      rw [step, hp]
      rfl
    obtain ⟨count, s', hrun, hlength, hended, hothers⟩ := ih _ (s := s₁) (s.parties_gone_self hp)
    refine ⟨count + 1, s', ?_, hlength.trans (List.length_set ..), hended, fun i hi => ?_⟩
    · rw [List.replicate_succ, run, hstep]
      exact hrun
    · rw [hothers i hi, s.parties_gone_ne hi]

/-- However far the parties have come, they can all come to their ends. -/
theorem completes [Wasm.Machine] (k : Nat) (s : Traffic) :
    ∃ turns s', (∀ turn ∈ turns, ∃ n, turn = .go n) ∧ s.run k turns = some s' ∧ s'.Finished := by
  have hfirst (count : Nat) (hcount : count ≤ s.parties.length) : ∃ turns s',
      (∀ turn ∈ turns, ∃ n, turn = .go n) ∧ s.run k turns = some s' ∧
      s'.parties.length = s.parties.length ∧
      ∀ i < count, ∀ q, s'.parties[i]? = some q → q.rest.ended = true := by
    induction count with
    | zero => exact ⟨[], s, by simp, rfl, rfl, by simp⟩
    | succ n ih =>
      obtain ⟨turns, s₁, hturns, hrun, hlength, hended⟩ := ih (Nat.le_of_succ_le hcount)
      obtain ⟨count, s', hrun', hlength', ⟨q, hq, hqended⟩, hothers⟩ :=
        finishes (k := k) (List.getElem?_eq_getElem (hlength ▸ hcount : n < s₁.parties.length))
      refine ⟨turns ++ List.replicate count (.go n), s', ?_, ?_, hlength'.trans hlength, ?_⟩
      · intro turn hturn
        obtain hturn | hturn := List.mem_append.1 hturn
        · exact hturns turn hturn
        · exact ⟨n, List.eq_of_mem_replicate hturn⟩
      · rw [run_append, hrun]
        exact hrun'
      · intro i hi q' hq'
        obtain hlt | rfl := Nat.lt_or_eq_of_le (Nat.le_of_lt_succ hi)
        · exact hended i hlt q' (hothers i (Nat.ne_of_gt hlt) ▸ hq')
        · cases hq.symm.trans hq'
          exact hqended
  obtain ⟨turns, s', hturns, hrun, hlength, hended⟩ := hfirst _ (Nat.le_refl _)
  refine ⟨turns, s', hturns, hrun, fun q hq => ?_⟩
  obtain ⟨i, hi⟩ := List.mem_iff_getElem?.1 hq
  exact hended i (hlength ▸ (List.getElem?_eq_some_iff.1 hi).1) q hi

end

end Traffic

end GuestThreads.World
