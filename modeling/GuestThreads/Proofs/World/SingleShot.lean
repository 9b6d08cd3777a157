import GuestThreads.Proofs.Fault
import GuestThreads.Proofs.World.Hosting
import GuestThreads.Wasm.Interpreter

/-!
# A worker takes one message

Any number of calls may wait at a worker's inbox and hand it messages at the same time. The first
that delivers a message brings the thread up. Any other finds the message taken, however the
bring-up goes and however far it has come, and touches nothing but the log.
-/

namespace GuestThreads.World

open Worker (BringUp Driver Inbox Message Note Progress State)

variable {α β : Type}

/-! ## What a worker drives -/

/-- Whatever may happen. -/
def anything : Frame where
  rel _ _ := True
  refl _ := trivial
  trans _ _ := trivial

/-- What is noted about guest code. -/
def Event.OfGuest : Event → Prop
  | .signalled _ => True
  | .posted _ => True
  | _ => False

/-- Worker `k` is left alone. -/
def apart (k : Nat) : Contract Unit where
  rely := anything
  step _ event w _ w' := (∀ e ∈ event, e.OfGuest) ∧ w'.workers[k]? = w.workers[k]?

/-- Whatever is driven in this way leaves worker `k` alone. -/
structure Conduct.Apart (k : Nat) (c : Conduct) : Prop where
  instantiate : ∀ msg w, (c.instantiate msg).Honours (apart k) () (fun _ _ => True) w
  setGlobal : ∀ g name v w, (c.setGlobal g name v).Honours (apart k) () (fun _ _ => True) w
  call : ∀ g name args w, (c.call g name args).Honours (apart k) () (fun _ _ => True) w
  close : ∀ g w, (c.close g).Honours (apart k) () (fun _ _ => True) w

theorem tally_workers (sink : Option Sink) (s : Signal) (w : World) :
    (tally sink s w).2.workers = w.workers := by
  match sink with
  | none | some (.inbox b) => rfl
  | some (.relay r) =>
    cases hr : w.relays[r]? with
    | none => rw [tally_none hr]
    | some entry => rw [tally_some hr]

theorem leave_workers (outbox : Outbox) (s : Signal) (w : World) :
    (leave outbox s w).2.workers = w.workers := by
  cases outbox <;> rfl

theorem post_apart (k : Nat) (sink : Option Sink) (s : Signal) (w : World) :
    (Course.ofProcess (.post sink s)).Honours (apart k) () (fun _ _ => True) w := by
  refine Course.honours_ofProcess fun v _ => ⟨(), ⟨?_, by rw [tally_workers]⟩, ?_⟩
  · rintro _ ⟨⟩
    trivial
  · cases (tally sink s v).1 with
    | none => exact fun _ _ => ⟨rfl, trivial⟩
    | some passed =>
      intro v' _
      refine ⟨(), ⟨?_, by rw [leave_workers]⟩, ?_⟩
      · rintro _ ⟨⟩
        trivial
      · cases (leave passed.1 passed.2 v').1 with
        | none => exact fun _ _ => ⟨rfl, trivial⟩
        | some m => exact fun _ _ => ⟨(), ⟨nofun, rfl⟩, fun _ _ => ⟨rfl, trivial⟩⟩

theorem hosting_apart [Wasm.Machine] (k : Nat) (sink : Option Sink) :
    Hosting (apart k) () aside (fun _ => True) sink where
  indifferent := aside_indifferent
  stable _ _ := trivial
  quiet h _ := ⟨⟨nofun, by rw [h.workers]⟩, trivial⟩
  post s _ := post_apart k sink s _

/-- Guests leave all workers alone. -/
theorem Conduct.guests_apart [Wasm.Machine] (k : Nat) (entry : WorkerEntry) (cancelled : Bool) :
    (Conduct.guests entry cancelled).Apart k where
  instantiate msg w := by
    change (Course.makeInstance entry cancelled msg).Honours _ _ _ w
    unfold Course.makeInstance
    split
    · refine ((hosting_apart k _).instantiate (R := fun _ _ => True) (fun _ _ _ _ _ => trivial)
        (fun _ _ _ _ _ => trivial) _ _ _ _ trivial).bind fun n v _ => ?_
      exact (hosting_apart k none).value trivial _
    · exact (hosting_apart k none).atom' (makeInstance_aside _ _ _) trivial
  setGlobal g name v w :=
    (hosting_apart k none).atom' (guest_setGlobal_keeps aside_indifferent g name v) trivial
  call g name args w := by
    change (Course.callGuest g cancelled name args).Honours _ _ _ w
    cases g with
    | live n =>
      refine ((hosting_apart k none).atom' (findFunction_keeps n name) trivial).bind
        fun found v _ => ?_
      exact (hosting_apart k found.1.sink).callFunction _ _ _ _ _ _ trivial
    | scripted n => exact (hosting_apart k none).atom' (guest_call_aside _ _ _ _) trivial
  close g w := (hosting_apart k none).atom' (guest_close_keeps aside_indifferent g) trivial

/-! ## The bring-up under way -/

/-- A message has reached worker `k`. -/
def Handled (k : Nat) (w : World) : Prop :=
  ∃ e, w.workers[k]? = some e ∧ e.progress.handled = true

theorem Handled.of_workers {k : Nat} {w w' : World} (h : Handled k w)
    (hw : w'.workers[k]? = w.workers[k]?) : Handled k w' := by
  obtain ⟨e, he, hhandled⟩ := h
  exact ⟨e, hw.trans he, hhandled⟩

/-- No one takes a message back. -/
def taken (k : Nat) : Frame where
  rel w w' := Handled k w → Handled k w'
  refl _ := id
  trans h g hw := g (h hw)

theorem Keeps.taken_of_workers {k : Nat} {act : Act α} (h : ∀ w, (act w).2.workers = w.workers) :
    Keeps (taken k) act := fun w hw => hw.of_workers (congrArg (·[k]?) (h w))

theorem setWorker_taken (k : Nat) {f : WorkerEntry → WorkerEntry}
    (hf : ∀ e, e.progress.handled = true → (f e).progress.handled = true) :
    Keeps (taken k) (setWorker k f) := by
  rintro w ⟨e, he, hhandled⟩
  refine ⟨f e, ?_, hf e hhandled⟩
  change (w.workers.modify k f)[k]? = _
  rw [Array.getElem?_modify, if_pos rfl, he]
  rfl

/-- What is noted about a bring-up once the guest is being made. -/
def Event.Underway : Event → Prop
  | .delivered => False
  | .asked (.instantiate _) => False
  | _ => True

/-- The bring-up of worker `k` goes on. -/
def underway (k : Nat) : Contract Unit where
  rely := anything
  step _ event w _ w' := (∀ e ∈ event, e.Underway) ∧ (taken k).rel w w'

theorem Course.Honours.underway {k : Nat} {p : Course α} {w : World}
    (h : p.Honours (apart k) () (fun _ _ => True) w) :
    p.Honours (underway k) () (fun _ _ => True) w := by
  refine Process.Honours.weaken h id fun hstep => ⟨fun e he => ?_, fun hw => hw.of_workers hstep.2⟩
  have hguest := hstep.1 e he
  cases e <;> trivial

theorem taken_observed (k : Nat) : (taken k).Observed k where
  logs w _ := (taken k).refl w
  spans w _ := (taken k).refl w
  started w _ := setWorker_taken k (fun _ _ => rfl) w
  advanced w state := setWorker_taken k (f := fun e => { e with
    progress := { e.progress with state := state }, span := e.span.event state.name })
    (fun _ he => he) w

theorem observe_taken (k : Nat) (entry : WorkerEntry) (msg : Message Nat) (n : Note) :
    Keeps (taken k) (observe k entry msg n) :=
  observe_keeps (taken_observed k) entry msg n

section

variable {c : Conduct} {k : Nat} (entry : WorkerEntry) (msg : Message Nat)

/-- An action of the worker itself, as a piece of a bring-up. -/
theorem honours_own {act : Act α} (h : Keeps (taken k) act) (w : World) :
    (Course.atom (act : Try α)).Honours (underway k) () (fun _ _ => True) w :=
  fun v _ => ⟨(), ⟨nofun, h v⟩, fun _ _ => ⟨rfl, fun _ _ => trivial⟩⟩

/-- A request to the guest and what follows from its outcome. -/
theorem honours_request {e : Event} (he : e.Underway) {p : Course α}
    {f : Except Fault α → Process β}
    {w : World} (hp : ∀ v, p.Honours (apart k) () (fun _ _ => True) v)
    (hf : ∀ r v, (f r).Honours (underway k) (fun _ _ _ => True) () v) :
    (Process.note e (p.run >>= f)).Honours (underway k) (fun _ _ _ => True) () w := by
  intro v _
  refine ⟨(), ⟨?_, id⟩, ?_⟩
  · rintro _ ⟨⟩
    exact he
  · exact Process.Honours.bind (hp _).underway fun r g v _ => hf r v

theorem honours_carryOut (hc : c.Apart k) {p : Guest → Prop} {b : BringUp Guest} (hb : b.About p)
    (state : State) (w : World) :
    (Process.carryOut c k entry msg b state).Honours (underway k) (fun _ _ _ => True) () w := by
  induction b generalizing state w with
  | instantiate next ih => exact hb.elim
  | setGlobal g name v next ih =>
    exact honours_request (e := .asked (.setGlobal g name v)) trivial (hc.setGlobal g name v)
      fun r v => ih r (hb.2 r) state v
  | params g name next ih =>
    exact Process.Honours.bind (P := fun _ _ _ => True)
      (fun v _ => ⟨(), ⟨nofun, id⟩, fun _ _ => trivial⟩) fun r g v _ => ih r (hb.2 r) state v
  | call g name arg next ih =>
    exact honours_request (e := .asked (.call g name [arg])) trivial (hc.call g name [arg])
      fun r v => ih r (hb.2 r) state v
  | close g next ih =>
    exact honours_request (e := .asked (.close g)) trivial (hc.close g)
      fun r v => ih r (hb.2 r) state v
  | note n next ih =>
    exact Process.Honours.bind (P := fun _ _ _ => True)
      (fun v _ => ⟨(), ⟨nofun, observe_taken k entry msg n v⟩, fun _ _ => trivial⟩)
      fun r g v _ => ih hb _ v
  | done r => exact fun _ _ => trivial

theorem enterBridge_taken (g : Guest) : Keeps (taken k) (Course.enterBridge k entry g) :=
  .seq (.taken_of_workers fun _ => rfl) fun b =>
    .seq (setWorker_taken k fun _ he => he) fun _ => .done b

theorem honours_settle (before : Progress) (ended : Except Fault Guest × State) (w : World) :
    (Course.settle k entry msg before ended).Honours (underway k) () (fun _ _ => True) w := by
  obtain ⟨f | g, state⟩ := ended
  · refine (honours_own (setWorker_taken k fun _ _ => rfl) w).bind fun _ v _ => ?_
    refine (honours_own (observe_taken k entry msg _) v).bind fun _ v' _ => ?_
    exact Course.honours_fault _
  · refine (honours_own (setWorker_taken k fun _ _ => rfl) w).bind fun _ v _ => ?_
    refine (honours_own (enterBridge_taken entry g) v).bind fun b v' _ => ?_
    refine (honours_own (observe_taken k entry msg _) v').bind fun _ u _ => ?_
    exact Course.honours_value fun _ _ => trivial

/-- A bring-up asks for its guest first of all, and never again. -/
theorem bringUp_asks (hc : c.Apart k) (before : Progress) :
    ∃ rest, Course.bringUp c k entry msg before =
        Process.note (.asked (.instantiate msg.bytes)) rest ∧
      ∀ w, Process.Honours (underway k) (fun _ _ _ => True) rest () w := by
  obtain ⟨next, hsteps, habout⟩ := Worker.steps_about (ι := Guest) entry.exports msg.stackPtr
    msg.tlsPtr msg.closurePtr
  let made : Process (Except Fault Guest × State) := do
    let r ← (c.instantiate msg).run
    .carryOut c k entry msg (next r) before.state
  refine ⟨(Course.ofProcess made >>= Course.settle k entry msg before : Course Nat), ?_, ?_⟩
  · unfold Course.bringUp
    rw [hsteps]
    rfl
  · intro w
    have hmade : made.Honours (underway k) (fun _ _ _ => True) () w :=
      Process.Honours.bind (hc.instantiate msg w).underway fun r g v _ =>
        honours_carryOut entry msg hc (habout r) before.state v
    have hall : (Course.ofProcess made >>= Course.settle k entry msg before).Honours (underway k) ()
        (fun _ _ => True) w :=
      (Course.honours_ofProcess (hmade.imp fun _ _ _ _ => ⟨rfl, trivial⟩)).bind
        fun ended v _ => honours_settle entry msg before ended v
    exact Process.Honours.imp hall fun _ _ _ _ => trivial

end

/-! ## Calls -/

/-- A call on a worker: what it finds in its inbox, and what is left to do. -/
structure Call where
  inbox : Inbox Nat
  rest : Process (Except Fault Nat)

/-- The calls on a worker, and what was noted about them in order. -/
structure Calls where
  world : World
  calls : List Call := []
  trace : List (Nat × Event) := []

namespace Calls

inductive Turn : Type 1 where
  /-- Another call is made. -/
  | enter (c : WorkerEntry → Conduct) (inbox : Inbox Nat)
  /-- A call goes on by a piece. -/
  | go (j : Nat)
  /-- Something else happens. -/
  | other (f : World → World)

/-- Everyone but the calls on worker `k` leaves it alone. -/
def Turn.Apart (k : Nat) : Turn → Prop
  | .enter c _ => ∀ entry, (c entry).Apart k
  | .go _ => True
  | .other f => ∀ w, (f w).workers[k]? = w.workers[k]?

/-- Call `j` has gone on by a piece. -/
def gone (s : Calls) (j : Nat) (call : Call) (event : Option Event)
    (rest : Process (Except Fault Nat)) (w : World) : Calls where
  world := w
  calls := s.calls.set j { call with rest := rest }
  trace := s.trace ++ event.toList.map fun e => (j, e)

/-- The calls on worker `k` after a turn, if it can be taken. -/
def step (k : Nat) (s : Calls) : Turn → Option Calls
  | .enter c inbox => some { s with
      calls := s.calls ++ [{ inbox := inbox, rest := Course.runWorker c k inbox }] }
  | .go j => do
    let call ← s.calls[j]?
    let (event, rest, w) ← call.rest.turn s.world
    return s.gone j call event rest w
  | .other f => some { s with world := f s.world }

def run (k : Nat) : Calls → List Turn → Option Calls
  | s, [] => some s
  | s, turn :: turns => (s.step k turn).bind fun s' => run k s' turns

/-- The call that was the first to deliver a message. -/
def first (s : Calls) : Option Nat :=
  s.trace.findSome? fun
    | (j, .delivered) => some j
    | _ => none

/-- The guests that were asked for, by the calls that asked. -/
def instantiations (s : Calls) : List (Nat × Bytes) :=
  s.trace.filterMap fun
    | (j, .asked (.instantiate bytes)) => some (j, bytes)
    | _ => none

theorem step_go {k j : Nat} {s s' : Calls} (h : s.step k (.go j) = some s') :
    ∃ call event rest w, s.calls[j]? = some call ∧ call.rest.turn s.world = some (event, rest, w) ∧
      s' = s.gone j call event rest w := by
  obtain ⟨call, hcall, h₁⟩ := Option.bind_eq_some_iff.1 h
  obtain ⟨⟨event, rest, w⟩, hturn, h₂⟩ := Option.bind_eq_some_iff.1 h₁
  cases h₂
  exact ⟨call, event, rest, w, hcall, hturn, rfl⟩

end Calls

/-! ## Calls that have nothing to do -/

/-- The answer to a call that is not the first to deliver a message. -/
def lateAnswer : Inbox Nat → Except Fault Nat
  | .message _ => .error Worker.alreadyBootstrapped
  | .closed => .error (.protocolViolation "inbox closed before bootstrap message")
  | .cancelled => .error (.external .cancelled)

/-- A call that has not taken the message, at most `n` pieces before its end if it never does. -/
inductive Standing (k : Nat) : Inbox Nat → Nat → Process (Except Fault Nat) → Prop
  | unread {c : WorkerEntry → Conduct} (hc : ∀ entry, (c entry).Apart k) (inbox : Inbox Nat) :
      Standing k inbox 3 (Course.runWorker c k inbox)
  | waiting {c : Conduct} (hc : c.Apart k) (entry : WorkerEntry) (msg : Message Nat) :
      Standing k (.message msg) 2 (Course.handle c k entry msg)
  | ignoring (entry : WorkerEntry) (msg : Message Nat) :
      Standing k (.message msg) 1 (Course.ignore k entry msg)
  | answered (inbox : Inbox Nat) : Standing k inbox 0 (.done (lateAnswer inbox))

/-- A message is ignored: at most a record of that is written. -/
def Ignored (w w' : World) : Prop :=
  w' = w ∨ ∃ record, record.source = .worker ∧
    record.message = "bootstrap message ignored, worker already bootstrapped" ∧
    w' = { w with logs := w.logs.push record }

/-- The call that took the message, about to ask for its guest. -/
def Claiming (k : Nat) (msg : Message Nat) (p : Process (Except Fault Nat)) : Prop :=
  ∃ rest, p = .note (.asked (.instantiate msg.bytes)) rest ∧
    ∀ w, rest.Honours (underway k) (fun _ _ _ => True) () w

/-- What a call does in its next piece that has not taken the message. -/
inductive Stands (k : Nat) (inbox : Inbox Nat) (n : Nat) (w : World) :
    Option Event → Process (Except Fault Nat) → World → Prop
  | stays {p : Process (Except Fault Nat)} {m : Nat} (hm : m < n) (hp : Standing k inbox m p) :
      Stands k inbox n w none p w
  | ignores {p : Process (Except Fault Nat)} {m : Nat} {w' : World} (hm : m < n)
      (hp : Standing k inbox m p) (hinbox : ∃ msg, inbox = .message msg) (hw : Ignored w w') :
      Stands k inbox n w none p w'
  | late {p : Process (Except Fault Nat)} {m : Nat} (hm : m < n) (hp : Standing k inbox m p)
      (hhandled : Handled k w) : Stands k inbox n w (some .delivered) p w
  | claims {p : Process (Except Fault Nat)} {w' : World} {msg : Message Nat}
      (hinbox : inbox = .message msg) (hfree : ¬Handled k w) (hw : Handled k w')
      (hp : Claiming k msg p) : Stands k inbox n w (some .delivered) p w'

theorem runWorker_turn {k : Nat} {w : World} {e : WorkerEntry} (hw : w.workers[k]? = some e)
    (c : WorkerEntry → Conduct) (inbox : Inbox Nat) :
    Process.turn (Course.runWorker c k inbox) w =
      some (none, Course.attend (c e) k e inbox, w) := by
  change some (none, ExceptT.bindCont _ (workerEntry k w).1, (workerEntry k w).2) = _
  rw [(workerEntry_finds k).run hw]
  rfl

theorem handle_turn {k : Nat} {w : World} {e : WorkerEntry} (hw : w.workers[k]? = some e)
    (c : Conduct) (entry : WorkerEntry) (msg : Message Nat) :
    Process.turn (Course.handle c k entry msg) w = some (some .delivered,
      if e.progress.handled then Course.ignore k entry msg
      else Course.bringUp c k entry msg e.progress,
      if e.progress.handled then w else (observe k entry msg .started w).2) := by
  change some (some Event.delivered, Course.goOn c k entry msg (Course.claim k entry msg w).1,
    (Course.claim k entry msg w).2) = _
  rw [claim_run hw]
  rfl

theorem ignore_turn {k : Nat} {w : World} {e : WorkerEntry} (hw : w.workers[k]? = some e)
    (entry : WorkerEntry) (msg : Message Nat) :
    Process.turn (Course.ignore k entry msg) w = some (none,
      .done (.error Worker.alreadyBootstrapped),
      (observe k entry msg (.ignored e.progress.state) w).2) := by
  change some (none, ExceptT.bindCont _ (Course.noteIgnored k entry msg w).1,
    (Course.noteIgnored k entry msg w).2) = _
  rw [note_ignored_run hw]
  rfl

theorem ignored_observe (k : Nat) (entry : WorkerEntry) (msg : Message Nat) (state : State)
    (w : World) : Ignored w (observe k entry msg (.ignored state) w).2 := by
  have hrun := workerLog_run entry w .warn
    "bootstrap message ignored, worker already bootstrapped" [("state", .text state.name)]
  change Ignored w ((workerLog entry .warn
    "bootstrap message ignored, worker already bootstrapped" [("state", .text state.name)]).run w).2
  rw [hrun]
  cases entry.logs with
  | true => exact .inr ⟨_, rfl, rfl, rfl⟩
  | false => exact .inl rfl

theorem handled_started {k : Nat} {w : World} {e : WorkerEntry} (hw : w.workers[k]? = some e)
    (entry : WorkerEntry) (msg : Message Nat) : Handled k (observe k entry msg .started w).2 := by
  refine ⟨{ e with
    progress := { e.progress with handled := true }, span := bootstrapSpan entry msg }, ?_, rfl⟩
  change (w.workers.modify k _)[k]? = _
  rw [Array.getElem?_modify, if_pos rfl, hw]
  rfl

theorem Standing.stands {k n : Nat} {inbox : Inbox Nat} {p p' : Process (Except Fault Nat)}
    {w w' : World} {e : WorkerEntry} {event : Option Event} (h : Standing k inbox n p)
    (hw : w.workers[k]? = some e) (hturn : p.turn w = some (event, p', w')) :
    Stands k inbox n w event p' w' := by
  cases h with
  | unread hc inbox =>
    cases (runWorker_turn hw _ inbox).symm.trans hturn
    cases inbox with
    | message msg => exact .stays (by decide) (.waiting (hc e) e msg)
    | closed => exact .stays (by decide) (.answered .closed)
    | cancelled => exact .stays (by decide) (.answered .cancelled)
  | waiting hc entry msg =>
    cases (handle_turn hw _ entry msg).symm.trans hturn
    cases hhandled : e.progress.handled with
    | true => exact .late (by decide) (.ignoring entry msg) ⟨e, hw, hhandled⟩
    | false =>
      refine .claims rfl ?_ (handled_started hw entry msg) (bringUp_asks entry msg hc e.progress)
      rintro ⟨e', he', hhandled'⟩
      cases hw.symm.trans he'
      cases hhandled.symm.trans hhandled'
  | ignoring entry msg =>
    cases (ignore_turn hw entry msg).symm.trans hturn
    exact .ignores (by decide) (.answered (.message msg)) ⟨msg, rfl⟩
      (ignored_observe k entry msg _ w)
  | answered => cases hturn

theorem Standing.turns {k n : Nat} {inbox : Inbox Nat} {p : Process (Except Fault Nat)}
    (h : Standing k inbox n p) (w : World) :
    p = .done (lateAnswer inbox) ∨ ∃ event p' w', p.turn w = some (event, p', w') := by
  cases h with
  | unread | waiting | ignoring => exact .inr ⟨_, _, _, rfl⟩
  | answered => exact .inl rfl

theorem Standing.le_three {k n : Nat} {inbox : Inbox Nat} {p : Process (Except Fault Nat)}
    (h : Standing k inbox n p) : n ≤ 3 := by
  cases h <;> decide

theorem Standing.answer_eq {k n : Nat} {inbox : Inbox Nat} {p : Process (Except Fault Nat)}
    {r : Except Fault Nat} (h : Standing k inbox n p) (hp : p = .done r) :
    r = lateAnswer inbox := by
  obtain hdone | ⟨event, p', w', hturn⟩ := h.turns {}
  · exact Process.done.inj (hp.symm.trans hdone)
  · rw [hp] at hturn
    cases hturn

/-! ## All calls together -/

namespace Calls

variable {k : Nat} {entry : WorkerEntry} {s s' : Calls}

/-- The call that took the message, and what it has asked for by now. -/
def Leads (k j : Nat) (call : Call) (s : Calls) : Prop :=
  ∃ msg, call.inbox = .message msg ∧
    (s.instantiations = [] ∧ Claiming k msg call.rest ∨
      s.instantiations = [(j, msg.bytes)] ∧
        ∀ w, call.rest.Honours (underway k) (fun _ _ _ => True) () w)

/-- One call at most has taken the message, and the others stand. -/
structure Sound (k : Nat) (entry : WorkerEntry) (s : Calls) : Prop where
  fresh : s.first = none → s.trace = [] ∧ s.world.workers[k]? = some entry
  leads : ∀ j, s.first = some j →
    Handled k s.world ∧ ∃ call, s.calls[j]? = some call ∧ Leads k j call s
  stands : ∀ i call, s.calls[i]? = some call → s.first ≠ some i →
    ∃ n, Standing k call.inbox n call.rest
  asked : ∀ i e, (i, .asked e) ∈ s.trace → s.first = some i

theorem Sound.worker (h : Sound k entry s) : ∃ e, s.world.workers[k]? = some e := by
  cases hfirst : s.first with
  | none => exact ⟨entry, (h.fresh hfirst).2⟩
  | some j =>
    obtain ⟨⟨e, he, -⟩, -⟩ := h.leads j hfirst
    exact ⟨e, he⟩

theorem Sound.handled_iff (h : Sound k entry s) (hentry : entry.progress.handled = false) :
    Handled k s.world ↔ s.first ≠ none := by
  constructor
  · rintro ⟨e, he, hhandled⟩ hfirst
    cases (h.fresh hfirst).2.symm.trans he
    cases hentry.symm.trans hhandled
  · intro hfirst
    obtain ⟨j, hj⟩ := Option.ne_none_iff_exists'.1 hfirst
    exact (h.leads j hj).1

section Gone

variable (s : Calls) (j : Nat) (call : Call) (rest : Process (Except Fault Nat)) (w : World)

theorem first_gone {event : Option Event} (h : ∀ e ∈ event, e ≠ .delivered) :
    (s.gone j call event rest w).first = s.first := by
  rw [first, gone, List.findSome?_append]
  cases event with
  | none => simp [first]
  | some e =>
    have he := h e rfl
    cases e <;> first | exact absurd rfl he | simp [first]

theorem first_delivered :
    (s.gone j call (some .delivered) rest w).first = s.first.or (some j) := by
  rw [first, gone, List.findSome?_append]
  rfl

theorem first_gone_of_some {s : Calls} {i j : Nat} {call : Call} {event : Option Event}
    {rest : Process (Except Fault Nat)} {w : World} (h : s.first = some i) :
    (s.gone j call event rest w).first = some i := by
  rw [first] at h
  rw [first, gone, List.findSome?_append, h]
  rfl

theorem instantiations_gone {event : Option Event}
    (h : ∀ e ∈ event, ∀ bytes, e ≠ .asked (.instantiate bytes)) :
    (s.gone j call event rest w).instantiations = s.instantiations := by
  rw [instantiations, gone, List.filterMap_append]
  cases event with
  | none => simp [instantiations]
  | some e =>
    have he := h e rfl
    cases e with
    | asked e' =>
      cases e' with
      | instantiate bytes => exact absurd rfl (he bytes)
      | setGlobal | call | close => simp [instantiations]
    | delivered | signalled | posted => simp [instantiations]

theorem instantiations_asked (bytes : Bytes) :
    (s.gone j call (some (.asked (.instantiate bytes))) rest w).instantiations =
      s.instantiations ++ [(j, bytes)] := by
  rw [instantiations, gone, List.filterMap_append]
  rfl

variable {s j call rest w}

theorem mem_trace_gone {event : Option Event} {x : Nat × Event}
    (h : x ∈ (s.gone j call event rest w).trace) :
    x ∈ s.trace ∨ ∃ e, event = some e ∧ x = (j, e) := by
  obtain hold | hnew := List.mem_append.1 h
  · exact .inl hold
  · obtain ⟨e, he, rfl⟩ := List.mem_map.1 hnew
    exact .inr ⟨e, by simpa using he, rfl⟩

theorem calls_gone_self {event : Option Event} (h : s.calls[j]? = some call) :
    (s.gone j call event rest w).calls[j]? = some { call with rest := rest } := by
  have hj : j < s.calls.length := (List.getElem?_eq_some_iff.1 h).1
  simp [gone, hj]

theorem calls_gone_other {event : Option Event} {i : Nat} (h : i ≠ j) :
    (s.gone j call event rest w).calls[i]? = s.calls[i]? := by
  simp [gone, Ne.symm h]

end Gone

theorem Sound.enter (h : Sound k entry s) {c : WorkerEntry → Conduct}
    (hc : ∀ entry, (c entry).Apart k) (inbox : Inbox Nat) :
    Sound k entry { s with
      calls := s.calls ++ [{ inbox := inbox, rest := Course.runWorker c k inbox }] } where
  fresh := h.fresh
  leads j hj := by
    obtain ⟨hhandled, call, hcall, hleads⟩ := h.leads j hj
    exact ⟨hhandled, call,
      (List.getElem?_append_left (List.getElem?_eq_some_iff.1 hcall).1).trans hcall, hleads⟩
  stands i call hcall hi := by
    obtain hold | ⟨-, rfl⟩ := getElem?_concat_eq_some hcall
    · exact h.stands i call hold hi
    · exact ⟨3, .unread hc inbox⟩
  asked := h.asked

theorem Sound.other (h : Sound k entry s) {w : World} (hw : w.workers[k]? = s.world.workers[k]?) :
    Sound k entry { s with world := w } where
  fresh hfirst := ⟨(h.fresh hfirst).1, hw.trans (h.fresh hfirst).2⟩
  leads j hj := ⟨(h.leads j hj).1.of_workers hw, (h.leads j hj).2⟩
  stands := h.stands
  asked := h.asked

section

variable {j : Nat} {call : Call} {event : Option Event} {rest : Process (Except Fault Nat)}
  {w : World}

/-- The calls after a piece of one that has not taken the message and does not take it. -/
theorem Sound.stand (h : Sound k entry s) {n : Nat} (hcall : s.calls[j]? = some call)
    (hj : s.first ≠ some j) (hfirst : (s.gone j call event rest w).first = s.first)
    (hevent : ∀ e ∈ event, e = .delivered) (hworkers : w.workers = s.world.workers)
    (hrest : Standing k call.inbox n rest) : Sound k entry (s.gone j call event rest w) where
  fresh hnone := by
    rw [hfirst] at hnone
    have hquiet : event = none := by
      cases event with
      | none => rfl
      | some e =>
        cases hevent e rfl
        rw [first_delivered, hnone] at hfirst
        cases hfirst
    subst hquiet
    obtain ⟨htrace, hworker⟩ := h.fresh hnone
    exact ⟨by simp [gone, htrace], (congrArg (·[k]?) hworkers).trans hworker⟩
  leads i hi := by
    rw [hfirst] at hi
    obtain ⟨hhandled, leader, hleader, msg, hinbox, hleads⟩ := h.leads i hi
    have hij : i ≠ j := fun hij => hj (hij ▸ hi)
    refine ⟨hhandled.of_workers (congrArg (·[k]?) hworkers), leader, ?_, msg, hinbox, ?_⟩
    · rw [calls_gone_other hij]
      exact hleader
    · rw [instantiations_gone s j call rest w fun e he bytes => by rw [hevent e he]; nofun]
      exact hleads
  stands i other hother hi := by
    rw [hfirst] at hi
    by_cases hij : i = j
    · subst hij
      cases (calls_gone_self hcall).symm.trans hother
      exact ⟨n, hrest⟩
    · rw [calls_gone_other hij] at hother
      exact h.stands i other hother hi
  asked i e he := by
    rw [hfirst]
    obtain hold | ⟨e', he', heq⟩ := mem_trace_gone he
    · exact h.asked i e hold
    · cases heq
      cases hevent _ he'

/-- The calls after a piece of the one that has taken the message. -/
theorem Sound.lead (h : Sound k entry s) (hcall : s.calls[j]? = some call) (hj : s.first = some j)
    (hevent : ∀ e ∈ event, e ≠ .delivered) (hw : Handled k w)
    (hleads : Leads k j { call with rest := rest } (s.gone j call event rest w)) :
    Sound k entry (s.gone j call event rest w) := by
  have hfirst := first_gone s j call rest w hevent
  refine ⟨?_, ?_, ?_, ?_⟩
  · intro hnone
    cases hj.symm.trans (hfirst.symm.trans hnone)
  · intro i hi
    cases hj.symm.trans (hfirst.symm.trans hi)
    exact ⟨hw, _, calls_gone_self hcall, hleads⟩
  · intro i other hother hi
    rw [hfirst] at hi
    have hij : i ≠ j := fun hij => hi (hij ▸ hj)
    rw [calls_gone_other hij] at hother
    exact h.stands i other hother hi
  · intro i e he
    rw [hfirst]
    obtain hold | ⟨e', he', heq⟩ := mem_trace_gone he
    · exact h.asked i e hold
    · cases heq
      exact hj

/-- The calls after the message was taken. -/
theorem Sound.claim (h : Sound k entry s) (hcall : s.calls[j]? = some call) (hnone : s.first = none)
    {msg : Message Nat} (hinbox : call.inbox = .message msg) (hw : Handled k w)
    (hrest : Claiming k msg rest) :
    Sound k entry (s.gone j call (some .delivered) rest w) := by
  obtain ⟨htrace, -⟩ := h.fresh hnone
  have hfirst := first_delivered s j call rest w
  rw [hnone, Option.none_or] at hfirst
  refine ⟨?_, ?_, ?_, ?_⟩
  · intro hnone'
    cases hfirst.symm.trans hnone'
  · intro i hi
    cases hfirst.symm.trans hi
    refine ⟨hw, _, calls_gone_self hcall, msg, hinbox, .inl ⟨?_, hrest⟩⟩
    simp [instantiations, gone, htrace]
  · intro i other hother hi
    have hij : i ≠ j := fun hij => hi (hij ▸ hfirst)
    rw [calls_gone_other hij] at hother
    exact h.stands i other hother (hnone ▸ nofun)
  · intro i e he
    obtain hold | ⟨e', he', heq⟩ := mem_trace_gone he
    · rw [htrace] at hold
      cases hold
    · cases heq
      cases he'

end

theorem Sound.go (h : Sound k entry s) {j : Nat} (hentry : entry.progress.handled = false)
    (hstep : s.step k (.go j) = some s') : Sound k entry s' := by
  obtain ⟨call, event, rest, w, hcall, hturn, rfl⟩ := step_go hstep
  by_cases hj : s.first = some j
  · obtain ⟨hhandled, leader, hleader, msg, hinbox, hleads⟩ := h.leads j hj
    cases hcall.symm.trans hleader
    obtain ⟨hnone, rest', hrest', hhonours⟩ | ⟨hasked, hhonours⟩ := hleads
    · rw [hrest'] at hturn
      cases hturn
      refine h.lead hcall hj (by rintro _ ⟨⟩; nofun) hhandled ⟨msg, hinbox, .inr ⟨?_, hhonours⟩⟩
      rw [instantiations_asked, hnone]
      rfl
    · obtain ⟨_, ⟨hevent, htaken⟩, hnext⟩ := (hhonours s.world).turn hturn
      refine h.lead hcall hj ?_ (htaken hhandled)
        ⟨msg, hinbox, .inr ⟨?_, fun v => hnext.later trivial⟩⟩
      · rintro e he rfl
        exact hevent _ he
      · rw [instantiations_gone s j call rest w ?_]
        · exact hasked
        · rintro e he bytes rfl
          exact hevent _ he
  · obtain ⟨n, hstanding⟩ := h.stands j call hcall hj
    obtain ⟨e, he⟩ := h.worker
    cases hstanding.stands he hturn with
    | stays hm hp => exact h.stand hcall hj (first_gone s j call rest _ nofun) nofun rfl hp
    | ignores hm hp hinbox hw =>
      refine h.stand hcall hj (first_gone s j call rest _ nofun) nofun ?_ hp
      obtain rfl | ⟨record, -, -, rfl⟩ := hw <;> rfl
    | late hm hp hhandled =>
      have hfirst := (h.handled_iff hentry).1 hhandled
      obtain ⟨i, hi⟩ := Option.ne_none_iff_exists'.1 hfirst
      refine h.stand hcall hj ?_ (by rintro _ ⟨⟩; rfl) rfl hp
      rw [first_delivered, hi]
      rfl
    | claims hinbox hfree hw hp =>
      have hnone : s.first = none := by
        cases hfirst : s.first with
        | none => rfl
        | some i => exact absurd (h.leads i hfirst).1 hfree
      exact h.claim hcall hnone hinbox hw hp

theorem Sound.step (h : Sound k entry s) {turn : Turn} (hentry : entry.progress.handled = false)
    (hturn : turn.Apart k) (hstep : s.step k turn = some s') : Sound k entry s' := by
  cases turn with
  | enter c inbox =>
    cases hstep
    exact h.enter hturn inbox
  | go j => exact h.go hentry hstep
  | other f =>
    cases hstep
    exact h.other (hturn s.world)

theorem Sound.run (h : Sound k entry s) {turns : List Turn}
    (hentry : entry.progress.handled = false)
    (hturns : ∀ turn ∈ turns, turn.Apart k) (hrun : s.run k turns = some s') :
    Sound k entry s' := by
  induction turns generalizing s with
  | nil =>
    cases hrun
    exact h
  | cons turn turns ih =>
    obtain ⟨t, ht, hrest⟩ := Option.bind_eq_some_iff.1 hrun
    exact ih (h.step hentry (hturns turn (by simp)) ht) (fun u hu => hturns u (by simp [hu])) hrest

/-- A call that can no longer take the message is answered within its next few pieces. -/
theorem answered {j n : Nat} {call : Call} {e : WorkerEntry} (hcall : s.calls[j]? = some call)
    (hstanding : Standing k call.inbox n call.rest) (hworker : s.world.workers[k]? = some e)
    (hlate : Handled k s.world ∨ ∀ msg, call.inbox ≠ .message msg) :
    ∃ m ≤ n, ∃ s', s.run k (List.replicate m (.go j)) = some s' ∧
      s'.calls[j]? = some { call with rest := .done (lateAnswer call.inbox) } := by
  induction n using Nat.strongRecOn generalizing s call e with
  | ind n ih =>
    obtain hdone | ⟨event, rest, w, hturn⟩ := hstanding.turns s.world
    · exact ⟨0, Nat.zero_le n, s, rfl, hdone ▸ hcall⟩
    · have hstep : s.step k (.go j) = some (s.gone j call event rest w) := by
        simp [step, hcall, hturn]
      have hnext {m : Nat} (hm : m < n) (hrest : Standing k call.inbox m rest)
          (hworkers : w.workers = s.world.workers) :
          ∃ m ≤ n, ∃ s', s.run k (List.replicate m (.go j)) = some s' ∧
            s'.calls[j]? = some { call with rest := .done (lateAnswer call.inbox) } := by
        obtain ⟨m', hm', s', hrun, hend⟩ := ih m hm (s := s.gone j call event rest w) (e := e)
          (calls_gone_self hcall) hrest ((congrArg (·[k]?) hworkers).trans hworker)
          (hlate.imp_left fun hw => hw.of_workers (congrArg (·[k]?) hworkers))
        refine ⟨m' + 1, by omega, s', ?_, hend⟩
        rw [List.replicate_succ, run, hstep]
        exact hrun
      cases hstanding.stands hworker hturn with
      | stays hm hp => exact hnext hm hp rfl
      | ignores hm hp hinbox hw =>
        refine hnext hm hp ?_
        obtain rfl | ⟨record, -, -, rfl⟩ := hw <;> rfl
      | late hm hp hhandled => exact hnext hm hp rfl
      | claims hinbox hfree hw hp =>
        exact (hlate.elim hfree fun hnot => hnot _ hinbox).elim

/-- What holds of the calls on a worker at any time. -/
structure SingleShot (k : Nat) (entry : WorkerEntry) (s : Calls) : Prop where
  /-- Only the call that was the first to deliver a message turns to a guest. -/
  asked : ∀ j e, (j, .asked e) ∈ s.trace → s.first = some j
  /-- That call asks for a guest once, with its own message and in the piece that comes next. -/
  instantiates : ∀ j, s.first = some j → ∃ call msg,
    s.calls[j]? = some call ∧ call.inbox = .message msg ∧
      (s.instantiations = [(j, msg.bytes)] ∨
        s.instantiations = [] ∧ ∃ rest, call.rest = .note (.asked (.instantiate msg.bytes)) rest)
  /-- Any other call leaves everything as it is, but for the record of a message that is ignored. -/
  leaves : ∀ j s', s.step k (.go j) = some s' → s'.first ≠ some j →
    s'.world = s.world ∨ Ignored s.world s'.world ∧
      ∃ call msg, s.calls[j]? = some call ∧ call.inbox = .message msg
  answers : ∀ j call r, s.calls[j]? = some call → s.first ≠ some j → call.rest = .done r →
    r = lateAnswer call.inbox
  /-- A call that delivers a message too late breaks the protocol, and gets no bridge. -/
  refuses : ∀ j call msg r, s.calls[j]? = some call → call.inbox = .message msg →
    s.first ≠ some j → call.rest = .done r →
    ∃ f, r = .error f ∧ f.labels? = some ("protocol", "protocol_violation")
  /-- It is answered, unless it goes on to be the first. -/
  returns : ∀ j call, s.calls[j]? = some call → s.first ≠ some j →
    (s.first = none → ∀ msg, call.inbox ≠ .message msg) →
    ∃ n ≤ 3, ∃ s', s.run k (List.replicate n (.go j)) = some s' ∧
      s'.calls[j]? = some { call with rest := .done (lateAnswer call.inbox) }
  /-- As long as no message was delivered, nothing has happened to the worker, and it handles a
  message in full. -/
  fresh : s.first = none → s.trace = [] ∧ Fresh k entry s.world ∧
    ∀ drive msg, runWorkerOn drive k (.message msg) s.world = conclude k entry
      (Worker.handle (workerHost k entry msg (drive entry)) entry.exports {} msg s.world) s.world

theorem Sound.leaves (h : Sound k entry s) {j : Nat}
    (hstep : s.step k (.go j) = some s') (hj : s'.first ≠ some j) :
    s'.world = s.world ∨ Ignored s.world s'.world ∧
      ∃ call msg, s.calls[j]? = some call ∧ call.inbox = .message msg := by
  obtain ⟨call, event, rest, w, hcall, hturn, rfl⟩ := step_go hstep
  have hfirst : s.first ≠ some j := fun hfirst => hj (first_gone_of_some hfirst)
  obtain ⟨n, hstanding⟩ := h.stands j call hcall hfirst
  obtain ⟨e, he⟩ := h.worker
  cases hstanding.stands he hturn with
  | stays | late => exact .inl rfl
  | ignores hm hp hinbox hw =>
    obtain ⟨msg, hmsg⟩ := hinbox
    exact .inr ⟨hw, call, msg, hcall, hmsg⟩
  | claims hinbox hfree hw hp =>
    rw [first_delivered] at hj
    cases hnone : s.first with
    | none => exact absurd (by rw [hnone]; rfl) hj
    | some i => exact absurd (h.leads i hnone).1 hfree

theorem Sound.singleShot (h : Sound k entry s) (hfresh : entry.progress = {})
    (hbridge : entry.bridge = none) : SingleShot k entry s := by
  have hanswers (j : Nat) (call : Call) (r : Except Fault Nat) (hcall : s.calls[j]? = some call)
      (hj : s.first ≠ some j) (hr : call.rest = .done r) : r = lateAnswer call.inbox := by
    obtain ⟨n, hstanding⟩ := h.stands j call hcall hj
    exact hstanding.answer_eq hr
  refine ⟨h.asked, ?_, fun j s' => h.leaves, hanswers, ?_, ?_, ?_⟩
  · intro j hj
    obtain ⟨-, call, hcall, msg, hinbox, ⟨hnone, rest, hrest, -⟩ | ⟨hasked, -⟩⟩ := h.leads j hj
    · exact ⟨call, msg, hcall, hinbox, .inr ⟨hnone, rest, hrest⟩⟩
    · exact ⟨call, msg, hcall, hinbox, .inl hasked⟩
  · intro j call msg r hcall hinbox hj hr
    rw [hanswers j call r hcall hj hr, hinbox]
    exact ⟨Worker.alreadyBootstrapped, rfl, rfl⟩
  · intro j call hcall hj hlate
    obtain ⟨n, hstanding⟩ := h.stands j call hcall hj
    obtain ⟨e, he⟩ := h.worker
    have hlate' : Handled k s.world ∨ ∀ msg, call.inbox ≠ .message msg := by
      cases hfirst : s.first with
      | none => exact .inr (hlate hfirst)
      | some i => exact .inl (h.leads i hfirst).1
    obtain ⟨m, hm, hrest⟩ := answered hcall hstanding he hlate'
    exact ⟨m, Nat.le_trans hm hstanding.le_three, hrest⟩
  · intro hnone
    obtain ⟨htrace, hworker⟩ := h.fresh hnone
    refine ⟨htrace, ⟨hworker, hfresh, hbridge⟩, fun drive msg => ?_⟩
    rw [runWorkerOn_run hworker, hfresh]
    rfl

end Calls

/-- However many calls are made on a fresh worker and however they take turns with each other and
with the bring-up, the first that delivers a message brings the thread up and no other call touches
the worker or what it drives. The calls do what running a worker does, and guests leave workers
alone. -/
theorem worker_takes_one_message [Wasm.Machine] :
    (∀ (k : Nat) (entry : WorkerEntry) (w : World) (turns : List Calls.Turn) (s : Calls),
      Fresh k entry w → (∀ turn ∈ turns, turn.Apart k) →
      Calls.run k { world := w } turns = some s → Calls.SingleShot k entry s) ∧
    (∀ (c : WorkerEntry → Conduct) (d : WorkerEntry → Driver World Guest Nat),
      (∀ entry, (c entry).Follows (d entry)) → ∀ k inbox,
      Performs (Course.runWorker c k inbox) (runWorkerOn d k inbox)) ∧
    ∀ (k : Nat) (entry : WorkerEntry) (cancelled : Bool),
      (Conduct.guests entry cancelled).Follows (guestDriver entry cancelled) ∧
        (Conduct.guests entry cancelled).Apart k := by
  refine ⟨?_, fun c d h => Performs.runWorker h, fun k entry cancelled =>
    ⟨Conduct.guests_follows entry cancelled, Conduct.guests_apart k entry cancelled⟩⟩
  intro k entry w turns s hfresh hturns hrun
  have hentry : entry.progress.handled = false := by rw [hfresh.progress]
  have hstart : Calls.Sound k entry { world := w } :=
    ⟨fun _ => ⟨rfl, hfresh.worker⟩, nofun, nofun, nofun⟩
  exact (hstart.run hentry hturns hrun).singleShot hfresh.progress hfresh.bridge

/-- A guest that is made at once, takes its time over every call, and then traps. -/
def trapping : Conduct where
  instantiate _ := .atom (pure (.scripted 0))
  setGlobal _ _ _ := pure ()
  params _ _ _ := some [.i32]
  call _ _ _ := .atom (throw (.plain "unreachable"))
  close _ := pure ()

theorem trapping_apart (k : Nat) : trapping.Apart k where
  instantiate _ _ := (hosting_apart k none).atom' (.ok _) trivial
  setGlobal _ _ _ _ := (hosting_apart k none).value trivial _
  call _ _ _ _ := (hosting_apart k none).atom' (.fail _) trivial
  close _ _ := (hosting_apart k none).value trivial _

/-- Of two calls with a message the one that was made later delivers first, and its bring-up fails.
The other is refused in the middle of that bring-up, and a call that finds the inbox closed has no
effect. -/
theorem worker_takes_one_of_two_messages :
    let entry : WorkerEntry := { maker := .scripted 0, relay := 0 }
    let early : Message Nat := { bytes := [1], memory := none }
    let late : Message Nat := { bytes := [2], memory := none }
    let turns : List Calls.Turn := [
      .enter (fun _ => trapping) (.message late), .enter (fun _ => trapping) .closed,
      .enter (fun _ => trapping) (.message early), .go 0, .go 1, .go 2, .go 2, .go 0, .go 2, .go 0,
      .go 2, .go 2, .go 2, .go 2, .go 2, .go 2, .go 2, .go 2, .go 2, .go 2]
    ∃ s, Calls.run 0 { world := { workers := #[entry] } } turns = some s ∧
      s.trace.map (·.1) = [2, 0, 2, 2, 2, 2] ∧ s.first = some 2 ∧ s.instantiations = [(2, [1])] ∧
      s.world.workers[0]?.map (·.progress) =
        some { state := .stackSet, handled := true, failed := true } ∧
      Calls.SingleShot 0 entry s := by
  intro entry early late turns
  have hturns : ∀ turn ∈ turns, turn.Apart 0 := by
    simp [turns, Calls.Turn.Apart, trapping_apart]
  have hfresh : Fresh 0 entry { workers := #[entry] } := ⟨rfl, rfl, rfl⟩
  have hseen : (Calls.run 0 { world := { workers := #[entry] } } turns).map (fun s =>
      (s.trace.map (·.1), s.first, s.instantiations)) =
        some ([2, 0, 2, 2, 2, 2], some 2, [(2, [1])]) := by decide +kernel
  have hprogress : (Calls.run 0 { world := { workers := #[entry] } } turns).bind (fun s =>
      s.world.workers[0]?.map (·.progress)) =
        some { state := .stackSet, handled := true, failed := true } := by decide +kernel
  obtain ⟨s, hs, hsame⟩ := Option.map_eq_some_iff.1 hseen
  simp only [Prod.mk.injEq] at hsame
  obtain ⟨htrace, hfirst, hasked⟩ := hsame
  rw [hs] at hprogress
  exact ⟨s, hs, htrace, hfirst, hasked, hprogress,
    worker_takes_one_message.1 0 entry _ turns s hfresh hturns hs⟩

end GuestThreads.World
