import GuestThreads.Proofs.Worker.BringUp
import GuestThreads.Proofs.World.Guests

/-!
# The journal of a bring-up

The world keeps an account of each bring-up: the state in the worker's entry, the events of a span,
and log records. The account is written from the notes of the bring-up, and it is complete as long
as whatever the worker drives does not write to it.
-/

namespace GuestThreads.World

open Worker (BringUp Driver Host Message Note Progress Recording State)

/-- The records of states that workers entered. -/
def stepRecords (w : World) : List Log.Record :=
  w.logs.toList.filter fun r => r.source = .worker ∧ r.message = "bring-up step"

/-- The record of a worker that enters the state of that name. -/
def stepRecord (entry : WorkerEntry) (state : String) : Log.Record where
  level := .debug
  source := .worker
  message := "bring-up step"
  fields := [("thread", .int entry.id), ("state", .text state)]

def stepEvent (state : String) : Trace.Event := { name := state }

/-- The states that a bring-up enters one after the other, by name. -/
def stateNames : List String := ["instantiated", "stack_set", "tls_initialized", "running"]

theorem path_names (s : State) : s.path.map State.name = stateNames.take s.path.length := by
  cases s <;> rfl

/-- The state that worker `k` reports. -/
def reportedState (k : Nat) (w : World) : Option State := w.workers[k]?.map (·.progress.state)

/-- The account that worker `k` keeps of itself is the same in both worlds. -/
structure SameAccount (k : Nat) (w w' : World) : Prop where
  worker : w'.workers[k]? = w.workers[k]?
  spans : w'.spans = w.spans
  steps : w'.stepRecords = w.stepRecords

theorem stepRecords_eq_filter (w : World) :
    w.stepRecords =
      w.ownRecords.filter fun r => r.source = .worker ∧ r.message = "bring-up step" := by
  simp only [stepRecords, ownRecords, List.filter_filter]
  refine List.filter_congr fun r _ => ?_
  cases r.source <;> simp

theorem Aside.sameAccount {w w' : World} (h : Aside w w') (k : Nat) : SameAccount k w w' where
  worker := by rw [h.workers]
  spans := h.spans
  steps := by rw [stepRecords_eq_filter, stepRecords_eq_filter, h.records]

/-- Guests do not write to the account of any worker. -/
theorem guestDriver_aside [Wasm.Machine] (entry : WorkerEntry) (cancelled : Bool) :
    (guestDriver entry cancelled).Within Aside where
  instantiate msg w := makeInstance_aside entry cancelled msg w
  setGlobal g name v w := guest_setGlobal_keeps aside_indifferent g name v w
  call g name args w := guest_call_aside g cancelled name args w
  close g w := guest_close_keeps aside_indifferent g w

/-! ## Writing the account -/

variable (k : Nat) (entry : WorkerEntry) (msg : Message Nat) (w : World)

/-- What a worker logs, if it logs at all. -/
theorem workerLog_run (level : Log.Level) (message : String) (fields : List (String × Log.Value)) :
    ((workerLog entry level message fields).run w).2 = { w with
      logs := if entry.logs then w.logs.push {
          level := level, source := .worker, message := message
          fields := ("thread", .int entry.id) :: fields }
        else w.logs } := by
  unfold workerLog
  split <;> rfl

theorem stepRecords_workerLog (level : Log.Level) (message : String)
    (fields : List (String × Log.Value)) (h : message ≠ "bring-up step") :
    ((workerLog entry level message fields).run w).2.stepRecords = w.stepRecords := by
  rw [workerLog_run]
  cases entry.logs <;> simp [stepRecords, h]

theorem observe_advanced (s : State) :
    ((observe k entry msg (.advanced s)).run w).2 = { w with
      workers := w.workers.modify k fun e => { e with
        progress := { e.progress with state := s }
        span := e.span.event s.name }
      logs := if entry.logs then w.logs.push (stepRecord entry s.name) else w.logs } :=
  workerLog_run entry _ _ _ _

theorem stepRecords_advanced (s : State) :
    ((observe k entry msg (.advanced s)).run w).2.stepRecords =
      w.stepRecords ++ if entry.logs then [stepRecord entry s.name] else [] := by
  rw [observe_advanced]
  cases entry.logs <;> simp [stepRecords, stepRecord]

theorem observe_closeFailed (f : Fault) :
    SameAccount k w ((observe k entry msg (.closeFailed f)).run w).2 where
  worker := by
    change ((workerLog entry _ _ _).run w).2.workers[k]? = _
    rw [workerLog_run]
  spans := by
    change ((workerLog entry _ _ _).run w).2.spans = _
    rw [workerLog_run]
  steps := stepRecords_workerLog entry w _ _ _ (by decide)

/-- The account at the end of a bring-up, when its span is ended by `f`. -/
structure Ended (f : Trace.Span → Trace.Span) (e : WorkerEntry) (w w' : World) : Prop where
  workers : w'.workers = w.workers
  spans : w'.spans = w.spans.push (f e.span)
  steps : w'.stepRecords = w.stepRecords

theorem endSpan_ended {e : WorkerEntry} (he : w.workers[k]? = some e) (level : Log.Level)
    (message : String) (fields : List (String × Log.Value)) (h : message ≠ "bring-up step")
    (f : Trace.Span → Trace.Span) :
    Ended f e w ((endSpan k f).run ((workerLog entry level message fields).run w).2).2 := by
  have hsteps := stepRecords_workerLog entry w level message fields h
  rw [workerLog_run] at hsteps ⊢
  have hrun : ∀ logs, ((endSpan k f).run { w with logs := logs }).2 =
      { w with logs := logs, spans := w.spans.push (f e.span) } := by
    intro logs
    unfold endSpan
    refine (modify_run _ _).trans ?_
    dsimp only
    rw [he]
  rw [hrun]
  exact ⟨rfl, rfl, hsteps⟩

theorem observe_failed {e : WorkerEntry} (he : w.workers[k]? = some e) (state : State) (f : Fault) :
    Ended (·.fail f.message) e w ((observe k entry msg (.failed state f)).run w).2 :=
  endSpan_ended k entry w he _ _ _ (by decide) _

theorem observe_returned {e : WorkerEntry} (he : w.workers[k]? = some e) :
    Ended (fun span => { span with status := .ok }) e w
      ((observe k entry msg .returned).run w).2 :=
  endSpan_ended k entry w he _ _ _ (by decide) _

/-! ## Keeping the account -/

/-- The account of worker `k` in the middle of a bring-up, as told by its notes. -/
structure Accounted (rec : Recording World Guest) : Prop where
  worker : rec.world.workers[k]? = some { entry with
    progress := { state := rec.state, handled := true }
    span := { bootstrapSpan entry msg with events := rec.reached.map (stepEvent ·.name) } }
  spans : rec.world.spans = w.spans
  steps : rec.world.stepRecords =
    w.stepRecords ++ if entry.logs then rec.reached.map (stepRecord entry ·.name) else []
  seen : rec.seen.map (reportedState k) = rec.effects.map (some ·.2)

variable {k entry msg w}

theorem Accounted.perform {rec : Recording World Guest} {α : Type} (h : Accounted k entry msg w rec)
    (e : Worker.Effect Guest) (r : α × World) (hr : SameAccount k rec.world r.2) :
    Accounted k entry msg w (rec.perform e r).2 where
  worker := hr.worker.trans h.worker
  spans := hr.spans.trans h.spans
  steps := hr.steps.trans h.steps
  seen := by
    have hstate : reportedState k rec.world = some rec.state := by
      rw [reportedState, h.worker]
      rfl
    simp [Recording.perform, h.seen, hstate]

theorem Accounted.observe {rec : Recording World Guest} (h : Accounted k entry msg w rec) {n : Note}
    (hn : n.Underway) :
    Accounted k entry msg w (rec.observe n ((World.observe k entry msg n).run rec.world).2) := by
  cases n with
  | advanced s =>
    have hreached : (rec.observe (.advanced s)
        ((World.observe k entry msg (.advanced s)).run rec.world).2).reached = rec.reached ++ [s] :=
      Recording.reached_observe rec (.advanced s) _
    refine ⟨?_, ?_, ?_, h.seen⟩
    · rw [hreached, observe_advanced]
      simp [Recording.observe, Array.getElem?_modify, h.worker, Trace.Span.event, Note.apply,
        stepEvent]
    · rw [observe_advanced]
      exact h.spans
    · rw [hreached]
      change ((World.observe k entry msg (.advanced s)).run rec.world).2.stepRecords = _
      rw [stepRecords_advanced, h.steps]
      cases entry.logs <;> simp
  | closeFailed f =>
    have hreached : (rec.observe (.closeFailed f)
        ((World.observe k entry msg (.closeFailed f)).run rec.world).2).reached = rec.reached := by
      simp [Note.entered?]
    have hsame := observe_closeFailed k entry msg rec.world f
    refine ⟨?_, hsame.spans.trans h.spans, ?_, h.seen⟩
    · rw [hreached]
      exact hsame.worker.trans h.worker
    · rw [hreached]
      exact hsame.steps.trans h.steps
  | started | failed | returned | ignored => cases hn

/-- The worker has received no message, and reports no bridge. -/
structure Fresh (k : Nat) (entry : WorkerEntry) (w : World) : Prop where
  worker : w.workers[k]? = some entry
  progress : entry.progress = {}
  bridge : entry.bridge = none

theorem Fresh.accounted (h : Fresh k entry w) (driver : Driver World Guest Nat) :
    Accounted k entry msg w
      ((workerHost k entry msg driver).recorded.observe .started { world := w }) where
  worker := by
    change (w.workers.modify k _)[k]? = _
    rw [Array.getElem?_modify, if_pos rfl, h.worker, Option.map_some, h.progress]
    rfl
  spans := rfl
  steps := by
    change w.stepRecords = w.stepRecords ++ if entry.logs then [] else []
    rw [ite_self, List.append_nil]
  seen := rfl

/-- The account is kept all along the bring-up of a fresh worker. -/
theorem Fresh.carryOut (h : Fresh k entry w) {driver : Driver World Guest Nat}
    (hdriver : driver.Within (SameAccount k)) (stackPtr tlsPtr closurePtr : UInt32) :
    let host := workerHost k entry msg driver
    Accounted k entry msg w (Worker.carryOut host.recorded msg
      (.steps entry.exports stackPtr tlsPtr closurePtr) .uninitialized
      (host.recorded.observe .started { world := w })).2.2 := by
  refine Worker.carryOut_invariant ?_ ?_ msg (Worker.steps_notes _ _ _ _) _ (h.accounted driver)
  · exact
      { instantiate := fun _ rec hrec => hrec.perform _ _ (hdriver.instantiate _ rec.world)
        setGlobal := fun _ _ _ rec hrec => hrec.perform _ _ (hdriver.setGlobal _ _ _ rec.world)
        call := fun _ _ _ rec hrec => hrec.perform _ _ (hdriver.call _ _ _ rec.world)
        close := fun _ rec hrec => hrec.perform _ _ (hdriver.close _ rec.world) }
  · exact fun n rec hn hrec => hrec.observe hn

/-- What the span of a bring-up tells that entered the given states and ended with `r`. -/
structure Tells (entry : WorkerEntry) (msg : Message Nat) (states : List String)
    (r : Except Fault Guest) (span : Trace.Span) : Prop where
  name : span.name = "worker.bootstrap"
  attributes : span.attributes = (bootstrapSpan entry msg).attributes
  returned : ∀ g, r = .ok g → span.status = .ok ∧ span.events = states.map stepEvent
  failed : ∀ f, r = .error f → span.status = .error f.message ∧
    span.events = states.map stepEvent ++
      [{ name := "exception", attributes := [("exception.message", .text f.message)] }]

theorem tells_returned (entry : WorkerEntry) (msg : Message Nat) (states : List String)
    (g : Guest) :
    Tells entry msg states (.ok g)
      { bootstrapSpan entry msg with events := states.map stepEvent, status := .ok } where
  name := rfl
  attributes := rfl
  returned _ _ := ⟨rfl, rfl⟩
  failed _ h := by cases h

theorem tells_failed (entry : WorkerEntry) (msg : Message Nat) (states : List String) (f : Fault) :
    Tells entry msg states (.error f)
      (Trace.Span.fail { bootstrapSpan entry msg with events := states.map stepEvent }
        f.message) where
  name := rfl
  attributes := rfl
  returned _ h := by cases h
  failed _ h := by
    cases h
    exact ⟨rfl, rfl⟩

/-- The account of a bring-up that ended with `r`. -/
structure Closed (k : Nat) (entry : WorkerEntry) (msg : Message Nat) (w : World)
    (r : Except Fault Guest) (rec : Recording World Guest) : Prop where
  worker : ∃ e, rec.world.workers[k]? = some e ∧ e.bridge = none
  spans : ∃ span, rec.world.spans = w.spans.push span ∧
    Tells entry msg (rec.reached.map State.name) r span
  steps : rec.world.stepRecords =
    w.stepRecords ++ if entry.logs then rec.reached.map (stepRecord entry ·.name) else []
  seen : rec.seen.map (reportedState k) = rec.effects.map (some ·.2)

theorem Accounted.closed {rec : Recording World Guest} (h : Accounted k entry msg w rec)
    (hbridge : entry.bridge = none) {n : Note} (hn : n.entered? = none)
    {f : Trace.Span → Trace.Span}
    {w' : World} {r : Except Fault Guest}
    (hended : ∀ e, rec.world.workers[k]? = some e → Ended f e rec.world w')
    (hspan : Tells entry msg (rec.reached.map State.name) r
      (f { bootstrapSpan entry msg with events := (rec.reached.map State.name).map stepEvent })) :
    Closed k entry msg w r (rec.observe n w') := by
  have hreached : (rec.observe n w').reached = rec.reached := by simp [hn]
  have hclosed := hended _ h.worker
  refine ⟨⟨_, (congrArg (·[k]?) hclosed.workers).trans h.worker, hbridge⟩, ?_, ?_, h.seen⟩
  · rw [hreached, ← h.spans]
    refine ⟨_, hclosed.spans, ?_⟩
    rw [List.map_map] at hspan
    exact hspan
  · rw [hreached]
    exact hclosed.steps.trans h.steps

theorem Fresh.handle (h : Fresh k entry w) (msg : Message Nat) {driver : Driver World Guest Nat}
    (hdriver : driver.Within (SameAccount k)) :
    let out := Worker.handle (workerHost k entry msg driver).recorded entry.exports {} msg
      { world := w }
    Closed k entry msg w out.1 out.2.2 := by
  let host := workerHost k entry msg driver
  have haccount : Accounted k entry msg w _ :=
    h.carryOut hdriver msg.stackPtr msg.tlsPtr msg.closurePtr
  rcases hout : Worker.carryOut host.recorded msg
    (.steps entry.exports msg.stackPtr msg.tlsPtr msg.closurePtr) .uninitialized
    (host.recorded.observe .started { world := w }) with ⟨result, state, rec⟩
  rw [hout] at haccount
  rw [Worker.handle_first host.recorded msg entry.exports hout]
  cases result with
  | error f =>
    exact haccount.closed h.bridge rfl
      (fun e he => observe_failed k entry msg rec.world he state f) (tells_failed entry msg _ f)
  | ok inst =>
    exact haccount.closed h.bridge rfl (fun e he => observe_returned k entry msg rec.world he)
      (tells_returned entry msg _ inst)

/-! ## What a worker reports -/

/-- What a worker reports once it has acted on its first message. Its bring-up entered the first
`n` states and ended with `r` and `p`, and `answer` is what its caller gets. -/
structure Reports (k : Nat) (entry : WorkerEntry) (msg : Message Nat) (r : Except Fault Guest)
    (p : Progress) (n : Nat) (w : World) (answer : Except Fault Nat) (w' : World) :
    Prop where
  worker : ∃ e, w'.workers[k]? = some e ∧ e.progress = p ∧ e.bridge = answer.toOption
  answer : match r with
    | .ok g => ∃ b, answer = .ok b ∧
        w'.bridges[b]? = some { guest := g, bridge := { ops := entry.ops } }
    | .error f => answer = .error f
  spans : ∃ span, w'.spans = w.spans.push span ∧ Tells entry msg (stateNames.take n) r span
  steps : w'.stepRecords =
    w.stepRecords ++ if entry.logs then (stateNames.take n).map (stepRecord entry) else []

theorem runWorkerOn_run (h : w.workers[k]? = some entry)
    (drive : WorkerEntry → Driver World Guest Nat) (inbox : Worker.Inbox Nat) :
    runWorkerOn drive k inbox w = conclude k entry (Worker.receive
      (workerHost k entry (announced inbox) (drive entry)) entry.exports entry.progress inbox w)
      w := by
  refine (bind_run (workerEntry k) _ w).trans ?_
  rw [(workerEntry_finds k).run h]
  rfl

/-- What a worker does with the first message, told from how it handles it. -/
theorem Fresh.runWorkerOn_eq (h : Fresh k entry w) (drive : WorkerEntry → Driver World Guest Nat) :
    World.runWorkerOn drive k (.message msg) w =
      match Worker.handle (workerHost k entry msg (drive entry)) entry.exports {} msg w with
      | (.ok g, p, v) => (.ok v.bridges.size, { v with
          workers := (v.workers.modify k fun e => { e with progress := p }).modify k
            fun e => { e with bridge := some v.bridges.size }
          bridges := v.bridges.push { guest := g, bridge := { ops := entry.ops } } })
      | (.error f, p, v) =>
        (.error f, { v with workers := v.workers.modify k fun e => { e with progress := p } }) := by
  have hreceive : Worker.receive (workerHost k entry msg (drive entry)) entry.exports entry.progress
      (.message msg) w =
        Worker.handle (workerHost k entry msg (drive entry)) entry.exports {} msg w := by
    rw [h.progress]
    rfl
  refine (runWorkerOn_run h.worker drive (.message msg)).trans ?_
  change conclude k entry (Worker.receive (workerHost k entry msg (drive entry)) entry.exports
    entry.progress (.message msg) w) w = _
  rw [hreceive]
  rcases Worker.handle (workerHost k entry msg (drive entry)) entry.exports {} msg w with
    ⟨_ | _, p, v⟩ <;> rfl

theorem Fresh.reports (h : Fresh k entry w) (drive : WorkerEntry → Driver World Guest Nat)
    {r : Except Fault Guest} {p : Progress} {rec : Recording World Guest}
    (hout : Worker.handle (workerHost k entry msg (drive entry)) entry.exports {} msg w =
      (r, p, rec.world))
    (hclosed : Closed k entry msg w r rec) (hpath : rec.reached = p.state.path) :
    let out := World.runWorkerOn drive k (.message msg) w
    Reports k entry msg r p rec.reached.length w out.1 out.2 := by
  obtain ⟨e, he, hbridge⟩ := hclosed.worker
  have hnames : rec.reached.map State.name = stateNames.take rec.reached.length := by
    rw [hpath, path_names]
  have hspans := hnames ▸ hclosed.spans
  have hrecords : rec.reached.map (stepRecord entry ·.name) =
      (stateNames.take rec.reached.length).map (stepRecord entry) := by
    rw [← hnames, List.map_map]
    rfl
  have hsteps := hrecords ▸ hclosed.steps
  rw [h.runWorkerOn_eq, hout]
  cases r with
  | ok g =>
    refine ⟨?_, ⟨rec.world.bridges.size, rfl, by simp⟩, hspans, hsteps⟩
    exact ⟨{ e with progress := p, bridge := some rec.world.bridges.size },
      by simp [Array.getElem?_modify, he], rfl, rfl⟩
  | error f =>
    refine ⟨?_, rfl, hspans, hsteps⟩
    exact ⟨{ e with progress := p }, by simp [Array.getElem?_modify, he], rfl, hbridge⟩

/-- A bring-up asks for its effects in order and closes what it gives up, whatever it drives, and
the worker reports it faithfully as long as what it drives leaves the worker's own account alone, as
all guests do, whatever machine they run on. -/
theorem bringUp_in_order_and_reported :
    (∀ {σ ι μ : Type} (host : Host σ ι μ) (exports : Config.Exports) (msg : Message μ) (s : σ),
      let out := Worker.handle host.recorded exports {} msg { world := s }
      Worker.handle host exports {} msg s = (out.1, out.2.1, out.2.2.world) ∧
        Worker.Orderly msg exports (host.instantiate msg (host.observe .started s)).1 out.1 out.2.1
          out.2.2) ∧
    (∀ (drive : WorkerEntry → Driver World Guest Nat) (k : Nat) (entry : WorkerEntry)
      (msg : Message Nat) (w : World), Fresh k entry w → (drive entry).Within (SameAccount k) →
      let bringUp :=
        Worker.handle (workerHost k entry msg (drive entry)).recorded entry.exports {} msg
        { world := w }
      let out := runWorkerOn drive k (.message msg) w
      Reports k entry msg bringUp.1 bringUp.2.1 bringUp.2.2.reached.length w out.1 out.2 ∧
        bringUp.2.2.seen.map (reportedState k) = bringUp.2.2.effects.map (some ·.2)) ∧
    ∀ [Wasm.Machine] (k : Nat) (entry : WorkerEntry) (cancelled : Bool),
      (guestDriver entry cancelled).Within (SameAccount k) := by
  refine ⟨?_, ?_, ?_⟩
  · intro σ ι μ host exports msg s
    exact ⟨Worker.handle_recorded host exports {} msg { world := s },
      Worker.handle_orderly host msg exports s⟩
  · intro drive k entry msg w hfresh hdrive
    have hclosed := hfresh.handle msg hdrive
    have hrun := Worker.handle_recorded (workerHost k entry msg (drive entry)) entry.exports {} msg
      { world := w }
    have horderly :=
      Worker.handle_orderly (workerHost k entry msg (drive entry)) msg entry.exports w
    exact ⟨hfresh.reports drive hrun hclosed horderly.reached, hclosed.seen⟩
  · intro _ k entry cancelled
    exact (guestDriver_aside entry cancelled).mono fun _ _ haside => haside.sameAccount k

/-- A guest that traps on every call and cannot be closed. -/
def faulty : Driver World Guest Nat where
  instantiate _ w := (.ok (.scripted 0), w)
  setGlobal _ _ _ w := (.ok (), w)
  params _ _ _ := some [.i32]
  call _ _ _ w := (.error (.plain "unreachable"), w)
  close _ w := (.error (.plain "busy"), w)

theorem bringUp_reported_of_faulty :
    let entry : WorkerEntry := { maker := .scripted 0, relay := 0 }
    let w : World := { workers := #[entry] }
    let msg : Message Nat := { bytes := [], memory := none }
    let bringUp := Worker.handle (workerHost 0 entry msg faulty).recorded entry.exports {} msg
      { world := w }
    let out := runWorkerOn (fun _ => faulty) 0 (.message msg) w
    bringUp.2.1 = { state := .stackSet, handled := true, failed := true } ∧
      Reports 0 entry msg bringUp.1 bringUp.2.1 bringUp.2.2.reached.length w out.1 out.2 ∧
      bringUp.2.2.seen.map (reportedState 0) = bringUp.2.2.effects.map (some ·.2) := by
  intro entry w msg bringUp out
  have hdriver : faulty.Within (SameAccount 0) :=
    ⟨fun _ _ => ⟨rfl, rfl, rfl⟩, fun _ _ _ _ => ⟨rfl, rfl, rfl⟩, fun _ _ _ _ => ⟨rfl, rfl, rfl⟩,
      fun _ _ => ⟨rfl, rfl, rfl⟩⟩
  have hfresh : Fresh 0 entry w := ⟨rfl, rfl, rfl⟩
  exact ⟨rfl, bringUp_in_order_and_reported.2.1 (fun _ => faulty) 0 entry msg w hfresh hdriver⟩

end GuestThreads.World
