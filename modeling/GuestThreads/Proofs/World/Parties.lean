import GuestThreads.Proofs.World.Courses

/-!
# Workers, threads and bridges piece by piece

What a worker does with its inbox, how a spawned thread goes on, and what an operation does with a
bridge, each as a process. Left alone, they do what the worker, the spawn and the bridge do at once.
-/

namespace GuestThreads.World

open Worker (BringUp Driver Inbox Message Progress State)

variable {α β : Type}

/-! ## Workers -/

/-- How a worker drives what it brings up, piece by piece. -/
structure Conduct where
  instantiate : Message Nat → Course Guest
  setGlobal : Guest → String → UInt32 → Course Unit
  params : Guest → String → World → Option (List Wasm.ValType)
  call : Guest → String → List UInt64 → Course (List UInt64)
  close : Guest → Course Unit

/-- The guests of the world, as a worker drives them. -/
def Conduct.guests [Wasm.Machine] (entry : WorkerEntry) (cancelled : Bool) : Conduct where
  instantiate msg := .makeInstance entry cancelled msg
  setGlobal g name v := .atom (Guest.setGlobal g name v)
  params g name w := Guest.params? g name w
  call g name args := .callGuest g cancelled name args
  close g := .atom (Guest.close g)

/-- Left alone, what the worker drives is the driver. -/
structure Conduct.Follows (c : Conduct) (d : Driver World Guest Nat) : Prop where
  instantiate : ∀ msg w, Runs (c.instantiate msg) w (d.instantiate msg w).1 (d.instantiate msg w).2
  setGlobal : ∀ g name v w,
    Runs (c.setGlobal g name v) w (d.setGlobal g name v w).1 (d.setGlobal g name v w).2
  params : ∀ g name w, c.params g name w = d.params g name w
  call : ∀ g name args w,
    Runs (c.call g name args) w (d.call g name args w).1 (d.call g name args w).2
  close : ∀ g w, Runs (c.close g) w (d.close g w).1 (d.close g w).2

theorem Conduct.guests_follows [Wasm.Machine] (entry : WorkerEntry) (cancelled : Bool) :
    (Conduct.guests entry cancelled).Follows (guestDriver entry cancelled) where
  instantiate msg := Performs.makeInstance entry cancelled msg
  setGlobal g name v := Performs.atom (Guest.setGlobal g name v)
  params _ _ _ := rfl
  call g name args := Performs.callGuest g cancelled name args
  close g := Performs.atom (Guest.close g)

namespace Process

variable (c : Conduct) (k : Nat) (entry : WorkerEntry) (msg : Message Nat)

/-- Carry out a bring-up. What is asked of the guest is noted beforehand. -/
def carryOut : BringUp Guest → State → Process (Except Fault Guest × State)
  | .instantiate next, state => note (.asked (.instantiate msg.bytes)) do
    let r ← (c.instantiate msg).run
    carryOut (next r) state
  | .setGlobal g name v next, state => note (.asked (.setGlobal g name v)) do
    let r ← (c.setGlobal g name v).run
    carryOut (next r) state
  | .params g name next, state => do
    let r ← atom do return c.params g name (← get)
    carryOut (next r) state
  | .call g name arg next, state => note (.asked (.call g name [arg])) do
    let r ← (c.call g name [arg]).run
    carryOut (next r) state
  | .close g next, state => note (.asked (.close g)) do
    let r ← (c.close g).run
    carryOut (next r) state
  | .note n next, state => do
    atom (observe k entry msg n)
    carryOut next (n.apply state)
  | .done r, state => done (r, state)

end Process

namespace Course

variable (c : Conduct) (k : Nat) (entry : WorkerEntry) (msg : Message Nat)

/-- Take the message, unless another one was taken before. How far the worker had come is
returned. -/
def claim : Try Progress := do
  let e ← workerEntry k
  if !e.progress.handled then observe k entry msg .started
  return e.progress

/-- Record that a message is ignored. -/
def noteIgnored : Try Unit := do
  let e ← workerEntry k
  observe k entry msg (.ignored e.progress.state)

/-- Refuse a message. -/
def ignore : Course Nat := do
  atom (noteIgnored k entry msg)
  throw Worker.alreadyBootstrapped

/-- Enter a bridge to the guest that runs the thread. -/
def enterBridge (g : Guest) : Act Nat := do
  let b ← newBridge g entry.ops
  setWorker k fun e => { e with bridge := some b }
  return b

/-- Enter how a bring-up ended, and record it then. A running thread gets a bridge, which is
returned. -/
def settle (before : Progress) : Except Fault Guest × State → Course Nat
  | (.error f, state) => do
    atom (setWorker k fun e => { e with
      progress := { state := state, handled := true, failed := true } } : Try Unit)
    atom (observe k entry msg (.failed state f) : Try Unit)
    throw f
  | (.ok g, state) => do
    atom (setWorker k fun e => { e with
      progress := { state := state, handled := true, failed := before.failed } } : Try Unit)
    let b ← atom (enterBridge k entry g : Try Nat)
    atom (observe k entry msg .returned : Try Unit)
    return b

/-- Bring up the thread, from the progress before on. -/
def bringUp (before : Progress) : Course Nat :=
  ofProcess (.carryOut c k entry msg
    (.steps entry.exports msg.stackPtr msg.tlsPtr msg.closurePtr) before.state) >>=
    settle k entry msg before

/-- Go on from how far the worker had come. -/
def goOn : Except Fault Progress → Process (Except Fault Nat)
  | .error f => .done (.error f)
  | .ok before => if before.handled then ignore k entry msg else bringUp c k entry msg before

/-- Handle a message. -/
def handle : Course Nat :=
  ExceptT.mk (.piece (some .delivered) (claim k entry msg).run (goOn c k entry msg))

/-- Act on what is found in the inbox. -/
def attend : Inbox Nat → Course Nat
  | .message msg => handle c k entry msg
  | .closed => throw (.protocolViolation "inbox closed before bootstrap message")
  | .cancelled => throw (.external .cancelled)

/-- Let a worker act on what it finds in its inbox. -/
def runWorker (c : WorkerEntry → Conduct) (k : Nat) (inbox : Inbox Nat) : Course Nat := do
  let entry ← atom (workerEntry k)
  attend (c entry) k entry inbox

end Course

theorem runs_carryOut {c : Conduct} {d : Driver World Guest Nat} (h : c.Follows d) (k : Nat)
    (entry : WorkerEntry) (msg : Message Nat) (b : BringUp Guest) (state : State) (w : World) :
    let out := Worker.carryOut (workerHost k entry msg d) msg b state w
    Runs (.carryOut c k entry msg b state) w (out.1, out.2.1) out.2.2 := by
  induction b generalizing state w with
  | instantiate next ih => exact .piece ((h.instantiate msg w).bind (ih _ state _))
  | setGlobal g name v next ih => exact .piece ((h.setGlobal g name v w).bind (ih _ state _))
  | params g name next ih =>
    refine .piece ?_
    change Runs (.carryOut c k entry msg (next (c.params g name w)) state) w _ _
    rw [h.params]
    exact ih (d.params g name w) state w
  | call g name arg next ih => exact .piece ((h.call g name [arg] w).bind (ih _ state _))
  | close g next ih => exact .piece ((h.close g w).bind (ih _ state _))
  | note n next ih => exact .piece (ih (n.apply state) _)
  | done r => exact .done _ _

/-- To enter the progress that a worker has made already changes nothing. -/
theorem setProgress_self {k : Nat} {entry : WorkerEntry} {w : World}
    (h : w.workers[k]? = some entry) :
    { w with
      workers := w.workers.modify k fun e => { e with progress := entry.progress } } = w := by
  rw [Wasm.modify_eq_self fun e he => by cases h.symm.trans he; rfl]

theorem claim_run {k : Nat} {e : WorkerEntry} {w : World} (h : w.workers[k]? = some e)
    (entry : WorkerEntry) (msg : Message Nat) :
    Course.claim k entry msg w = (.ok e.progress,
      if e.progress.handled then w else (observe k entry msg .started w).2) := by
  refine (bind_run (workerEntry k) _ w).trans ?_
  rw [(workerEntry_finds k).run h]
  dsimp only
  cases e.progress.handled <;> rfl

/-- Nothing else happens to the worker when a message is ignored. -/
theorem observe_ignored_workers (k : Nat) (entry : WorkerEntry) (msg : Message Nat) (state : State)
    (w : World) : (observe k entry msg (.ignored state) w).2.workers = w.workers := by
  have h := congrArg World.workers (workerLog_run entry w .warn
    "bootstrap message ignored, worker already bootstrapped" [("state", .text state.name)])
  exact h

theorem note_ignored_run {k : Nat} {e : WorkerEntry} {w : World} (h : w.workers[k]? = some e)
    (entry : WorkerEntry) (msg : Message Nat) :
    Course.noteIgnored k entry msg w =
      (.ok (), (observe k entry msg (.ignored e.progress.state) w).2) := by
  refine (bind_run (workerEntry k) _ w).trans ?_
  rw [(workerEntry_finds k).run h]
  rfl

theorem runs_ignore {k : Nat} {entry : WorkerEntry} {w : World} (h : w.workers[k]? = some entry)
    (msg : Message Nat) :
    Runs (Course.ignore k entry msg) w (.error Worker.alreadyBootstrapped)
      (observe k entry msg (.ignored entry.progress.state) w).2 := by
  have hatom := Performs.atom (Course.noteIgnored k entry msg) w
  rw [note_ignored_run h] at hatom
  exact hatom.bind (.done _ _)

/-- A note at the end of a bring-up. -/
def Ending : Worker.Note → Prop
  | .failed _ _ => True
  | .returned => True
  | _ => False

/-- The record of an ended bring-up is added, whatever has become of the bridges and of the worker
apart from its span. -/
theorem observe_ending (k : Nat) (entry : WorkerEntry) (msg : Message Nat) {n : Worker.Note}
    (hn : Ending n) (w : World) :
    ∃ logs spans, ∀ (workers : Array WorkerEntry) (bridges : Array BridgeEntry),
      (workers[k]?).map (·.span) = (w.workers[k]?).map (·.span) →
      ((observe k entry msg n).run { w with workers := workers, bridges := bridges }).2 =
        { w with workers := workers, bridges := bridges, logs := logs, spans := spans } := by
  have hspan (level : Log.Level) (message : String) (fields : List (String × Log.Value))
      (ending : Trace.Span → Trace.Span) :
      ∃ logs spans, ∀ (workers : Array WorkerEntry) (bridges : Array BridgeEntry),
        (workers[k]?).map (·.span) = (w.workers[k]?).map (·.span) →
        ((endSpan k ending).run ((workerLog entry level message fields).run
            { w with workers := workers, bridges := bridges }).2).2 =
          { w with workers := workers, bridges := bridges, logs := logs, spans := spans } := by
    refine ⟨if entry.logs then w.logs.push {
          level := level, source := .worker, message := message
          fields := ("thread", .int entry.id) :: fields }
        else w.logs,
      ((w.workers[k]?).map (·.span)).elim w.spans fun s => w.spans.push (ending s),
      fun workers bridges h => ?_⟩
    rw [workerLog_run, ← h]
    unfold endSpan
    refine (modify_run _ _).trans ?_
    dsimp only
    cases workers[k]? <;> rfl
  cases n with
  | failed state f =>
    exact hspan .error "thread bring-up failed" [("state", .text state.name),
      ("signals", .nat (w.relayCount entry.relay).toNat), ("error", .fault f)] (·.fail f.message)
  | returned =>
    exact hspan .debug "thread entrypoint returned"
      [("signals", .nat (w.relayCount entry.relay).toNat)] fun span => { span with status := .ok }
  | started | advanced | closeFailed | ignored => exact hn.elim

theorem setWorker_span {k : Nat} {f : WorkerEntry → WorkerEntry} (hf : ∀ e, (f e).span = e.span)
    (workers : Array WorkerEntry) :
    ((workers.modify k f)[k]?).map (·.span) = (workers[k]?).map (·.span) := by
  rw [Array.getElem?_modify, if_pos rfl, Option.map_map]
  exact congrArg (workers[k]?.map ·) (funext hf)

/-- Left alone, a bring-up that failed is concluded as it is at once. -/
theorem runs_settle_failed (k : Nat) (entry : WorkerEntry) (msg : Message Nat) (before : Progress)
    (f : Fault) (state : State) (v w : World) :
    let out := conclude k entry (.error f, { state := state, handled := true, failed := true },
      ((observe k entry msg (.failed state f)).run v).2) w
    Runs (Course.settle k entry msg before (.error f, state)) v out.1 out.2 := by
  intro out
  obtain ⟨logs, spans, hobserve⟩ :=
    observe_ending k entry msg (n := .failed state f) trivial v
  have hseq : ((observe k entry msg (.failed state f)).run v).2 = _ :=
    hobserve v.workers v.bridges rfl
  have hspan := setWorker_span (k := k) (f := fun e => { e with
    progress := { state := state, handled := true, failed := true } }) (fun _ => rfl) v.workers
  have hout : out = (.error f, ((observe k entry msg (.failed state f)).run { v with
      workers := v.workers.modify k fun e => { e with
        progress := { state := state, handled := true, failed := true } } }).2) := by
    rw [hobserve _ v.bridges hspan]
    simp only [out]
    rw [hseq]
    rfl
  rw [hout]
  exact .piece (.piece (.done _ _))

/-- Left alone, a bring-up that came to its end is concluded as it is at once. -/
theorem runs_settle_returned (k : Nat) (entry : WorkerEntry) (msg : Message Nat) (before : Progress)
    (g : Guest) (state : State) (v w : World) :
    let out := conclude k entry
      (.ok g, { state := state, handled := true, failed := before.failed },
        ((observe k entry msg .returned).run v).2) w
    Runs (Course.settle k entry msg before (.ok g, state)) v out.1 out.2 := by
  intro out
  obtain ⟨logs, spans, hobserve⟩ :=
    observe_ending k entry msg (n := .returned) trivial v
  have hseq : ((observe k entry msg .returned).run v).2 = _ := hobserve v.workers v.bridges rfl
  have hspan := (setWorker_span (k := k) (f := fun e => { e with bridge := some v.bridges.size })
    (fun _ => rfl) _).trans (setWorker_span (k := k) (f := fun e => { e with
      progress := { state := state, handled := true, failed := before.failed } })
      (fun _ => rfl) v.workers)
  have hout : out = (.ok v.bridges.size, ((observe k entry msg .returned).run { v with
      workers := (v.workers.modify k fun e => { e with
        progress := { state := state, handled := true, failed := before.failed } }).modify k
          fun e => { e with bridge := some v.bridges.size }
      bridges := v.bridges.push { guest := g, bridge := { ops := entry.ops } } }).2) := by
    rw [hobserve _ _ hspan]
    simp only [out]
    rw [hseq]
    rfl
  rw [hout]
  exact .piece (.piece (.piece (.done _ _)))

/-- Left alone, a worker handles a message as it does at once. -/
theorem runs_handle {c : Conduct} {d : Driver World Guest Nat} (h : c.Follows d) {k : Nat}
    {entry : WorkerEntry} {w : World} (hw : w.workers[k]? = some entry) (msg : Message Nat) :
    let out := conclude k entry
      (Worker.handle (workerHost k entry msg d) entry.exports entry.progress msg w) w
    Runs (Course.handle c k entry msg) w out.1 out.2 := by
  intro out
  refine .piece ?_
  have hclaim : (Course.claim k entry msg).run w = _ := claim_run hw entry msg
  rw [hclaim]
  cases hhandled : entry.progress.handled with
  | true =>
    have hout : out = (.error Worker.alreadyBootstrapped,
        (observe k entry msg (.ignored entry.progress.state) w).2) := by
      have hself := setProgress_self (k := k)
        (w := (observe k entry msg (.ignored entry.progress.state) w).2)
        ((congrArg (·[k]?) (observe_ignored_workers k entry msg _ w)).trans hw)
      simp only [out, Worker.handle, hhandled, if_true]
      exact congrArg (Prod.mk _) hself
    rw [hout]
    simpa [Course.goOn, hhandled] using runs_ignore hw msg
  | false =>
    simp only [Course.goOn, hhandled, Bool.false_eq_true, if_false]
    refine runs_ofProcess (runs_carryOut h k entry msg _ entry.progress.state _) ?_
    simp only [out, Worker.handle, hhandled, Bool.false_eq_true, if_false]
    have hstarted : (workerHost k entry msg d).observe .started w =
        (observe k entry msg .started w).2 := rfl
    rw [hstarted]
    rcases Worker.carryOut (workerHost k entry msg d) msg
      (.steps entry.exports msg.stackPtr msg.tlsPtr msg.closurePtr) entry.progress.state
      (observe k entry msg .started w).2 with ⟨f | g, state, v⟩
    · exact runs_settle_failed k entry msg entry.progress f state v w
    · exact runs_settle_returned k entry msg entry.progress g state v w

theorem Performs.runWorker {c : WorkerEntry → Conduct} {d : WorkerEntry → Driver World Guest Nat}
    (h : ∀ entry, (c entry).Follows (d entry)) (k : Nat) (inbox : Inbox Nat) :
    Performs (Course.runWorker c k inbox) (runWorkerOn d k inbox) := by
  intro w
  have hatom := Performs.atom (workerEntry k) w
  cases hworker : w.workers[k]? with
  | none =>
    have hentry : workerEntry k w = (.error unknown, w) := (workerEntry_finds k).miss hworker
    have hrun : runWorkerOn d k inbox w = (.error unknown, w) := by
      refine (bind_run (workerEntry k) _ w).trans ?_
      rw [hentry]
    rw [hentry] at hatom
    rw [hrun]
    exact hatom.bind (.done _ _)
  | some entry =>
    rw [(workerEntry_finds k).run hworker] at hatom
    rw [runWorkerOn_run hworker]
    refine hatom.bind ?_
    cases inbox with
    | message msg => exact runs_handle (h entry) hworker msg
    | closed | cancelled =>
      have hself := setProgress_self hworker
      change Runs _ w _ { w with
        workers := w.workers.modify k fun e => { e with progress := entry.progress } }
      rw [hself]
      exact .done _ _

/-! ## Threads -/

namespace Course

/-- The outcome of a process, whether it fails or not. -/
def attempt (p : Course α) : Course (Except Fault α) := ofProcess p.run

/-- The message that a thread is brought up with. -/
def bootstrap (m : LoadedModule) (t : Thread) (closurePtr : UInt32) : Message Nat where
  bytes := m.bytes
  memory := some m.memory
  stackPtr := t.region.stackPtr
  tlsPtr := t.region.tlsPtr
  closurePtr := closurePtr

end Course

theorem Performs.attempt {p : Course α} {act : Try α} (h : Performs p act) :
    Performs (Course.attempt p) (World.attempt act) :=
  fun w => (h w).bind (.done _ _)

theorem Performs.look {f : World → α} {p : α → Course β} {act : World → Except Fault β × World}
    (h : ∀ w, Runs (p (f w)) w (act w).1 (act w).2) :
    Performs (Course.look f >>= p) (ExceptT.mk act) :=
  fun w => .piece (h w)

theorem runs_ite {b : Bool} {p q : Course α} {x y : Except Fault α × World} {w : World}
    (hp : Runs p w x.1 x.2) (hq : Runs q w y.1 y.2) :
    Runs (if b then p else q) w (if b then x else y).1 (if b then x else y).2 := by
  cases b with
  | true => exact hp
  | false => exact hq

variable [Wasm.Machine]

namespace Course

/-- Bring up a thread that was entered and record how it ended. A worker whose wait is cancelled may
not hear the message. -/
def serve (k : Nat) (t : Thread) (closurePtr : UInt32) (cancelled heard : Bool) : Course Nat := do
  let m ← atom (loadedModule k)
  atom (log .runtime .debug "thread spawned"
    [("thread", .nat t.id), ("stack_ptr", .nat t.region.stackPtr.toNat),
      ("tls_ptr", .nat t.region.tlsPtr.toNat), ("closure_ptr", .nat closurePtr.toNat)] : Try Unit)
  let inbox := if heard then .message (bootstrap m t closurePtr) else .cancelled
  let r ← attempt (runWorker (Conduct.guests · cancelled) t.worker inbox)
  atom (finishThread k t.id r : Try Unit)
  return t.id

def spawn (k : Nat) (closurePtr : UInt32) (ops : List (String × Bridge.Op)) (cancelled : Bool) :
    Course Nat := do
  let t ← atom (newThread k ops)
  serve k t closurePtr cancelled true

end Course

theorem Performs.spawn (k : Nat) (closurePtr : UInt32) (ops : List (String × Bridge.Op))
    (cancelled : Bool) :
    Performs (Course.spawn k closurePtr ops cancelled)
      (World.spawn k closurePtr ops cancelled) := by
  refine .bind (.atom _) fun t => .bind (.atom _) fun m => .bind (.atom _) fun _ => ?_
  refine .bind (.attempt (.runWorker (fun entry => Conduct.guests_follows entry cancelled) _ _))
    fun r => ?_
  exact .bind (.atom _) fun _ => .value _

/-! ## Bridges -/

namespace Course

variable (k : Nat) (g : Guest) (cancelled : Bool)

def callExport (name : String) (args : List UInt64) : Course (List UInt64) := do
  if ← look fun w => (Guest.params? g name w).isSome then
    tryCatch (callGuest g cancelled name args) (fun e => throw (.trapped .runtime name (some e)))
  else throw (.notFound .runtime "export" name)

def callBridge (name : String) (args : List UInt64) : Course (List UInt64) := do
  if ← look (·.bridgeClosed k) then throw Bridge.closedFault
  else callExport g cancelled name args

/-- Take note that the bridge is closed, and tell whether it was before. -/
def shut : Act Bool :=
  modifyGet fun w => (w.bridgeClosed k, if w.bridgeClosed k then w else w.shutBridge k)

def closeBridge : Course Unit := do
  if ← atom (shut k : Try Bool) then return ()
  else atom (Guest.close g)

/-- Serve the requests of a script, with `nested` for what it invokes. -/
def perform (nested : String → List UInt64 → Course (List UInt64)) :
    Bridge.Script → Course (List UInt64)
  | .done r => ofExcept r
  | .call name args next => do
    let r ← attempt (callBridge k g cancelled name args)
    perform nested (next r)
  | .invoke name args next => do
    let r ← attempt (nested name args)
    perform nested (next r)
  | .global name next => do
    let r ← look fun w => (Bridge.global (Guest.handle k g cancelled) name w).1
    perform nested (next r)
  | .memory next => do
    let m ← look fun w => (Bridge.memory (Guest.handle k g cancelled) w).1
    perform nested (next m)
  | .close next => do
    let r ← attempt (closeBridge k g)
    perform nested (next r)

def invokeWithin (b : Bridge) (depth : Nat) (name : String) (args : List UInt64) :
    Course (List UInt64) := do
  if ← look (·.bridgeClosed k) then throw Bridge.closedFault
  else
    match b.op? name with
    | none => callExport g cancelled name args
    | some op =>
      match depth with
      | 0 => throw Bridge.tooDeep
      | depth + 1 => perform k g cancelled (invokeWithin b depth) (op args)

/-- Do with a bridge what a script says. -/
def drive (script : Bridge.Script) : Course (List UInt64) := do
  let b ← atom (bridgeEntry k)
  perform k b.guest cancelled (invokeWithin k b.guest cancelled b.bridge Bridge.depthLimit) script

end Course

section

variable (k : Nat) (g : Guest) (cancelled : Bool)

theorem Performs.callExport (name : String) (args : List UInt64) :
    Performs (Course.callExport g cancelled name args)
      (ExceptT.mk (Bridge.callExport (Guest.handle k g cancelled) name args)) := by
  refine .look fun w => runs_ite ?_ (.done _ _)
  have hcall : Runs _ w (Guest.call g cancelled name args w).1 _ :=
    Performs.callGuest g cancelled name args w
  change Runs _ w ((Guest.call g cancelled name args w).1.mapError _)
    (Guest.call g cancelled name args w).2
  rcases hrun : Guest.call g cancelled name args w with ⟨_ | _, w'⟩ <;> rw [hrun] at hcall
  · exact hcall.bind (.done _ _)
  · exact hcall.bind (.done _ _)

theorem Performs.callBridge (name : String) (args : List UInt64) :
    Performs (Course.callBridge k g cancelled name args)
      (ExceptT.mk (Bridge.call (Guest.handle k g cancelled) name args)) :=
  .look fun w => runs_ite (.done _ _) (Performs.callExport k g cancelled name args w)

theorem Performs.closeBridge :
    Performs (Course.closeBridge k g) (ExceptT.mk (Bridge.close (Guest.handle k g cancelled))) := by
  intro w
  refine .piece ?_
  have hclosed : Bridge.close (Guest.handle k g cancelled) w =
      if w.bridgeClosed k then (.ok (), w) else Guest.close g (w.shutBridge k) := rfl
  have hshut : (Course.shut k : Try Bool).run w =
      (.ok (w.bridgeClosed k), if w.bridgeClosed k then w else w.shutBridge k) := rfl
  change Runs _ _ (Bridge.close (Guest.handle k g cancelled) w).1
    (Bridge.close (Guest.handle k g cancelled) w).2
  rw [hshut, hclosed]
  cases w.bridgeClosed k with
  | true => exact .done _ _
  | false => exact Performs.atom (Guest.close g) (w.shutBridge k)

/-- A look at a guest's globals or its memory changes nothing. -/
theorem global_handle (name : String) (w : World) :
    Bridge.global (Guest.handle k g cancelled) name w =
      ((Bridge.global (Guest.handle k g cancelled) name w).1, w) := by
  rw [Bridge.global]
  split <;> rfl

theorem memory_handle (w : World) :
    Bridge.memory (Guest.handle k g cancelled) w =
      ((Bridge.memory (Guest.handle k g cancelled) w).1, w) := by
  rw [Bridge.memory]
  split <;> rfl

theorem Performs.perform {nested : String → List UInt64 → Course (List UInt64)}
    {nested' : String → List UInt64 → World → Except Fault (List UInt64) × World}
    (h : ∀ name args, Performs (nested name args) (ExceptT.mk (nested' name args)))
    (script : Bridge.Script) :
    Performs (Course.perform k g cancelled nested script)
      (ExceptT.mk (Bridge.perform (Guest.handle k g cancelled) nested' script)) := by
  intro w
  induction script generalizing w with
  | done r => exact .done _ _
  | call name args next ih =>
    exact runs_ofProcess (Performs.callBridge k g cancelled name args w) (ih _ _)
  | invoke name args next ih => exact runs_ofProcess (h name args w) (ih _ _)
  | global name next ih =>
    refine .piece ?_
    change Runs _ w (Bridge.perform _ nested' (.global name next) w).1
      (Bridge.perform _ nested' (.global name next) w).2
    rw [Bridge.perform, global_handle]
    exact ih _ w
  | memory next ih =>
    refine .piece ?_
    change Runs _ w (Bridge.perform _ nested' (.memory next) w).1
      (Bridge.perform _ nested' (.memory next) w).2
    rw [Bridge.perform, memory_handle]
    exact ih _ w
  | close next ih => exact runs_ofProcess (Performs.closeBridge k g cancelled w) (ih _ _)

theorem Performs.invokeWithin (b : Bridge) (depth : Nat) (name : String) (args : List UInt64) :
    Performs (Course.invokeWithin k g cancelled b depth name args)
      (ExceptT.mk (Bridge.invokeWithin (Guest.handle k g cancelled) b depth name args)) := by
  induction depth generalizing name args with
  | zero =>
    rw [Course.invokeWithin]
    refine .look fun w => ?_
    rw [Bridge.invokeWithin]
    refine runs_ite (.done _ _) ?_
    cases b.op? name with
    | none => exact Performs.callExport k g cancelled name args w
    | some op => exact .done _ _
  | succ depth ih =>
    rw [Course.invokeWithin]
    refine .look fun w => ?_
    rw [Bridge.invokeWithin]
    refine runs_ite (.done _ _) ?_
    cases b.op? name with
    | none => exact Performs.callExport k g cancelled name args w
    | some op => exact Performs.perform k g cancelled ih (op args) w

end

/-- Left alone, a script on a bridge is carried out as it is at once. -/
theorem Performs.drive (k : Nat) (cancelled : Bool) (script : Bridge.Script) :
    Performs (Course.drive k cancelled script) (do
      let b ← bridgeEntry k
      let h := Guest.handle k b.guest cancelled
      ExceptT.mk (Bridge.perform h (b.bridge.invoke h) script)) :=
  .bind (.atom _) fun b => .perform k b.guest cancelled
    (fun name args => .invokeWithin k b.guest cancelled b.bridge Bridge.depthLimit name args) script

namespace Process

/-- Close the bridge of a thread, if it has one. -/
def leaveThread (t : Thread) : Process Unit :=
  match t.bridge with
  | none => done ()
  | some b => do
    let _ ← (do
      let e ← Course.atom (bridgeEntry b)
      Course.closeBridge b e.guest : Course Unit).run

def leaveThreads : List Thread → Process Unit
  | [] => done ()
  | t :: threads => do
    leaveThread t
    leaveThreads threads

end Process

namespace Course

/-- The stream of a module stops accepting signals. -/
def endStream (k : Nat) : Act Unit := modify (·.onStream k .markClosed)

/-- Record that a module is closed, and close its engine. -/
def release (k : Nat) : Course Unit := do
  let m ← atom (loadedModule k)
  atom (log .runtime .debug "module closed"
    [("threads", .nat m.threads.length), ("undelivered_signals", .nat m.stream.pending)] : Try Unit)
  atom (closeEngine m.engine)

def closeModule (k : Nat) : Course Unit := do
  match ← atom (shutModule k) with
  | none => return ()
  | some threads =>
    ofProcess (.leaveThreads threads)
    atom (endStream k : Try Unit)
    atom (ring k : Try Unit)
    release k

end Course

theorem runs_leaveThread (t : Thread) (w : World) :
    Runs (.leaveThread t) w () (leaveThread t w).2 := by
  unfold Process.leaveThread leaveThread
  cases t.bridge with
  | none => exact .done () w
  | some b =>
    have hclose : Performs (do
        let e ← Course.atom (bridgeEntry b)
        Course.closeBridge b e.guest) (closeBridge b) :=
      .bind (.atom _) fun e => .closeBridge b e.guest false
    exact (hclose w).bind (.done _ _)

theorem runs_leaveThreads (threads : List Thread) (w : World) :
    Runs (.leaveThreads threads) w () ((threads.forM leaveThread : Act Unit) w).2 := by
  induction threads generalizing w with
  | nil => exact .done () w
  | cons t threads ih => exact (runs_leaveThread t w).bind (ih _)

/-- Left alone, a module is closed piece by piece as it is at once. -/
theorem Performs.closeModule (k : Nat) :
    Performs (Course.closeModule k) (World.closeModule k) := by
  refine .bind (.atom _) fun threads => ?_
  cases threads with
  | none => exact .value ()
  | some threads =>
    intro w
    refine runs_ofProcess (runs_leaveThreads threads w) (.piece (.piece (.settle k 6 ?_)))
    let v := ((threads.forM leaveThread : Act Unit) w).2
    have hclosed : (ring k (Course.endStream k v).2).2.onStream k (·.run 6) =
        v.onStream k .close := by
      change ((v.onStream k .markClosed).onStream k .notify).onStream k (·.run 6) = _
      rw [onStream_onStream, onStream_onStream]
      rfl
    change Runs _ ((ring k (Course.endStream k v).2).2.onStream k (·.run 6)) _ _
    rw [hclosed]
    have hrest : Performs (Course.release k) _ :=
      .bind (.atom _) fun m => .bind (.atom _) fun _ => .atom _
    exact hrest (v.onStream k .close)

end GuestThreads.World
