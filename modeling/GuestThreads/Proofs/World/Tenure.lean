import GuestThreads.Proofs.World.Duties
import GuestThreads.Proofs.World.SingleShot

/-!
# The run of a thread

The run of a thread brings the thread up, records in the thread how that ended, and returns to the
threads' module, which keeps the first fault that is returned. These are pieces of their own, so
that a thread can be done while its run has yet to return. Whatever the others do in between, as
long as they leave the thread and its worker alone, what is recorded of a thread agrees with how its
worker stands: see `Verdict`.
-/

namespace GuestThreads.World

open Worker (BringUp Inbox Message Note Progress State)

variable {α β : Type}

/-! ## Pieces -/

/-- The fault that an outcome is. -/
def faultOf : Except Fault α → Option Fault
  | .error f => some f
  | .ok _ => none

namespace Course

/-- Record in a thread how it ended. -/
def endThread (k i : Nat) (r : Except Fault Nat) : Act Unit :=
  setModule k fun m => { m with threads := m.threads.modify i (·.finish r) }

/-- Write a record of a thread that failed. -/
def noteFailure (i : Nat) : Except Fault Nat → Act Unit
  | .error f => log .runtime .warn "thread failed" [("thread", .nat i), ("error", .fault f)]
  | .ok _ => return ()

/-- The run of a thread returns to its module. -/
def rejoin (k : Nat) (r : Except Fault Nat) : Act Unit :=
  setModule k fun m => { m with firstError := m.firstError.or (faultOf r) }

/-- The run of a thread that was entered. A worker whose wait is cancelled may not hear the
message. -/
def threadRun (c : WorkerEntry → Conduct) (k : Nat) (t : Thread) (closurePtr : UInt32)
    (heard : Bool) : Course Nat := do
  let m ← atom (loadedModule k)
  atom (log .runtime .debug "thread spawned"
    [("thread", .nat t.id), ("stack_ptr", .nat t.region.stackPtr.toNat),
      ("tls_ptr", .nat t.region.tlsPtr.toNat), ("closure_ptr", .nat closurePtr.toNat)] : Try Unit)
  let inbox := if heard then .message (bootstrap m t closurePtr) else .cancelled
  let r ← attempt (runWorker c t.worker inbox)
  atom (endThread k t.id r : Try Unit)
  atom (noteFailure t.id r : Try Unit)
  atom (rejoin k r : Try Unit)
  return t.id

end Course

/-- The last pieces of a run, left alone, record how the thread ended. -/
theorem finishThread_pieces (k i : Nat) (r : Except Fault Nat) (w : World) :
    (Course.rejoin k r (Course.noteFailure i r (Course.endThread k i r w).2).2).2 =
      (finishThread k i r w).2 := by
  have hmodules (f : Option Fault) :
      (w.modules.modify k fun m => { m with threads := m.threads.modify i (·.finish r) }).modify k
        (fun m => { m with firstError := m.firstError.or f }) =
      w.modules.modify k fun m => { m with
        threads := m.threads.modify i (·.finish r), firstError := m.firstError.or f } :=
    modify_modify k _ _
  cases r with
  | error f => exact congrArg (fun modules => ({ (finishThread k i (.error f) w).2 with
      modules := modules } : World)) (hmodules (some f))
  | ok b => exact congrArg (fun modules => ({ w with modules := modules } : World)) (hmodules none)

/-- Left alone, a thread is entered and run as it is spawned at once. -/
theorem Performs.threadRun [Wasm.Machine] (k : Nat) (closurePtr : UInt32)
    (ops : List (String × Bridge.Op)) (cancelled : Bool) :
    Performs (do
        let t ← Course.atom (newThread k ops)
        Course.threadRun (Conduct.guests · cancelled) k t closurePtr true)
      (World.spawn k closurePtr ops cancelled) := by
  refine .bind (.atom _) fun t => .bind (.atom _) fun m => .bind (.atom _) fun _ => ?_
  refine .bind (.attempt (.runWorker (fun entry => Conduct.guests_follows entry cancelled) _ _))
    fun r w => ?_
  have hend : ((do finishThread k t.id r; return t.id : Try Nat) w) =
      (.ok t.id, (Course.rejoin k r (Course.noteFailure t.id r
        (Course.endThread k t.id r w).2).2).2) :=
    congrArg (Prod.mk _) (finishThread_pieces k t.id r w).symm
  rw [hend]
  exact .piece (.piece (.piece (.done _ _)))

/-! ## What others leave alone -/

/-- What a module keeps of its threads. -/
structure Ledger where
  threads : List Thread
  firstError : Option Fault

def ledger (m : LoadedModule) : Ledger where
  threads := m.threads
  firstError := m.firstError

def ledger? (w : World) (k : Nat) : Option Ledger := w.modules[k]?.map ledger

/-- The threads of module `k` are left alone, and so are their workers. -/
structure Aloof (k : Nat) (w w' : World) : Prop where
  ledger : ∀ l, w.ledger? k = some l → w'.ledger? k = some l
  workers : ∀ l t e, w.ledger? k = some l → t ∈ l.threads → w.workers[t.worker]? = some e →
    w'.workers[t.worker]? = some e

def aloof (k : Nat) : Frame where
  rel := Aloof k
  refl _ := ⟨fun _ => id, fun _ _ _ _ _ => id⟩
  trans h g := ⟨fun l hl => g.ledger l (h.ledger l hl), fun l t e hl ht he =>
    g.workers l t e (h.ledger l hl) ht (h.workers l t e hl ht he)⟩

/-- What those do who have nothing to do with the threads of module `k`. -/
def detached (k : Nat) : Contract Unit where
  rely := anything
  step _ _ w _ w' := Aloof k w w'

section

variable {k i j : Nat} {w w' : World}

theorem aloof_of_eq (hmodules : w'.modules = w.modules) (hworkers : w'.workers = w.workers) :
    Aloof k w w' :=
  ⟨fun l hl => by rwa [ledger?, hmodules], fun l t e _ _ he => hworkers ▸ he⟩

theorem Aside.aloof (h : Aside w w') (k : Nat) : Aloof k w w' := by
  have hmap (v : World) : v.modules.map World.ledger = (v.modules.map core).map World.ledger := by
    rw [Array.map_map]
    rfl
  refine ⟨fun l hl => ?_, fun l t e _ _ he => h.workers ▸ he⟩
  rwa [ledger?, ← Array.getElem?_map, hmap, h.modules, ← hmap, Array.getElem?_map]

theorem onStream_aside (w : World) (m : Nat) (f : Mailbox ThreadSignal → Mailbox ThreadSignal) :
    Aside w (w.onStream m f) := by
  refine { aside.refl w with modules := ?_ }
  dsimp only [onStream]
  exact map_modify fun _ => rfl

theorem tally_aside (sink : Option Sink) (s : Signal) : Keeps aside (tally sink s) := by
  intro w
  match sink with
  | none => exact postSignal_aside none s w
  | some (.inbox b) => exact postSignal_aside (some (.inbox b)) s w
  | some (.relay r) =>
    cases hr : w.relays[r]? with
    | none =>
      rw [tally_none hr]
      exact aside.refl w
    | some entry =>
      rw [tally_some hr]
      exact { aside.refl w with }

theorem leave_aside (outbox : Outbox) (s : Signal) : Keeps aside (leave outbox s) := by
  intro w
  match outbox with
  | .none => exact deliver_aside .none s w
  | .inbox b => exact deliver_aside (.inbox b) s w
  | .stream m t => exact onStream_aside w m (·.enqueue { thread := t, signal := s })

theorem post_detached (k : Nat) (sink : Option Sink) (s : Signal) (w : World) :
    (Course.ofProcess (.post sink s)).Honours (detached k) () (fun _ _ => True) w := by
  refine Course.honours_ofProcess fun v _ => ⟨(), (tally_aside sink s v).aloof k, ?_⟩
  cases (tally sink s v).1 with
  | none => exact fun _ _ => ⟨rfl, trivial⟩
  | some passed =>
    refine fun v' _ => ⟨(), (leave_aside passed.1 passed.2 v').aloof k, ?_⟩
    cases (leave passed.1 passed.2 v').1 with
    | none => exact fun _ _ => ⟨rfl, trivial⟩
    | some m =>
      exact fun v'' _ => ⟨(), (onStream_aside v'' m .notify).aloof k, fun _ _ => ⟨rfl, trivial⟩⟩

theorem aloof_indifferent [Wasm.Machine] (k : Nat) : (aloof k).Indifferent where
  store _ _ _ := aloof_of_eq rfl rfl
  engines _ _ := aloof_of_eq rfl rfl
  memories _ _ := aloof_of_eq rfl rfl
  scripted _ _ := aloof_of_eq rfl rfl
  enlisted _ _ := aloof_of_eq rfl rfl
  closed _ _ := aloof_of_eq rfl rfl
  recorded _ _ _ := aloof_of_eq rfl rfl

theorem log_aloof (source : Log.Source) (level : Log.Level) (message : String)
    (fields : List (String × Log.Value)) :
    Keeps (World.aloof k) (log source level message fields) :=
  .change fun _ => aloof_of_eq rfl rfl

theorem hosting_detached [Wasm.Machine] (k : Nat) (sink : Option Sink) :
    Hosting (detached k) () (aloof k) (fun _ => True) sink where
  indifferent := aloof_indifferent k
  stable _ _ := trivial
  quiet h _ := ⟨h, trivial⟩
  post s _ := post_detached k sink s _

end

/-- Whatever is driven in this way leaves the threads of module `k` alone. -/
structure Conduct.Aloof (k : Nat) (c : Conduct) : Prop where
  instantiate : ∀ msg w, (c.instantiate msg).Honours (detached k) () (fun _ _ => True) w
  setGlobal : ∀ g name v w, (c.setGlobal g name v).Honours (detached k) () (fun _ _ => True) w
  call : ∀ g name args w, (c.call g name args).Honours (detached k) () (fun _ _ => True) w
  close : ∀ g w, (c.close g).Honours (detached k) () (fun _ _ => True) w

theorem callGuest_detached [Wasm.Machine] (k : Nat) (g : Guest) (cancelled : Bool) (name : String)
    (args : List UInt64) (w : World) :
    (Course.callGuest g cancelled name args).Honours (detached k) () (fun _ _ => True) w := by
  cases g with
  | live n =>
    refine ((hosting_detached k none).atom' (findFunction_keeps n name) trivial).bind
      fun found v _ => ?_
    exact (hosting_detached k found.1.sink).callFunction _ _ _ _ _ _ trivial
  | scripted n =>
    exact (hosting_detached k none).atom' (fun v => (guest_call_aside _ _ _ _ v).aloof k) trivial

/-- Guests leave all threads alone. -/
theorem Conduct.guests_aloof [Wasm.Machine] (k : Nat) (entry : WorkerEntry) (cancelled : Bool) :
    (Conduct.guests entry cancelled).Aloof k where
  instantiate msg w := by
    change (Course.makeInstance entry cancelled msg).Honours _ _ _ w
    unfold Course.makeInstance
    split
    · refine ((hosting_detached k _).instantiate (R := fun _ _ => True) (fun _ _ _ _ _ => trivial)
        (fun _ _ _ _ _ => trivial) _ _ _ _ trivial).bind fun n v _ => ?_
      exact (hosting_detached k none).value trivial _
    · exact (hosting_detached k none).atom' (fun v => (makeInstance_aside _ _ _ v).aloof k) trivial
  setGlobal g name v w :=
    (hosting_detached k none).atom' (guest_setGlobal_keeps (aloof_indifferent k) g name v) trivial
  call g name args w := callGuest_detached k g cancelled name args w
  close g w := (hosting_detached k none).atom' (guest_close_keeps (aloof_indifferent k) g) trivial

/-! ### Bridges and closings -/

section

variable {k : Nat}

theorem shut_aloof (b : Nat) : Keeps (aloof k) (Course.shut b) := by
  intro w
  change Aloof k w (if w.bridgeClosed b then w else w.shutBridge b)
  split
  · exact (aloof k).refl w
  · exact aloof_of_eq rfl rfl

/-- The use of bridges has nothing to do with threads. -/
theorem drive_detached [Wasm.Machine] (k b : Nat) (cancelled : Bool) (script : Bridge.Script)
    (w : World) :
    (Course.drive b cancelled script).Honours (detached k) () (fun _ _ => True) w := by
  refine ((hosting_detached k none).atom' (bridgeEntry_finds b).keeps trivial).bind fun e v _ => ?_
  exact (hosting_detached k none).session
    (fun cancelled name args w _ => callGuest_detached k e.guest cancelled name args w) b cancelled
    (fun _ => trivial) shut_aloof e.bridge script trivial

theorem setModule_aloof (j : Nat) {f : LoadedModule → LoadedModule}
    (hf : ∀ m, ledger (f m) = ledger m) : Keeps (aloof k) (setModule j f) := by
  refine .change fun w => ⟨fun l hl => ?_, fun _ _ _ _ _ => id⟩
  rwa [ledger?, ← Array.getElem?_map, map_modify hf, Array.getElem?_map]

theorem leaveThread_detached [Wasm.Machine] (t : Thread) (w : World) :
    (Process.leaveThread t).Honours (detached k) (fun _ _ _ => True) () w := by
  unfold Process.leaveThread
  cases t.bridge with
  | none => exact fun _ _ => trivial
  | some b =>
    refine Process.Honours.bind (((hosting_detached k none).atom' (bridgeEntry_finds b).keeps
      trivial).bind (S := fun _ _ => True) fun e v _ => ?_) fun _ _ _ _ _ _ => trivial
    refine ((hosting_detached k none).atom' (.lift (shut_aloof b)) trivial).bind
      fun closed v' _ => ?_
    split
    · exact (hosting_detached k none).value trivial ()
    · exact (hosting_detached k none).atom' (guest_close_keeps (aloof_indifferent k) e.guest)
        trivial

theorem leaveThreads_detached [Wasm.Machine] (threads : List Thread) (w : World) :
    (Process.leaveThreads threads).Honours (detached k) (fun _ _ _ => True) () w := by
  induction threads generalizing w with
  | nil => exact fun _ _ => trivial
  | cons t threads ih => exact Process.Honours.bind (leaveThread_detached t w) fun _ _ v _ => ih v

theorem shutModule_aloof (j : Nat) : Keeps (aloof k) (shutModule j).run := by
  refine .bind (loadedModule_finds j).keeps fun m => ?_
  split
  · exact .ok none
  · exact .bind (.lift (setModule_aloof j fun _ => rfl)) fun _ => .ok _

/-- A module that is closed keeps its threads as they are. -/
theorem closeModule_detached [Wasm.Machine] (k j : Nat) (w : World) :
    (Course.closeModule j).Honours (detached k) () (fun _ _ => True) w := by
  have hstream (f : Mailbox ThreadSignal → Mailbox ThreadSignal) :
      Keeps (aloof k) (modify (·.onStream j f) : Act Unit) :=
    .change fun w => (onStream_aside w j f).aloof k
  refine ((hosting_detached k none).atom' (shutModule_aloof j) trivial).bind fun threads v _ => ?_
  cases threads with
  | none => exact (hosting_detached k none).value trivial ()
  | some threads =>
    refine (Course.honours_ofProcess ((leaveThreads_detached threads v).imp
      fun _ _ _ _ => ⟨rfl, trivial⟩)).bind (R := fun _ _ => True) fun _ v₁ _ => ?_
    refine ((hosting_detached k none).atom' (.lift (hstream .markClosed)) trivial).bind
      fun _ v₂ _ => ?_
    refine ((hosting_detached k none).atom' (.lift (hstream .notify)) trivial).bind fun _ v₃ _ => ?_
    refine ((hosting_detached k none).atom' (loadedModule_finds j).keeps trivial).bind
      fun m v₄ _ => ?_
    refine ((hosting_detached k none).atom' (.lift (log_aloof _ _ _ _)) trivial).bind
      fun _ v₅ _ => ?_
    exact (hosting_detached k none).atom' (closeEngine_keeps (aloof_indifferent k) m.engine) trivial

end

/-! ## At work -/

/-- Thread `i` of module `k` is there, and so is its worker `j`. -/
def Seated (k i j : Nat) (w : World) : Prop :=
  (∃ l t, w.ledger? k = some l ∧ l.threads[i]? = some t ∧ t.worker = j) ∧
    ∃ e, w.workers[j]? = some e

/-- Of the threads of module `k` only the one with worker `j` is at work. -/
structure Works (k j : Nat) (w w' : World) : Prop where
  ledger : ∀ l, w.ledger? k = some l → w'.ledger? k = some l
  others : ∀ l t e, w.ledger? k = some l → t ∈ l.threads → t.worker ≠ j →
    w.workers[t.worker]? = some e → w'.workers[t.worker]? = some e
  own : ∀ e, w.workers[j]? = some e → ∃ e', w'.workers[j]? = some e'

def working (k j : Nat) : Frame where
  rel := Works k j
  refl _ := ⟨fun _ => id, fun _ _ _ _ _ _ => id, fun e he => ⟨e, he⟩⟩
  trans h g := {
    ledger := fun l hl => g.ledger l (h.ledger l hl)
    others := fun l t e hl ht hj he =>
      g.others l t e (h.ledger l hl) ht hj (h.others l t e hl ht hj he)
    own := fun e he => (h.own e he).elim fun e' he' => g.own e' he' }

section

variable {k i j : Nat} {w w' : World}

theorem Works.seated (h : Works k j w w') (hw : Seated k i j w) : Seated k i j w' := by
  obtain ⟨⟨l, t, hl, ht⟩, e, he⟩ := hw
  exact ⟨⟨l, t, h.ledger l hl, ht⟩, h.own e he⟩

theorem Aloof.works (h : Aloof k w w') (hw : Seated k i j w) : Works k j w w' := by
  obtain ⟨⟨l, t, hl, ht, rfl⟩, -⟩ := hw
  exact ⟨h.ledger, fun l' t' e hl' ht' _ he => h.workers l' t' e hl' ht' he,
    fun e he => ⟨e, h.workers l t e hl (List.mem_of_getElem? ht) he⟩⟩

theorem works_of_eq (hmodules : w'.modules = w.modules) (hworkers : w'.workers = w.workers) :
    Works k j w w' :=
  ⟨fun l hl => by rwa [ledger?, hmodules], fun _ _ _ _ _ _ he => hworkers ▸ he,
    fun e he => ⟨e, hworkers ▸ he⟩⟩

/-- Something happens to worker `j`. -/
theorem works_of_modify {f : WorkerEntry → WorkerEntry} (hmodules : w'.modules = w.modules)
    (hworkers : w'.workers = w.workers.modify j f) : Works k j w w' where
  ledger l hl := by rwa [ledger?, hmodules]
  others l t e _ _ hj he := by
    rw [hworkers]
    exact (getElem?_modify_ne (Ne.symm hj)).trans he
  own e he := by
    rw [hworkers]
    exact ⟨f e, getElem?_modify_self he⟩

theorem setWorker_works (f : WorkerEntry → WorkerEntry) : Keeps (working k j) (setWorker j f) :=
  .change fun _ => works_of_modify rfl rfl

theorem observe_works (entry : WorkerEntry) (msg : Message Nat) (n : Note) :
    Keeps (working k j) (observe j entry msg n) := by
  refine observe_keeps (F := working k j) ?_ entry msg n
  exact ⟨fun _ _ => works_of_eq rfl rfl, fun _ _ => works_of_eq rfl rfl,
    fun w _ => setWorker_works _ w, fun w _ => setWorker_works _ w⟩

/-! ## Tenure -/

/-- How far worker `j` has come. -/
def progress? (j : Nat) (w : World) : Option Progress := w.workers[j]?.map (·.progress)

/-- Thread `i` of module `k` is there, and its worker `j` has come as far as `p`. -/
structure SeatedAt (k i j : Nat) (p : Progress) (w : World) : Prop where
  seated : Seated k i j w
  progress : progress? j w = some p

/-- How the worker of a thread stands that came to this outcome, by whether it heard its message. -/
inductive Verdict : Bool → Except Fault Nat → Progress → Prop
  | running (b : Nat) : Verdict true (.ok b) { state := .running, handled := true }
  | failed (f : Fault) (state : State) :
      Verdict true (.error f) { state := state, handled := true, failed := true }
  /-- The bring-up has not begun. -/
  | unheard : Verdict false (.error (.external .cancelled)) {}

/-- How far the run of a thread has come. -/
inductive Tenure where
  | underway
  /-- The thread is done. -/
  | ended (r : Except Fault Nat)
  /-- The run has returned. -/
  | returned

/-- A piece of the run of thread `i` of module `k`, which has worker `j`. -/
inductive Serves (k i j : Nat) (heard : Bool) (w : World) : Tenure → Tenure → World → Prop
  | works {w' : World} (h : Works k j w w') : Serves k i j heard w .underway .underway w'
  | ends {r : Except Fault Nat} {p : Progress} (hp : progress? j w = some p)
      (h : Verdict heard r p) :
      Serves k i j heard w .underway (.ended r) (Course.endThread k i r w).2
  | records {r : Except Fault Nat} {w' : World} (h : Aloof k w w') :
      Serves k i j heard w (.ended r) (.ended r) w'
  | returns (r : Except Fault Nat) :
      Serves k i j heard w (.ended r) .returned (Course.rejoin k r w).2

/-- What the run of a thread may do, if no one else touches the thread's worker. -/
def tenure (k i j : Nat) (heard : Bool) : Contract Tenure where
  rely := {
    rel w w' := Seated k i j w → Seated k i j w' ∧ w'.workers[j]? = w.workers[j]?
    refl _ h := ⟨h, rfl⟩
    trans h g hw := ⟨(g (h hw).1).1, (g (h hw).1).2.trans (h hw).2⟩ }
  step phase _ w phase' w' := Serves k i j heard w phase phase' w'

theorem SeatedAt.later {p : Progress} {heard : Bool} (h : SeatedAt k i j p w)
    (hw : (tenure k i j heard).rely.rel w w') : SeatedAt k i j p w' := by
  obtain ⟨hseated, hworker⟩ := hw h.seated
  exact ⟨hseated, by rw [progress?, hworker]; exact h.progress⟩

/-- The worker's part of the run of a thread, at the end of which the worker stands as the outcome
says. -/
def Concludes (k i j : Nat) (heard : Bool) (p : Course Nat) (w : World) : Prop :=
  Process.Honours (tenure k i j heard)
    (fun r phase v => phase = .underway ∧ ∃ p, SeatedAt k i j p v ∧ Verdict heard r p) p .underway w

/-- What has nothing to do with threads, as a part of the run of one. -/
theorem Process.Honours.underway {P : α → Unit → World → Prop} {p : Process α} {heard : Bool}
    (h : p.Honours (detached k) P () w) (hw : Seated k i j w) :
    p.Honours (tenure k i j heard) (fun _ phase v => phase = .underway ∧ Seated k i j v)
      .underway w := by
  induction p generalizing w with
  | done a => exact fun v hv => ⟨rfl, (hv hw).1⟩
  | piece event act next ih =>
    intro v hv
    obtain ⟨_, hstep, hnext⟩ := h v trivial
    have hworks := Aloof.works hstep (hv hw).1
    exact ⟨.underway, .works hworks, ih _ hnext (hworks.seated (hv hw).1)⟩

/-- A request to the guest and what follows from its outcome. -/
theorem honours_driven {Q : β → Tenure → World → Prop} {e : Event} {p : Course α}
    {f : Except Fault α → Process β} {heard : Bool}
    (hp : ∀ v, p.Honours (detached k) () (fun _ _ => True) v) (hw : Seated k i j w)
    (hf : ∀ x v, Seated k i j v → (f x).Honours (tenure k i j heard) Q .underway v) :
    (Process.note e (p.run >>= f)).Honours (tenure k i j heard) Q .underway w := by
  intro v hv
  refine ⟨.underway, .works ((working k j).refl v), ?_⟩
  refine (Process.Honours.underway (hp v) (hv hw).1).bind ?_
  rintro x _ v' ⟨rfl, hv'⟩
  exact hf x v' hv'

/-! ## The bring-up -/

section

variable {c : Conduct} (hc : c.Aloof k) (entry : WorkerEntry) (msg : Message Nat)

include hc in
theorem carryOut_tenure {b : BringUp Guest} {state : State} {heard : Bool}
    (hb : b.SucceedsIn .running state) (h : Seated k i j w) :
    (Process.carryOut c j entry msg b state).Honours (tenure k i j heard)
      (fun out phase v =>
        phase = .underway ∧ Seated k i j v ∧ ∀ g, out.1 = .ok g → out.2 = .running) .underway
        w := by
  induction b generalizing state w with
  | instantiate next ih =>
    exact honours_driven (hc.instantiate msg) h fun x v hv => ih x (hb x) hv
  | setGlobal g name value next ih =>
    exact honours_driven (hc.setGlobal g name value) h fun x v hv => ih x (hb x) hv
  | params g name next ih =>
    intro v hv
    exact ⟨.underway, .works ((working k j).refl v), ih _ (hb _) (hv h).1⟩
  | call g name arg next ih =>
    exact honours_driven (hc.call g name [arg]) h fun x v hv => ih x (hb x) hv
  | close g next ih => exact honours_driven (hc.close g) h fun x v hv => ih x (hb x) hv
  | note n next ih =>
    intro v hv
    have hworks : Works k j v _ := observe_works entry msg n v
    exact ⟨.underway, .works hworks, ih hb (hworks.seated (hv h).1)⟩
  | done x => exact fun v hv => ⟨rfl, (hv h).1, hb⟩

theorem setProgress_seatedAt (h : Seated k i j w) (p : Progress) :
    SeatedAt k i j p (setWorker j (fun e => { e with progress := p }) w).2 := by
  obtain ⟨e, he⟩ := h.2
  refine ⟨(setWorker_works _ w).seated h, ?_⟩
  have hworker : (setWorker j (fun e => { e with progress := p }) w).2.workers[j]? =
      some { e with progress := p } := getElem?_modify_self he
  rw [progress?, hworker]
  rfl

theorem enterBridge_works (g : Guest) : Keeps (working k j) (Course.enterBridge j entry g) :=
  .seq (x := newBridge g entry.ops) (fun _ => works_of_eq rfl rfl) fun b =>
    .seq (setWorker_works _) fun _ => .done b

theorem enterBridge_seatedAt {p : Progress} (h : SeatedAt k i j p w) (g : Guest) :
    SeatedAt k i j p (Course.enterBridge j entry g w).2 := by
  refine ⟨(enterBridge_works entry g w).seated h.seated, ?_⟩
  obtain ⟨e, he, hprogress⟩ := Option.map_eq_some_iff.1 h.progress
  have hworker : (Course.enterBridge j entry g w).2.workers[j]? =
      some { e with bridge := some w.bridges.size } := getElem?_modify_self he
  rw [progress?, hworker, ← hprogress]
  rfl

theorem observe_seatedAt {p : Progress} (h : SeatedAt k i j p w) {n : Worker.Note}
    (hn : Ending n) : SeatedAt k i j p (observe j entry msg n w).2 := by
  refine ⟨(observe_works entry msg n w).seated h.seated, ?_⟩
  obtain ⟨logs, spans, hobserve⟩ := observe_ending j entry msg hn w
  have hworld : (observe j entry msg n w).2 = _ := hobserve w.workers w.bridges rfl
  rw [hworld]
  exact h.progress

theorem settle_tenure {before : Progress} (hbefore : before.failed = false)
    {ended : Except Fault Guest × State} (hended : ∀ g, ended.1 = .ok g → ended.2 = .running)
    (h : Seated k i j w) : Concludes k i j true (Course.settle j entry msg before ended) w := by
  obtain ⟨f | g, state⟩ := ended
  · intro v hv
    refine ⟨.underway, .works (setWorker_works _ v), fun v₁ hv₁ => ?_⟩
    have h₁ := (setProgress_seatedAt (hv h).1 _).later hv₁
    refine ⟨.underway, .works (observe_works entry msg (.failed state f) v₁), fun v₂ hv₂ => ?_⟩
    have h₂ := observe_seatedAt (n := .failed state f) entry msg h₁ trivial
    exact ⟨rfl, _, h₂.later hv₂, .failed f state⟩
  · intro v hv
    refine ⟨.underway, .works (setWorker_works _ v), fun v₁ hv₁ => ?_⟩
    have h₁ := (setProgress_seatedAt (hv h).1 _).later hv₁
    refine ⟨.underway, .works (enterBridge_works entry g v₁), fun v₂ hv₂ => ?_⟩
    have h₂ := (enterBridge_seatedAt entry h₁ g).later hv₂
    refine ⟨.underway, .works (observe_works entry msg .returned v₂), fun v₃ hv₃ => ?_⟩
    have h₃ := observe_seatedAt (n := .returned) entry msg h₂ trivial
    refine ⟨rfl, _, h₃.later hv₃, ?_⟩
    cases hended g rfl
    rw [hbefore]
    exact .running _

include hc in
theorem bringUp_tenure {before : Progress} (hbefore : before.failed = false)
    (h : Seated k i j w) : Concludes k i j true (Course.bringUp c j entry msg before) w := by
  have hsteps := Worker.steps_succeedsIn (ι := Guest) entry.exports msg.stackPtr msg.tlsPtr
    msg.closurePtr before.state
  refine Process.Honours.bind (carryOut_tenure hc entry msg hsteps h).ofProcess ?_
  rintro _ _ v ⟨ended, rfl, rfl, hv, hended⟩
  exact settle_tenure entry msg hbefore hended hv

include hc in
/-- A worker that has not begun takes its message. -/
theorem handle_tenure (h : SeatedAt k i j {} w) :
    Concludes k i j true (Course.handle c j entry msg) w := by
  intro v hv
  have hfresh := h.later hv
  obtain ⟨e, he, hprogress⟩ := Option.map_eq_some_iff.1 hfresh.progress
  have hclaim : (Course.claim j entry msg).run v =
      (.ok {}, (observe j entry msg .started v).2) := by
    refine (claim_run he entry msg).trans ?_
    rw [hprogress]
    rfl
  have hworks : Works k j v _ := observe_works entry msg .started v
  rw [hclaim]
  exact ⟨.underway, .works hworks, bringUp_tenure hc entry msg rfl (hworks.seated hfresh.seated)⟩

end

theorem runWorker_tenure {c : WorkerEntry → Conduct} (hc : ∀ entry, (c entry).Aloof k)
    (heard : Bool) (msg : Message Nat) (h : SeatedAt k i j {} w) :
    Concludes k i j heard
      (Course.runWorker c j (if heard then .message msg else .cancelled)) w := by
  intro v hv
  have hfresh := h.later hv
  obtain ⟨entry, hentry, -⟩ := Option.map_eq_some_iff.1 hfresh.progress
  have hfound : (workerEntry j).run v = (.ok entry, v) := (workerEntry_finds j).run hentry
  rw [hfound]
  refine ⟨.underway, .works ((working k j).refl v), ?_⟩
  cases heard with
  | true => exact handle_tenure (hc entry) entry msg hfresh
  | false => exact fun v₁ hv₁ => ⟨rfl, _, hfresh.later hv₁, .unheard⟩

/-! ## The whole run -/

theorem Seated.module (h : Seated k i j w) : ∃ m, w.modules[k]? = some m := by
  obtain ⟨⟨l, -, hl, -⟩, -⟩ := h
  obtain ⟨m, hm, -⟩ := Option.map_eq_some_iff.1 hl
  exact ⟨m, hm⟩

theorem noteFailure_aloof (r : Except Fault Nat) : Keeps (aloof k) (Course.noteFailure i r) := by
  cases r with
  | error f => exact log_aloof _ _ _ _
  | ok b => exact .done ()

/-- A run ends its thread once, in accordance with how the worker stands, and then returns. -/
theorem threadRun_tenure {c : WorkerEntry → Conduct} (hc : ∀ entry, (c entry).Aloof k) {t : Thread}
    (hid : t.id = i) (h : SeatedAt k i t.worker {} w) (closurePtr : UInt32) (heard : Bool) :
    Process.Honours (tenure k i t.worker heard) (fun _ phase _ => phase = .returned)
      (Course.threadRun c k t closurePtr heard) .underway w := by
  subst hid
  intro v hv
  have h₁ := h.later hv
  obtain ⟨m, hm⟩ := h₁.seated.module
  have hfound : (loadedModule k).run v = (.ok m, v) := (loadedModule_finds k).run hm
  rw [hfound]
  refine ⟨.underway, .works ((working k _).refl v), fun v₁ hv₁ => ?_⟩
  refine ⟨.underway, .works (works_of_eq rfl rfl), ?_⟩
  let inbox : Inbox Nat := if heard then .message (Course.bootstrap m t closurePtr) else .cancelled
  change Process.Honours _ _
    (Course.ofProcess (Course.runWorker c t.worker inbox) >>= _ : Course Nat) _ _
  have h₂ : SeatedAt k t.id t.worker {} _ :=
    ⟨(works_of_eq rfl rfl).seated (h₁.later hv₁).seated, (h₁.later hv₁).progress⟩
  refine Process.Honours.bind (runWorker_tenure hc heard _ h₂).ofProcess ?_
  rintro _ _ v₂ ⟨r, rfl, rfl, p, hp, hverdict⟩
  refine fun v₃ hv₃ => ⟨.ended r, .ends (hp.later hv₃).progress hverdict, fun v₄ _ => ?_⟩
  refine ⟨.ended r, .records (noteFailure_aloof r v₄), fun v₅ _ => ?_⟩
  exact ⟨.returned, .returns r, fun _ _ => rfl⟩

end

end GuestThreads.World
