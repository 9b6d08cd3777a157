import GuestThreads.Proofs.World.Journal
import GuestThreads.Proofs.World.Process

/-!
# Guest code piece by piece

Guest code runs instruction by instruction, and others have their turns in between, also while a
module is being instantiated or a signal is on its way. Left alone, each of these processes does
what the operation of the same name does at once.
-/

namespace GuestThreads.World

open Worker (BringUp Driver Inbox Message Progress State)

variable {α β : Type}

namespace Course

/-- An outcome without a piece of its own. -/
def ofExcept (r : Except Fault α) : Course α := Process.done r

/-- A process that cannot fail. -/
def ofProcess (p : Process α) : Course α := ExceptT.lift p

/-- Look at the world. -/
def look (f : World → α) : Course α := atom do return f (← get)

/-! ## Guest code -/

variable [Wasm.Machine]

/-- The world after a step of guest code. -/
def stepped (w : World) : Wasm.Next → World
  | .running store _ => { w with store := store }
  | _ => w

/-- One step of guest code on the store. -/
def stepGuest (frames : List Wasm.Frame) : Act Wasm.Next :=
  modifyGet fun w => (Wasm.step w.store frames, stepped w (Wasm.step w.store frames))

/-- At most `steps` steps of guest code, which posts its signals to `sink`. -/
def runGuest (sink : Option Sink) (trap : Wasm.Trap → List Wasm.Call → Cause) :
    (steps : Nat) → List Wasm.Frame → Course (List UInt64)
  | 0, _ => ofExcept (outcome trap .exhausted)
  | steps + 1, frames => ofProcess (.atom (stepGuest frames)) >>= fun
    | .running _ frames' => runGuest sink trap steps frames'
    | .asked _ args frames' =>
      match Wasm.signalOf? args with
      | some s => ofProcess (.post sink s) >>= fun _ =>
        runGuest sink trap steps (Wasm.handBack [] frames')
      | none => ofExcept (outcome trap (.trapped .unreachable (Wasm.activeCalls frames)))
    | .finished results => ofExcept (outcome trap (.finished results))
    | .trapped reason => ofExcept (outcome trap (.trapped reason (Wasm.activeCalls frames)))
    | .closed why => ofExcept (outcome trap (.closed why))

def execute (sink : Option Sink) (trap : Wasm.Trap → List Wasm.Call → Cause) :
    Entry → Course (List UInt64)
  | .code frame => runGuest sink trap Wasm.Machine.stepLimit [frame]
  | .host args =>
    match Wasm.signalOf? args with
    | none => throw unknown
    | some s => ofProcess (.post sink s) >>= fun _ => pure []

def callFunction (e : Engine) (sink : Option Sink) (cancelled : Bool) (inst index : Nat)
    (args : List UInt64) (trap : Wasm.Trap → List Wasm.Call → Cause) : Course (List UInt64) := do
  let (owner, entry) ← atom (enterCall e cancelled inst index args)
  let results ← execute sink trap entry
  atom (unlessClosed owner results)

def link (k : Nat) (m : Wasm.Module) (sink : Option Sink) (cancelled : Bool) : Course Nat := do
  let (e, inst) ← atom (install k m)
  atom (fill inst)
  match m.start with
  | none => return inst
  | some start =>
    let _ ← callFunction e sink cancelled inst start [] (.startTrap (startName m start))
    return inst

def instantiate (k : Nat) (bytes : Bytes) (shared : Option Nat) (sink : Option Sink)
    (cancelled : Bool) : Course Nat :=
  tryCatch
    (do
      let (memoryId, m) ← atom (vet k bytes shared)
      let inst ← link k m sink cancelled
      atom (enlist k memoryId inst sink : Try Nat))
    fun f => throw (.instantiation (some f))

def callInstance (k : Nat) (name : String) (args : List UInt64) (cancelled : Bool) :
    Course (List UInt64) := do
  let (i, e, index) ← atom (findFunction k name)
  callFunction e i.sink cancelled i.inst index args .trap

/-- Make the instance of a worker. A scripted guest is made at once. -/
def makeInstance (entry : WorkerEntry) (cancelled : Bool) (msg : Message Nat) : Course Guest :=
  match entry.maker with
  | .engine e => do
    return .live (← instantiate e msg.bytes msg.memory (some (.relay entry.relay)) cancelled)
  | .scripted _ => atom (World.makeInstance entry cancelled msg)

/-- Call a guest. A scripted guest answers at once. -/
def callGuest (g : Guest) (cancelled : Bool) (name : String) (args : List UInt64) :
    Course (List UInt64) :=
  match g with
  | .live k => callInstance k name args cancelled
  | .scripted _ => atom (Guest.call g cancelled name args)

end Course

/-! ### Left alone -/

theorem runs_ofProcess {p : Process α} {f : α → Course β} {w w₁ w₂ : World} {a : α}
    {r : Except Fault β} (h : Runs p w a w₁) (hf : Runs (f a) w₁ r w₂) :
    Runs (Course.ofProcess p >>= f : Course β) w r w₂ := by
  have hlift : Runs (Course.ofProcess p) w (.ok a) w₁ := h.bind (.done _ _)
  exact hlift.bind hf

/-- The world after guest code has posted these signals. -/
def afterPosts (sink : Option Sink) (signals : List Signal) (w : World) : World :=
  signals.foldl (fun w s => (postSignal sink s w).2) w

theorem postAll_run (sink : Option Sink) (signals : List Signal) (w : World) :
    (signals.forM fun s => (postSignal sink s : Act Unit) : Try Unit) w =
      (.ok (), afterPosts sink signals w) := by
  induction signals generalizing w with
  | nil => rfl
  | cons s signals ih => exact ih _

/-- Posting neither looks at the store nor changes it. -/
theorem postSignal_store (sink : Option Sink) (s : Signal) (w : World) (store : Wasm.Store) :
    (postSignal sink s { w with store := store }).2 =
      { (postSignal sink s w).2 with store := store } := by
  match sink with
  | none | some (.inbox b) => rfl
  | some (.relay r) =>
    change (relaySignal r s { w with store := store }).2 =
      { (relaySignal r s w).2 with store := store }
    cases hr : w.relays[r]? with
    | none => rw [relaySignal_none hr, relaySignal_none (w := { w with store := store }) hr]
    | some entry =>
      obtain ⟨relay, outbox⟩ := entry
      rw [relaySignal_some hr, relaySignal_some (w := { w with store := store }) hr]
      cases relay.hasOutbox with
      | false => rfl
      | true => cases outbox <;> rfl

theorem postSignal_keeps_store (sink : Option Sink) (s : Signal) (w : World) :
    (postSignal sink s w).2.store = w.store := by
  have h := congrArg World.store (postSignal_store sink s w w.store)
  exact h

variable [Wasm.Machine]

/-- What was posted before does not matter to guest code. -/
theorem run_posted (steps : Nat) (posted : List Signal) (store : Wasm.Store)
    (frames : List Wasm.Frame) :
    Wasm.run Wasm.signalHost steps posted store frames =
      let out := Wasm.run Wasm.signalHost steps [] store frames
      (out.1, posted ++ out.2.1, out.2.2) := by
  induction steps generalizing posted store frames with
  | zero => simp [Wasm.run]
  | succ steps ih =>
    rw [Wasm.run, Wasm.run]
    cases Wasm.step store frames with
    | running store' frames' => exact ih posted store' frames'
    | finished results => simp
    | trapped reason => simp
    | closed why => simp
    | asked function args frames' =>
      simp only [Wasm.signalHost]
      cases Wasm.signalOf? args with
      | none => simp
      | some s =>
        dsimp only
        rw [ih (posted ++ [s]), ih ([] ++ [s])]
        simp

theorem runs_runGuest (sink : Option Sink) (trap : Wasm.Trap → List Wasm.Call → Cause)
    (steps : Nat) (frames : List Wasm.Frame) (w : World) :
    let out := Wasm.run Wasm.signalHost steps [] w.store frames
    Runs (Course.runGuest sink trap steps frames) w (outcome trap out.1)
      (afterPosts sink out.2.1 { w with store := out.2.2 }) := by
  induction steps generalizing frames w with
  | zero => exact .done _ _
  | succ steps ih =>
    dsimp only
    rw [Wasm.run, Course.runGuest]
    refine runs_ofProcess (runs_atom _ w) ?_
    have hstep : Course.stepGuest frames w =
        (Wasm.step w.store frames, Course.stepped w (Wasm.step w.store frames)) := rfl
    rw [hstep]
    cases Wasm.step w.store frames with
    | running store frames' => exact ih frames' { w with store := store }
    | finished results => exact .done _ _
    | trapped reason => exact .done _ _
    | closed why => exact .done _ _
    | asked function args frames' =>
      simp only [Wasm.signalHost, Course.stepped]
      cases Wasm.signalOf? args with
      | none => exact .done _ _
      | some s =>
        dsimp only
        refine runs_ofProcess (runs_post sink s w) ?_
        have hrest := ih (Wasm.handBack [] frames') (postSignal sink s w).2
        rw [postSignal_keeps_store] at hrest
        rw [List.nil_append, run_posted]
        simp only [List.singleton_append, afterPosts, List.foldl_cons, postSignal_store]
        exact hrest

theorem execute_code (sink : Option Sink) (trap : Wasm.Trap → List Wasm.Call → Cause)
    (frame : Wasm.Frame) (w : World) :
    execute sink trap (.code frame) w =
      let out := Wasm.run Wasm.signalHost Wasm.Machine.stepLimit [] w.store [frame]
      (outcome trap out.1, afterPosts sink out.2.1 { w with store := out.2.2 }) := by
  refine (read_run _ w).trans ?_
  generalize Wasm.run Wasm.signalHost Wasm.Machine.stepLimit [] w.store [frame] = out
  obtain ⟨ending, signals, store⟩ := out
  change ((signals.forM fun s => (postSignal sink s : Act Unit) : Try Unit) >>= fun _ =>
    liftExcept (outcome trap ending)) { w with store := store } = _
  rw [bind_run, postAll_run]
  rfl

namespace Performs

theorem execute (sink : Option Sink) (trap : Wasm.Trap → List Wasm.Call → Cause) (entry : Entry) :
    Performs (Course.execute sink trap entry) (World.execute sink trap entry) := by
  intro w
  cases entry with
  | code frame =>
    have hrun := runs_runGuest sink trap Wasm.Machine.stepLimit [frame] w
    rw [execute_code]
    exact hrun
  | host args =>
    rw [Course.execute, World.execute]
    cases Wasm.signalOf? args with
    | none => exact .done _ _
    | some s => exact runs_ofProcess (runs_post sink s w) (.done _ _)

theorem callFunction (e : Engine) (sink : Option Sink) (cancelled : Bool) (inst index : Nat)
    (args : List UInt64) (trap : Wasm.Trap → List Wasm.Call → Cause) :
    Performs (Course.callFunction e sink cancelled inst index args trap)
      (World.callFunction e sink cancelled inst index args trap) :=
  .bind (.atom _) fun entered => .bind (.execute sink trap entered.2) fun _ => .atom _

theorem link (k : Nat) (m : Wasm.Module) (sink : Option Sink) (cancelled : Bool) :
    Performs (Course.link k m sink cancelled) (World.link k m sink cancelled) := by
  refine .bind (.atom _) fun installed => .bind (.atom _) fun _ => ?_
  cases m.start with
  | none => exact .value _
  | some start => exact .bind (.callFunction _ _ _ _ _ _ _) fun _ => .value _

theorem instantiate (k : Nat) (bytes : Bytes) (shared : Option Nat) (sink : Option Sink)
    (cancelled : Bool) :
    Performs (Course.instantiate k bytes shared sink cancelled)
      (World.instantiate k bytes shared sink cancelled) := by
  refine .orElse (.bind (.atom _) fun vetted => ?_) fun f => .fault _
  exact .bind (.link k vetted.2 sink cancelled) fun inst => .atom _

theorem callInstance (k : Nat) (name : String) (args : List UInt64) (cancelled : Bool) :
    Performs (Course.callInstance k name args cancelled)
      (World.callInstance k name args cancelled) :=
  .bind (.atom _) fun _ => .callFunction _ _ _ _ _ _ _

theorem makeInstance (entry : WorkerEntry) (cancelled : Bool) (msg : Message Nat) :
    Performs (Course.makeInstance entry cancelled msg)
      (World.makeInstance entry cancelled msg) := by
  cases hmaker : entry.maker with
  | engine e =>
    simp only [Course.makeInstance, World.makeInstance, hmaker]
    exact .bind (.instantiate _ _ _ _ _) fun _ => .value _
  | scripted k =>
    simp only [Course.makeInstance, hmaker]
    exact .atom _

theorem callGuest (g : Guest) (cancelled : Bool) (name : String) (args : List UInt64) :
    Performs (Course.callGuest g cancelled name args) (Guest.call g cancelled name args) := by
  cases g with
  | live k => exact .callInstance k name args cancelled
  | scripted k => exact .atom _

end Performs

end GuestThreads.World
