import GuestThreads.Proofs.World.Memories

/-!
# Requests to engines

A request is anything that can be asked of an engine, of a shared memory or of an instance. A
history is any sequence of requests, and the first one meets a world without engines. What a request
leaves alone of the engines and their memories is stated as a frame.
-/

namespace GuestThreads.World

/-- What can be asked for. -/
inductive Request where
  | newEngine (config : Option Config)
  | closeEngine (k : Nat)
  | compile (k : Nat) (bytes : Bytes)
  | newMemory (k : Nat) (min max : UInt32)
  | closeMemory (id : Nat)
  | instantiate (k : Nat) (bytes : Bytes) (shared : Option Nat) (sink : Option Sink)
    (cancelled : Bool)
  | call (i : Nat) (name : String) (args : List UInt64) (cancelled : Bool)
  | global (i : Nat) (name : String)
  | setGlobal (i : Nat) (name : String) (v : UInt32)
  | close (i : Nat)
  | read (view : View) (offset length : UInt32)
  | write (view : View) (offset : UInt32) (bytes : Bytes)

/-- What is answered. -/
inductive Reply where
  | done
  /-- The number of what was made. -/
  | made (n : Nat)
  | words (ws : List UInt64)
  | bytes (bs : Bytes)
deriving DecidableEq

/-- What a view shows. -/
def View.memory? (w : World) (view : View) : Option Wasm.Memory :=
  (view.linear? w).bind (w.store.memories[·]?)

/-- The reply is put together without looking at the world. -/
theorem reply_world {α : Type} (x : Try α) (f : α → Reply) (w : World) :
    ((x >>= fun a => pure (f a)) w).2 = (x w).2 := by
  rw [bind_run]
  rcases x w with ⟨_ | _, _⟩ <;> rfl

theorem reply_answer {α : Type} (x : Try α) (f : α → Reply) (w : World) :
    ((x >>= fun a => pure (f a)) w).1 = (x w).1.map f := by
  rw [bind_run]
  rcases x w with ⟨_ | _, _⟩ <;> rfl

section Performing

variable [Wasm.Machine]

namespace Request

def perform : Request → Try Reply
  | newEngine config => do return .made (← World.newEngine config)
  | closeEngine k => do
    World.closeEngine k
    return .done
  | compile k bytes => do return .made (← World.compile k bytes).place
  | newMemory k min max => do return .made (← World.newMemory k min max)
  | closeMemory id => do
    World.closeMemory id
    return .done
  | instantiate k bytes shared sink cancelled => do
    return .made (← World.instantiate k bytes shared sink cancelled)
  | call i name args cancelled => do return .words (← callInstance i name args cancelled)
  | global i name => do return .words [← liftExcept ((← get).instanceGlobal i name)]
  | setGlobal i name v => do
    setInstanceGlobal i name v
    return .done
  | close i => do
    closeInstance i
    return .done
  | read view offset length => do
    return .bytes (← liftExcept (MemoryView.read (view.memory? (← get)) offset length))
  | write view offset bytes => do
    alterMemory (view.linear? (← get)) (MemoryView.write · offset bytes)
    return .done

/-- The world after a request, whether it succeeds or not. -/
def after (r : Request) (w : World) : World := (r.perform w).2

section

variable (w : World)

theorem after_newEngine (config : Option Config) :
    (newEngine config).after w = (World.newEngine config w).2 := reply_world _ _ w

theorem after_closeEngine (k : Nat) : (closeEngine k).after w = (World.closeEngine k w).2 :=
  reply_world _ _ w

theorem after_compile (k : Nat) (bytes : Bytes) :
    (compile k bytes).after w = (World.compile k bytes w).2 := reply_world _ _ w

theorem after_newMemory (k : Nat) (min max : UInt32) :
    (newMemory k min max).after w = (World.newMemory k min max w).2 := reply_world _ _ w

theorem after_closeMemory (id : Nat) : (closeMemory id).after w = (World.closeMemory id w).2 :=
  reply_world _ _ w

theorem after_instantiate (k : Nat) (bytes : Bytes) (shared : Option Nat) (sink : Option Sink)
    (cancelled : Bool) : (instantiate k bytes shared sink cancelled).after w =
      (World.instantiate k bytes shared sink cancelled w).2 := reply_world _ _ w

theorem after_call (i : Nat) (name : String) (args : List UInt64) (cancelled : Bool) :
    (call i name args cancelled).after w = (callInstance i name args cancelled w).2 :=
  reply_world _ _ w

theorem after_setGlobal (i : Nat) (name : String) (v : UInt32) :
    (setGlobal i name v).after w = (setInstanceGlobal i name v w).2 := reply_world _ _ w

theorem after_close (i : Nat) : (close i).after w = (closeInstance i w).2 := reply_world _ _ w

/-- To look at a global changes nothing. -/
theorem perform_global (i : Nat) (name : String) : (global i name).perform w =
    ((w.instanceGlobal i name).map fun v => .words [v], w) := by
  rw [perform, read_run, bind_run]
  cases w.instanceGlobal i name <;> rfl

theorem perform_read (view : View) (offset length : UInt32) :
    (read view offset length).perform w =
      ((MemoryView.read (view.memory? w) offset length).map .bytes, w) := by
  rw [perform, read_run, bind_run]
  cases MemoryView.read (view.memory? w) offset length <;> rfl

theorem perform_write (view : View) (offset : UInt32) (bytes : Bytes) :
    (write view offset bytes).perform w =
      (do alterMemory (view.linear? w) (MemoryView.write · offset bytes)
          return .done : Try Reply) w := read_run _ w

end

end Request

/-- The world after a history. -/
def afterAll (history : List Request) (w : World) : World := history.foldl (fun w r => r.after w) w

/-- Nothing has been made so far that engines deal with. -/
structure Blank (w : World) : Prop where
  store : w.store = {}
  engines : w.engines = #[]
  memories : w.memories = #[]
  instances : w.instances = #[]

/-- What holds at first and is kept by every request holds after every history. -/
theorem afterAll_induction {P : World → Prop}
    (hstep : ∀ (r : Request) w, P w → P (r.after w)) {w : World}
    (h : P w) (history : List Request) : P (afterAll history w) := by
  induction history generalizing w with
  | nil => exact h
  | cons r history ih => exact ih (hstep r w h)

end Performing

/-! ## Signals on their way -/

/-- Engines, memories and guests are as they were. -/
structure BesideSignals (w w' : World) : Prop where
  store : w'.store = w.store
  engines : w'.engines = w.engines
  memories : w'.memories = w.memories
  instances : w'.instances = w.instances

def besideSignals : Frame where
  rel := BesideSignals
  refl _ := ⟨rfl, rfl, rfl, rfl⟩
  trans h g := ⟨g.1.trans h.1, g.2.trans h.2, g.3.trans h.3, g.4.trans h.4⟩

/-- Posting changes only what signals pass on their way, and the records. -/
theorem postSignal_besideSignals (sink : Option Sink) (s : Signal) :
    Keeps besideSignals (postSignal sink s) := by
  have hdeliver (outbox : Outbox) (s : Signal) : Keeps besideSignals (deliver outbox s) := by
    refine .change fun w => ?_
    cases outbox <;> exact ⟨rfl, rfl, rfl, rfl⟩
  unfold postSignal
  split
  · exact .change fun _ => ⟨rfl, rfl, rfl, rfl⟩
  · exact hdeliver _ _
  · refine .seq (fun w => besideSignals.refl w) fun w => ?_
    split
    · exact .done ()
    · refine .seq (.change fun _ => ⟨rfl, rfl, rfl, rfl⟩) fun _ => ?_
      exact .forEach fun s => hdeliver _ s

section

variable (sink : Option Sink) (signals : List Signal) (w : World)

theorem afterPosts_besideSignals : BesideSignals w (afterPosts sink signals w) := by
  induction signals generalizing w with
  | nil => exact besideSignals.refl w
  | cons s signals ih => exact besideSignals.trans (postSignal_besideSignals sink s w) (ih _)

/-- An inbox keeps what is posted to it, in order. -/
theorem afterPosts_inbox (b : Nat) : afterPosts (some (.inbox b)) signals w =
    { w with inboxes := w.inboxes.modify b (· ++ signals) } := by
  induction signals generalizing w with
  | nil =>
    have hsame : w.inboxes.modify b (· ++ []) = w.inboxes :=
      Wasm.modify_eq_self fun _ _ => List.append_nil _
    rw [hsame]
    rfl
  | cons s signals ih =>
    have hsame : (w.inboxes.modify b (· ++ [s])).modify b (· ++ signals) =
        w.inboxes.modify b (· ++ s :: signals) := by
      rw [modify_modify]
      exact modify_congr fun _ _ => List.append_assoc _ _ _
    rw [← hsame]
    exact ih _

end

/-! ## Engines and memories -/

/-- An engine without what it has compiled and instantiated. -/
def essence (e : Engine) : Engine := { e with cache := [], instances := [] }

/-- The engines and the memories stay as they are. -/
structure SameLineup (w w' : World) : Prop where
  engines : w'.engines.map essence = w.engines.map essence
  memories : w'.memories = w.memories

def sameLineup : Frame where
  rel := SameLineup
  refl _ := ⟨rfl, rfl⟩
  trans h g := ⟨g.1.trans h.1, g.2.trans h.2⟩

theorem sameLineup_lenient [Wasm.Machine] : sameLineup.Lenient where
  store _ _ _ := ⟨rfl, rfl⟩
  compiled _ _ _ _ _ _ _ := by
    refine ⟨?_, rfl⟩
    dsimp only
    apply map_modify
    intro e
    rfl
  installed _ _ _ := by
    refine ⟨?_, rfl⟩
    dsimp only
    apply map_modify
    intro e
    rfl
  enlisted _ _ := ⟨rfl, rfl⟩
  closed _ _ := ⟨rfl, rfl⟩
  recorded _ _ _ := ⟨rfl, rfl⟩

theorem postSignal_sameLineup (sink : Option Sink) (s : Signal) :
    Keeps sameLineup (postSignal sink s) := by
  intro w
  have h : BesideSignals w (postSignal sink s w).2 := postSignal_besideSignals sink s w
  exact ⟨congrArg (·.map essence) h.engines, h.memories⟩

/-- A write from outside that succeeds stores bytes inside a memory. -/
theorem write_ok {m : Option Wasm.Memory} {offset : UInt32} {bytes : Bytes} {m' : Wasm.Memory}
    (h : MemoryView.write m offset bytes = .ok m') : ∃ before, m = some before ∧
      before.covers offset.toNat bytes.length = true ∧ m' = before.store offset.toNat bytes := by
  rw [MemoryView.write] at h
  split at h
  · rename_i hwrite
    cases h
    obtain ⟨before, hbefore, hstore⟩ := Option.bind_eq_some_iff.1 hwrite
    rw [Wasm.Memory.write] at hstore
    split at hstore
    · rename_i hcovers
      cases hstore
      exact ⟨before, hbefore, hcovers, rfl⟩
    · cases hstore
  · cases h

theorem write_keeps [Wasm.Machine] {F : Frame} (hF : F.Passive) (k : Option Nat) (offset : UInt32)
    (bytes : Bytes) : Keeps F (alterMemory k (MemoryView.write · offset bytes)).run := by
  refine .readAt fun w => ?_
  dsimp only
  cases hwrite : MemoryView.write (k.bind (w.store.memories[·]?)) offset bytes with
  | error f => exact F.refl w
  | ok m' =>
    obtain ⟨before, hbefore, -, rfl⟩ := write_ok hwrite
    obtain ⟨j, rfl, hj⟩ := Option.bind_eq_some_iff.1 hbefore
    exact hF.store w _ (.setMemory w.store j _)

/-! ## Kinds of requests -/

namespace Request

/-- Only four requests change which engines and memories there are. -/
def Minor : Request → Prop
  | newEngine _ | closeEngine _ | newMemory _ _ _ | closeMemory _ => False
  | _ => True

/-- Of these, two change which instances there are. -/
def Ordinary : Request → Prop
  | instantiate _ _ _ _ _ | close _ => False
  | r => r.Minor

variable [Wasm.Machine] {F : Frame} {r : Request}

theorem Ordinary.keeps (h : r.Ordinary) (hF : F.Passive)
    (hpost : ∀ sink s, Keeps F (postSignal sink s)) (w : World) : F.rel w (r.after w) := by
  suffices hkeeps : Keeps F r.perform.run from hkeeps w
  cases r with
  | newEngine _ => cases h
  | closeEngine _ => cases h
  | newMemory _ _ _ => cases h
  | closeMemory _ => cases h
  | instantiate _ _ _ _ _ => cases h
  | close _ => cases h
  | compile k bytes => exact .bind (compile_keeps hF k bytes) fun _ => .ok _
  | call i name args cancelled =>
    exact .bind (callInstance_keeps hF hpost i name args cancelled) fun _ => .ok _
  | global i name => exact .bind .read fun w => .bind (liftExcept_keeps _) fun _ => .ok _
  | setGlobal i name v => exact .bind (setInstanceGlobal_keeps hF i name v) fun _ => .ok _
  | read view offset length =>
    exact .bind .read fun w => .bind (liftExcept_keeps _) fun _ => .ok _
  | write view offset bytes =>
    exact .bind .read fun w => .bind (write_keeps hF _ offset bytes) fun _ => .ok _

theorem Minor.keeps (h : r.Minor) (hF : F.Lenient)
    (hpost : ∀ sink s, Keeps F (postSignal sink s)) (w : World) : F.rel w (r.after w) := by
  cases r with
  | instantiate k bytes shared sink cancelled =>
    have hkeeps : Keeps F (Request.instantiate k bytes shared sink cancelled).perform.run :=
      .bind (instantiate_keeps hF (hpost sink) k bytes shared cancelled) fun _ => .ok _
    exact hkeeps w
  | close i =>
    have hkeeps : Keeps F (Request.close i).perform.run :=
      .bind (closeInstance_keeps hF i) fun _ => .ok _
    exact hkeeps w
  | _ => exact Ordinary.keeps (by exact h) hF.toPassive hpost w

theorem Minor.sameLineup (h : r.Minor) (w : World) : SameLineup w (r.after w) :=
  h.keeps sameLineup_lenient postSignal_sameLineup w

end Request

end GuestThreads.World
