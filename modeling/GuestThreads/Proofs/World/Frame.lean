import GuestThreads.Proofs.Action
import GuestThreads.World.Runtime

/-!
# What actions leave alone

A frame relates a world to the worlds that an action may turn it into. Frames compose along an
action's steps, so that what an action leaves alone follows from what its parts leave alone.
-/

namespace GuestThreads.World

variable {α β : Type}

theorem modify_run (f : World → World) (w : World) : ((modify f : Act Unit).run w).2 = f w := rfl

/-! ## Frames -/

/-- A relation between a world and a later one that holds step by step. -/
structure Frame where
  rel : World → World → Prop
  refl : ∀ w, rel w w
  trans : ∀ {u v w}, rel u v → rel v w → rel u w

variable {F : Frame}

/-- Wherever it is run, the action stays within the frame. -/
def Keeps (F : Frame) (act : Act α) : Prop := ∀ w, F.rel w (act w).2

/-- Run in `w`, the action stays within the frame. -/
def KeepsAt (F : Frame) (w : World) (act : Act α) : Prop := F.rel w (act w).2

namespace Keeps

theorem done (a : α) : Keeps F (pure a : Act α) := fun w => F.refl w

theorem seq {x : Act α} {f : α → Act β} (hx : Keeps F x) (hf : ∀ a, Keeps F (f a)) :
    Keeps F (x >>= f) := fun w => F.trans (hx w) (hf (x w).1 (x w).2)

theorem change {f : World → World} (h : ∀ w, F.rel w (f w)) : Keeps F (modify f : Act Unit) := h

theorem forEach {l : List α} {f : α → Act Unit} (h : ∀ a, Keeps F (f a)) : Keeps F (l.forM f) := by
  induction l with
  | nil => exact done ()
  | cons a l ih => exact seq (h a) fun _ => ih

theorem ok (a : α) : Keeps F (pure a : Try α).run := fun w => F.refl w

theorem fail (f : Fault) : Keeps F (throw f : Try α).run := fun w => F.refl w

theorem read : Keeps F (get : Try World).run := fun w => F.refl w

theorem lift {x : Act α} (hx : Keeps F x) : Keeps F (liftM x : Try α).run := hx

theorem alter {f : World → World} (h : ∀ w, F.rel w (f w)) : Keeps F (modify f : Try Unit).run := h

/-- What a frame says of one run. -/
theorem of_run {x : Try α} {r : Except Fault α} {w w' : World} (hx : Keeps F x.run)
    (h : x w = (r, w')) : F.rel w w' := by
  have hw : F.rel w (x w).2 := hx w
  rwa [h] at hw

theorem bind {x : Try α} {f : α → Try β} (hx : Keeps F x.run) (hf : ∀ a, Keeps F (f a).run) :
    Keeps F (x >>= f).run := by
  intro w
  have h : F.rel w (x w).2 := hx w
  change F.rel w ((x >>= f) w).2
  rw [bind_run]
  rcases hw : x w with ⟨e | a, v⟩ <;> rw [hw] at h
  · exact h
  · exact F.trans h (hf a v)

/-- Nothing happens after a failure. -/
theorem failThen (f : Fault) (g : α → Try β) : Keeps F ((throw f : Try α) >>= g).run :=
  fun w => F.refl w

theorem orElse {x : Try α} {handler : Fault → Try α} (hx : Keeps F x.run)
    (hh : ∀ e, Keeps F (handler e).run) : Keeps F (tryCatch x handler).run := by
  intro w
  have h : F.rel w (x w).2 := hx w
  change F.rel w ((tryCatch x handler) w).2
  rw [tryCatch_run]
  rcases hw : x w with ⟨e | a, v⟩ <;> rw [hw] at h
  · exact F.trans h (hh e v)
  · exact h

theorem forAll {l : List α} {f : α → Try Unit} (h : ∀ a, Keeps F (f a).run) :
    Keeps F (l.forM f).run := by
  induction l with
  | nil => exact ok ()
  | cons a l ih => exact bind (h a) fun _ => ih

/-- What is read is the world that the action goes on in. -/
theorem readAt {f : World → Try α} (h : ∀ w, KeepsAt F w (f w).run) :
    Keeps F ((get : Try World) >>= f).run := h

end Keeps

namespace KeepsAt

variable {w : World}

theorem fail (f : Fault) : KeepsAt F w (throw f : Try α).run := F.refl w

theorem ok (a : α) : KeepsAt F w (pure a : Try α).run := F.refl w

theorem changeThen {g : World → World} {f : Unit → Try α} (hg : F.rel w (g w))
    (hf : Keeps F (f ()).run) : KeepsAt F w (liftM (modify g : Act Unit) >>= f : Try α).run :=
  F.trans hg (hf (g w))

theorem alterThen {g : World → World} {f : Unit → Try α} (hg : F.rel w (g w))
    (hf : Keeps F (f ()).run) : KeepsAt F w (modify g >>= f : Try α).run := F.trans hg (hf (g w))

end KeepsAt

/-! ## Looking things up -/

/-- The action looks an entry up, and fails if there is none. -/
def Finds (act : Try α) (found? : World → Option α) : Prop :=
  ∀ w, act w = ((found? w).elim (.error unknown) .ok, w)

namespace Finds

variable {act : Try α} {found? : World → Option α} {w w' : World} {a : α}

theorem run (h : Finds act found?) (ha : found? w = some a) : act w = (.ok a, w) := by
  rw [h w, ha]
  rfl

theorem miss (h : Finds act found?) (hw : found? w = none) : act w = (.error unknown, w) := by
  rw [h w, hw]
  rfl

theorem ok (h : Finds act found?) (ha : act w = (.ok a, w')) : found? w = some a ∧ w' = w := by
  cases hw : found? w with
  | none => cases (h.miss hw).symm.trans ha
  | some b =>
    cases (h.run hw).symm.trans ha
    exact ⟨rfl, rfl⟩

theorem keeps (h : Finds act found?) : Keeps F act.run := by
  intro w
  have hrun : act.run w = _ := h w
  rw [hrun]
  exact F.refl w

/-- What is found is an entry of the world that the action goes on in. -/
theorem keepsThen {f : α → Try β} (h : Finds act found?)
    (hf : ∀ w a, found? w = some a → KeepsAt F w (f a).run) : Keeps F (act >>= f).run := by
  intro w
  change F.rel w ((act >>= f) w).2
  rw [bind_run]
  cases hw : found? w with
  | none =>
    rw [h.miss hw]
    exact F.refl w
  | some a =>
    rw [h.run hw]
    exact hf w a hw

end Finds

theorem engine_finds (k : Nat) : Finds (engine k) (·.engines[k]?) := by
  intro w
  refine (read_run _ w).trans ?_
  dsimp only
  cases w.engines[k]? <;> rfl

theorem memory_finds (k : Nat) : Finds (memory k) (·.memories[k]?) := by
  intro w
  refine (read_run _ w).trans ?_
  dsimp only
  cases w.memories[k]? <;> rfl

theorem liveInstance_finds (k : Nat) : Finds (liveInstance k) (·.instances[k]?) := by
  intro w
  refine (read_run _ w).trans ?_
  dsimp only
  cases w.instances[k]? <;> rfl

theorem scriptedGuest_finds (k : Nat) : Finds (scriptedGuest k) (·.scripted[k]?) := by
  intro w
  refine (read_run _ w).trans ?_
  dsimp only
  cases w.scripted[k]? <;> rfl

theorem bridgeEntry_finds (k : Nat) : Finds (bridgeEntry k) (·.bridges[k]?) := by
  intro w
  refine (read_run _ w).trans ?_
  dsimp only
  cases w.bridges[k]? <;> rfl

theorem workerEntry_finds (k : Nat) : Finds (workerEntry k) (·.workers[k]?) := by
  intro w
  refine (read_run _ w).trans ?_
  dsimp only
  cases w.workers[k]? <;> rfl

theorem runtime_finds (k : Nat) : Finds (runtime k) (·.runtimes[k]?) := by
  intro w
  refine (read_run _ w).trans ?_
  dsimp only
  cases w.runtimes[k]? <;> rfl

theorem loadedModule_finds (k : Nat) : Finds (loadedModule k) (·.modules[k]?) := by
  intro w
  refine (read_run _ w).trans ?_
  dsimp only
  cases w.modules[k]? <;> rfl

/-! ## Observing a worker -/

/-- A frame that leaves room for what is recorded of worker `k`. -/
structure Frame.Observed (F : Frame) (k : Nat) : Prop where
  logs : ∀ w logs, F.rel w { w with logs := logs }
  spans : ∀ w spans, F.rel w { w with spans := spans }
  started : ∀ w span, F.rel w { w with workers := w.workers.modify k fun e => { e with
    progress := { e.progress with handled := true }, span := span } }
  advanced : ∀ w state, F.rel w { w with workers := w.workers.modify k fun e => { e with
    progress := { e.progress with state := state }, span := e.span.event state.name } }

theorem observe_keeps {k : Nat} (h : F.Observed k) (entry : WorkerEntry) (msg : Worker.Message Nat)
    (n : Worker.Note) : Keeps F (observe k entry msg n) := by
  have hlog (level : Log.Level) (message : String) (fields : List (String × Log.Value)) :
      Keeps F (workerLog entry level message fields) := by
    unfold workerLog
    split
    · exact .change fun w => h.logs w _
    · exact .done ()
  have hend (f : Trace.Span → Trace.Span) : Keeps F (endSpan k f) := by
    refine .change fun w => ?_
    split
    · exact h.spans w _
    · exact F.refl w
  have hget {f : World → Act Unit} (hf : ∀ w, Keeps F (f w)) : Keeps F (get >>= f) :=
    .seq (fun w => F.refl w) hf
  cases n with
  | started => exact .change fun w => h.started w _
  | advanced state => exact .seq (.change fun w => h.advanced w state) fun _ => hlog _ _ _
  | closeFailed f => exact hlog _ _ _
  | failed state f => exact hget fun w => .seq (hlog _ _ _) fun _ => hend _
  | returned => exact hget fun w => .seq (hlog _ _ _) fun _ => hend _
  | ignored state => exact hlog _ _ _

end GuestThreads.World
