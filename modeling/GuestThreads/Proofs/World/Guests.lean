import GuestThreads.Proofs.Wasm.Evolution
import GuestThreads.Proofs.World.Frame

/-!
# What driving guests leaves alone

Engines and guests reach the store, the signals on their way and the engine's own log records, and
nothing else of the world. A frame that does not look at what engines own is kept by all that
engines and guests do, but for the signals that they post.
-/

namespace GuestThreads.World

variable {α β : Type} {F : Frame}

/-! ## Looking things up -/

theorem findFunction_keeps (k : Nat) (name : String) : Keeps F (findFunction k name).run := by
  refine .bind (liveInstance_finds k).keeps fun i => .bind .read fun w => ?_
  split
  · exact .fail _
  · exact .bind (engine_finds _).keeps fun e => .ok _

theorem liftExcept_keeps (r : Except Fault α) : Keeps F (liftExcept r).run :=
  fun w => F.refl w

theorem unlessClosed_keeps (owner : Wasm.Owner) (results : List UInt64) :
    Keeps F (unlessClosed owner results).run := by
  refine .bind .read fun w => ?_
  split
  · exact .fail _
  · exact .ok _

/-! ## Engines -/

section Engines

variable [Wasm.Machine]

/-- The frame lets guests change what they own, engines compile and instantiate, and engines
write records. -/
structure Frame.Passive (F : Frame) : Prop where
  store : ∀ w store, Wasm.Evolves w.store store → F.rel w { w with store := store }
  compiled : ∀ (w : World) (k : Nat) (e : Engine) bytes m, w.engines[k]? = some e →
    e.accept? bytes = some m → F.rel w { w with
      engines := w.engines.modify k fun e => { e with cache := e.cache ++ [(bytes, m)] } }
  installed : ∀ (w : World) (k inst : Nat), F.rel w { w with
    engines := w.engines.modify k fun e => { e with instances := .instance inst :: e.instances } }
  recorded : ∀ w r, r.source = .engine → F.rel w { w with logs := w.logs.push r }

section Passive

variable (hF : F.Passive)

include hF

theorem log_keeps (level : Log.Level) (message : String) (fields : List (String × Log.Value)) :
    Keeps F (log .engine level message fields) :=
  .change fun w => hF.recorded w _ rfl

theorem compile_keeps (k : Nat) (bytes : Bytes) : Keeps F (compile k bytes).run := by
  refine (engine_finds k).keepsThen fun w e he => ?_
  split
  · exact .ok _
  · split
    · exact .fail _
    · rename_i haccept
      refine .changeThen (hF.compiled w k e bytes _ he haccept) ?_
      exact .bind (.lift (log_keeps hF _ _ _)) fun _ => .ok _

omit hF in
theorem enterCallee_keeps (callee : Wasm.Callee) (args : List UInt64) :
    Keeps F (enterCallee callee args).run := by
  cases callee with
  | host function => exact .ok _
  | code definer target =>
    refine .bind .read fun _ => ?_
    split
    · exact .fail _
    · exact .ok _

theorem enterCall_keeps (e : Engine) (cancelled : Bool) (inst index : Nat) (args : List UInt64) :
    Keeps F (enterCall e cancelled inst index args).run := by
  refine .bind .read fun w => ?_
  split
  · split
    · split
      · dsimp only
        split
        · exact .failThen _ _
        · split
          · refine .bind (.alter fun w => hF.store w _ (.close _ _ _)) fun _ => ?_
            exact .bind .read fun _ => .failThen _ _
          · exact enterCallee_keeps _ _
      · exact .fail _
    · exact .fail _
  · exact .fail _

theorem install_keeps (k : Nat) (m : Wasm.Module) : Keeps F (install k m).run := by
  refine .bind (engine_finds k).keeps fun e => .readAt fun w => ?_
  split
  · exact .fail _
  · rename_i hinst
    refine .alterThen (hF.store w _ (Wasm.instantiate_evolves hinst)) ?_
    exact .bind (.lift (.change fun w => hF.installed w k _)) fun _ => .ok _

theorem fill_keeps (inst : Nat) : Keeps F (fill inst).run := by
  refine .readAt fun w => .alterThen (hF.store w _ (.leave _ _ _)) ?_
  split
  · exact .fail _
  · exact .ok _

theorem vet_keeps (k : Nat) (bytes : Bytes) (shared : Option Nat) :
    Keeps F (vet k bytes shared).run := by
  refine .bind (engine_finds k).keeps fun e => ?_
  split
  · refine .bind (memory_finds _).keeps fun m => ?_
    dsimp only
    split
    · exact .failThen _ _
    · split
      · exact .failThen _ _
      · refine .bind .read fun w => ?_
        split
        · exact .failThen _ _
        · exact .bind (compile_keeps hF k bytes) fun _ => .ok _
  · exact .fail _

theorem setInstanceGlobal_keeps (k : Nat) (name : String) (v : UInt32) :
    Keeps F (setInstanceGlobal k name v).run := by
  refine .bind (liveInstance_finds k).keeps fun i => ?_
  dsimp only
  split
  · exact .failThen _ _
  · refine .bind .read fun w => ?_
    split
    · exact .fail _
    · split
      · exact .fail _
      · split
        · exact .failThen _ _
        · split
          · exact .failThen _ _
          · exact .alter fun w => hF.store w _ (.setGlobal _ _ _ _)

/-! ### Guests and their signals -/

section Posting

variable {sink : Option Sink} (hpost : ∀ s, Keeps F (postSignal sink s))

include hpost

theorem execute_keeps (trap : Wasm.Trap → List Wasm.Call → Cause) (entry : Entry) :
    Keeps F (execute sink trap entry).run := by
  unfold execute
  cases entry with
  | code frame =>
    refine .readAt fun w => ?_
    have hstore := Wasm.run_evolves Wasm.Machine.stepLimit [] w.store [frame]
    generalize Wasm.run Wasm.signalHost Wasm.Machine.stepLimit [] w.store [frame] = out at hstore
    obtain ⟨ending, signals, store⟩ := out
    refine .alterThen (hF.store w store hstore) ?_
    exact .bind (.forAll fun s => .lift (hpost s)) fun _ => liftExcept_keeps _
  | host args =>
    dsimp only
    split
    · exact .fail _
    · exact .bind (.lift (hpost _)) fun _ => .ok _

theorem callFunction_keeps (e : Engine) (cancelled : Bool) (inst index : Nat) (args : List UInt64)
    (trap : Wasm.Trap → List Wasm.Call → Cause) :
    Keeps F (callFunction e sink cancelled inst index args trap).run :=
  .bind (enterCall_keeps hF e cancelled inst index args) fun entered =>
    .bind (execute_keeps hF hpost trap entered.2)
      fun results => unlessClosed_keeps entered.1 results

theorem link_keeps (k : Nat) (m : Wasm.Module) (cancelled : Bool) :
    Keeps F (link k m sink cancelled).run := by
  refine .bind (install_keeps hF k m) fun installed => .bind (fill_keeps hF _) fun _ => ?_
  split
  · exact .bind (callFunction_keeps hF hpost _ _ _ _ _ _) fun _ => .ok _
  · exact .ok _

end Posting

theorem callInstance_keeps (hpost : ∀ sink s, Keeps F (postSignal sink s)) (k : Nat)
    (name : String) (args : List UInt64) (cancelled : Bool) :
    Keeps F (callInstance k name args cancelled).run :=
  .bind (findFunction_keeps k name) fun _ => callFunction_keeps hF (hpost _) _ _ _ _ _ _

end Passive

/-- The frame also lets instances be entered and closed. -/
structure Frame.Lenient (F : Frame) : Prop extends F.Passive where
  enlisted : ∀ w i, F.rel w { w with instances := w.instances.push i }
  closed : ∀ w k, F.rel w { w with
    instances := w.instances.modify k fun i => { i with isOpen := false } }

section Lenient

variable (hF : F.Lenient)

include hF

theorem enlist_keeps (k memoryId inst : Nat) (sink : Option Sink) :
    Keeps F (enlist k memoryId inst sink) := fun w => hF.enlisted w _

theorem closeInstance_keeps (k : Nat) : Keeps F (closeInstance k).run :=
  .bind (liveInstance_finds k).keeps fun _ => .alter fun w =>
    F.trans (hF.closed w k) (hF.store _ _ (.closeInstance _ _ _))

theorem instantiate_keeps {sink : Option Sink} (hpost : ∀ s, Keeps F (postSignal sink s)) (k : Nat)
    (bytes : Bytes) (shared : Option Nat) (cancelled : Bool) :
    Keeps F (instantiate k bytes shared sink cancelled).run := by
  refine .orElse (.bind (vet_keeps hF.toPassive k bytes shared) fun vetted => ?_) fun f => .fail _
  exact .bind (link_keeps hF.toPassive hpost k _ cancelled) fun inst =>
    .lift (enlist_keeps hF k _ inst sink)

end Lenient

/-- The frame does not look at the memories, nor at what engines offer to guests. -/
structure Frame.Furnishing (F : Frame) : Prop where
  store : ∀ w s, Wasm.Evolves w.store s → F.rel w { w with store := s }
  recorded : ∀ w (r : Log.Record), r.source = .engine → F.rel w { w with logs := w.logs.push r }
  memories : ∀ w memories, F.rel w { w with memories := memories }
  offered : ∀ w k (f : Engine → Engine), (∀ e, ∃ modules instances memory,
    f e = { e with modules := modules, instances := instances, memory := memory }) →
    F.rel w { w with engines := w.engines.modify k f }

section Furnishing

variable (hF : F.Furnishing)

include hF

omit [Wasm.Machine] in
theorem offer_keeps (k : Nat) {f : Engine → Engine} (hf : ∀ e, ∃ modules instances memory,
    f e = { e with modules := modules, instances := instances, memory := memory }) :
    Keeps F (setEngine k f) :=
  .change fun w => hF.offered w k f hf

omit [Wasm.Machine] in
theorem registerHost_keeps (k : Nat) (name function detail : String) :
    Keeps F (registerHost k name function detail).run := by
  refine .bind (engine_finds k).keeps fun e => ?_
  dsimp only
  split
  · exact .failThen _ _
  · split
    · exact .failThen _ _
    · exact .bind .read fun _ => .lift (offer_keeps hF k fun _ => ⟨_, _, _, rfl⟩)

theorem registerEnv_keeps (k : Nat) (min max : UInt32) :
    Keeps F (registerEnv k min max).run := by
  refine .bind (engine_finds k).keeps fun e => ?_
  dsimp only
  split
  · exact .fail _
  · split
    · exact .failThen _ _
    · refine .readAt fun w => ?_
      split
      · exact .fail _
      · rename_i hinst
        refine .alterThen (hF.store w _ (Wasm.instantiate_evolves hinst)) ?_
        exact .bind (.lift (offer_keeps hF k fun _ => ⟨_, _, _, rfl⟩)) fun _ => .ok _

omit [Wasm.Machine] in
theorem unregister_keeps (k : Nat) (names : List String) : Keeps F (unregister k names) :=
  offer_keeps hF k fun _ => ⟨_, _, _, rfl⟩

theorem attachMemory_keeps (k : Nat) (host : String) (name : Config.ImportName)
    (min max : UInt32) : Keeps F (attachMemory k host name min max).run := by
  refine .bind (.orElse (registerEnv_keeps hF k min max) fun f => ?_) fun env => ?_
  · exact .bind (.lift (unregister_keeps hF k _)) fun _ => .fail _
  · refine .bind .read fun w => ?_
    split
    · refine .bind (.alter fun w => hF.store w _ (.closeInstance _ _ _)) fun _ => ?_
      exact .bind (.lift (unregister_keeps hF k _)) fun _ => .fail _
    · refine .bind .read fun _ => ?_
      refine .bind (.alter fun w => hF.memories w _) fun _ => ?_
      refine .bind (.lift (offer_keeps hF k fun _ => ⟨_, _, _, rfl⟩)) fun _ => ?_
      exact .bind (.lift (.change fun w => hF.recorded w _ rfl)) fun _ => .ok _

theorem newMemory_keeps (k : Nat) (min max : UInt32) : Keeps F (newMemory k min max).run := by
  unfold newMemory
  dsimp only
  split
  · exact .failThen _ _
  · refine .bind (engine_finds k).keeps fun e => ?_
    split
    · exact .failThen _ _
    · split
      · exact .bind (registerHost_keeps hF k _ _ _) fun _ => attachMemory_keeps hF k _ _ min max
      · exact .bind (registerHost_keeps hF k _ _ _) fun _ => attachMemory_keeps hF k _ _ min max

end Furnishing

/-- The frame does not look at anything that engines and scripted guests own. -/
structure Frame.Indifferent (F : Frame) : Prop extends F.Lenient where
  engines : ∀ w engines, F.rel w { w with engines := engines }
  memories : ∀ w memories, F.rel w { w with memories := memories }
  scripted : ∀ w scripted, F.rel w { w with scripted := scripted }
  compiled := fun w _ _ _ _ _ _ => engines w _
  installed := fun w _ _ => engines w _

theorem Frame.Indifferent.furnishing (hF : F.Indifferent) : F.Furnishing where
  store := hF.store
  recorded := hF.recorded
  memories := hF.memories
  offered w _ _ _ := hF.engines w _

section Indifferent

variable (hF : F.Indifferent)

include hF

theorem setEngine_keeps (k : Nat) (f : Engine → Engine) : Keeps F (setEngine k f) :=
  .change fun w => hF.engines w _

theorem closeEngine_keeps (k : Nat) : Keeps F (closeEngine k).run := by
  refine .bind (engine_finds k).keeps fun e => ?_
  refine .bind (.alter fun w => hF.store w _ (.closeAll _ _)) fun _ => ?_
  exact .lift (setEngine_keeps hF k _)

theorem newEngine_keeps (config : Option Config) : Keeps F (newEngine config).run := by
  unfold newEngine
  dsimp only
  split
  · exact .failThen _ _
  · split
    · exact .failThen _ _
    · refine .bind (.lift (log_keeps hF.toPassive _ _ _)) fun _ => ?_
      exact fun w => hF.engines w _

theorem noteScripted_keeps (k : Nat) (line : String) : Keeps F (noteScripted k line) :=
  .change fun w => hF.scripted w _

theorem guest_setGlobal_keeps (g : Guest) (name : String) (v : UInt32) :
    Keeps F (Guest.setGlobal g name v).run := by
  unfold Guest.setGlobal
  cases g with
  | live k => exact setInstanceGlobal_keeps hF.toPassive k name v
  | scripted k =>
    refine .bind (.lift (noteScripted_keeps hF _ _)) fun _ => ?_
    refine .bind (scriptedGuest_finds k).keeps fun s => ?_
    split
    · exact .fail _
    · exact .ok _

theorem guest_close_keeps (g : Guest) : Keeps F (Guest.close g).run := by
  unfold Guest.close
  cases g with
  | live k => exact closeInstance_keeps hF.toLenient k
  | scripted k =>
    refine .bind (.lift (noteScripted_keeps hF _ _)) fun _ => ?_
    refine .bind (scriptedGuest_finds k).keeps fun s => ?_
    split
    · exact .fail _
    · exact .ok _

end Indifferent

end Engines

/-! ## What guests leave alone -/

/-- A loaded module without the signals in its stream. -/
def core (m : LoadedModule) : LoadedModule := { m with stream := .new }

/-- What others than engines have logged. -/
def ownRecords (w : World) : List Log.Record := w.logs.toList.filter (·.source ≠ .engine)

/-- What driving guests leaves alone: workers, bridges and runtimes, the spans, what is logged by
others than engines, and all of a loaded module but its stream. -/
structure Aside (w w' : World) : Prop where
  workers : w'.workers = w.workers
  bridges : w'.bridges = w.bridges
  runtimes : w'.runtimes = w.runtimes
  spans : w'.spans = w.spans
  records : w'.ownRecords = w.ownRecords
  modules : w'.modules.map core = w.modules.map core

def aside : Frame where
  rel := Aside
  refl _ := ⟨rfl, rfl, rfl, rfl, rfl, rfl⟩
  trans h g := ⟨g.1.trans h.1, g.2.trans h.2, g.3.trans h.3, g.4.trans h.4, g.5.trans h.5,
    g.6.trans h.6⟩

theorem recorded_aside (w : World) {r : Log.Record} (hr : r.source = .engine) :
    Aside w { w with logs := w.logs.push r } :=
  ⟨rfl, rfl, rfl, rfl, by simp [ownRecords, hr], rfl⟩

theorem map_modify {xs : Array α} {k : Nat} {f : α → α} {g : α → β} (h : ∀ a, g (f a) = g a) :
    (xs.modify k f).map g = xs.map g := by
  apply Array.ext
  · simp
  · intro i hi _
    simp only [Array.getElem_map, Array.getElem_modify]
    split
    · exact h _
    · rfl

/-- Arrays that agree in what `g` looks at have entries in the same places. -/
theorem getElem?_of_map_eq {xs ys : Array α} {g : α → β} (h : ys.map g = xs.map g) {j : Nat} {a : α}
    (ha : ys[j]? = some a) : ∃ b, xs[j]? = some b ∧ g a = g b := by
  have hmap : (xs.map g)[j]? = some (g a) := by
    rw [← h, Array.getElem?_map, ha]
    rfl
  rw [Array.getElem?_map, Option.map_eq_some_iff] at hmap
  obtain ⟨b, hb, heq⟩ := hmap
  exact ⟨b, hb, heq.symm⟩

theorem deliver_aside (outbox : Outbox) (s : Signal) : Keeps aside (deliver outbox s) := by
  refine .change fun w => ?_
  cases outbox with
  | none => exact aside.refl w
  | inbox k => exact ⟨rfl, rfl, rfl, rfl, rfl, rfl⟩
  | stream m t =>
    refine ⟨rfl, rfl, rfl, rfl, rfl, ?_⟩
    dsimp only
    exact map_modify fun loaded => rfl

theorem relaySignal_aside (k : Nat) (s : Signal) : Keeps aside (relaySignal k s) := by
  refine .seq (fun w => aside.refl w) fun w => ?_
  split
  · exact .done ()
  · refine .seq (.change fun _ => ⟨rfl, rfl, rfl, rfl, rfl, rfl⟩) fun _ => ?_
    exact .forEach fun s => deliver_aside _ s

theorem postSignal_aside (sink : Option Sink) (s : Signal) : Keeps aside (postSignal sink s) := by
  unfold postSignal
  split
  · exact .change fun w => recorded_aside w rfl
  · exact deliver_aside _ _
  · exact relaySignal_aside _ _

theorem playBack_aside (sink : Option Sink) (signals : List Signal) (error : Option Fault)
    (value : α) : Keeps aside (playBack sink signals error value).run := by
  have hpost : Keeps aside (signals.forM fun s => (postSignal sink s : Act Unit) : Try Unit).run :=
    .forAll fun s => .lift (postSignal_aside sink s)
  unfold playBack
  dsimp only
  cases error with
  | some f =>
    split
    · exact .bind hpost fun _ => .fail f
    · exact .fail f
  | none =>
    split
    · exact .bind hpost fun _ => .ok value
    · exact .ok value

variable [Wasm.Machine]

theorem aside_indifferent : aside.Indifferent where
  store _ _ _ := ⟨rfl, rfl, rfl, rfl, rfl, rfl⟩
  engines _ _ := ⟨rfl, rfl, rfl, rfl, rfl, rfl⟩
  memories _ _ := ⟨rfl, rfl, rfl, rfl, rfl, rfl⟩
  scripted _ _ := ⟨rfl, rfl, rfl, rfl, rfl, rfl⟩
  enlisted _ _ := ⟨rfl, rfl, rfl, rfl, rfl, rfl⟩
  closed _ _ := ⟨rfl, rfl, rfl, rfl, rfl, rfl⟩
  recorded w _ hr := recorded_aside w hr

theorem instantiate_aside (k : Nat) (bytes : Bytes) (shared : Option Nat) (sink : Option Sink)
    (cancelled : Bool) : Keeps aside (instantiate k bytes shared sink cancelled).run :=
  instantiate_keeps aside_indifferent.toLenient (postSignal_aside sink) k bytes shared cancelled

theorem callInstance_aside (k : Nat) (name : String) (args : List UInt64) (cancelled : Bool) :
    Keeps aside (callInstance k name args cancelled).run :=
  callInstance_keeps aside_indifferent.toPassive postSignal_aside k name args cancelled

theorem makeInstance_aside (entry : WorkerEntry) (cancelled : Bool) (msg : Worker.Message Nat) :
    Keeps aside (makeInstance entry cancelled msg).run := by
  unfold makeInstance
  dsimp only
  split
  · exact .bind (instantiate_aside _ _ _ _ _) fun _ => .ok _
  · refine .bind (.lift (noteScripted_keeps aside_indifferent _ _)) fun _ => ?_
    refine .bind (.alter fun _ => ⟨rfl, rfl, rfl, rfl, rfl, rfl⟩) fun _ => ?_
    exact .bind (scriptedGuest_finds _).keeps fun g => playBack_aside _ _ _ _

theorem guest_call_aside (g : Guest) (cancelled : Bool) (name : String) (args : List UInt64) :
    Keeps aside (Guest.call g cancelled name args).run := by
  unfold Guest.call
  cases g with
  | live k => exact callInstance_aside k name args cancelled
  | scripted k =>
    refine .bind (.lift (noteScripted_keeps aside_indifferent _ _)) fun _ => ?_
    refine .bind (scriptedGuest_finds k).keeps fun s => ?_
    split
    · exact .fail _
    · exact playBack_aside _ _ _ _

end GuestThreads.World
