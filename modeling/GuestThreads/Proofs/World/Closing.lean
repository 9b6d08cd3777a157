import GuestThreads.Proofs.Mailbox.Discarding
import GuestThreads.Proofs.World.Duties
import GuestThreads.Proofs.World.Lineup

/-!
# What becomes of loaded modules

The parts of loading a module and of closing a runtime, each by itself. Preparing a module leaves
everything alone that exists. Closing a module closes its engine as well, and dropping its signals
brings its stream to an end; other modules do not notice.
-/

namespace GuestThreads.World

/-! ## Loading -/

/-- What a load of a closed runtime is refused with. -/
def runtimeClosed : Fault := .report { phase := .load, kind := .closed, detail := "runtime closed" }

section

variable {w w' : World} {k : Nat} {r : Runtime}

theorem checkOpen_run (hr : w.runtimes[k]? = some r) :
    checkOpen k w = (if r.closed then .error runtimeClosed else .ok (), w) := by
  rw [checkOpen, bind_run, (runtime_finds k).run hr]
  dsimp only
  cases r.closed <;> rfl

theorem shutRuntime_run (hr : w.runtimes[k]? = some r) : shutRuntime k w = (.ok r.modules, { w with
    runtimes := w.runtimes.modify k fun r => { r with modules := [], closed := true } }) := by
  rw [shutRuntime, bind_run, (runtime_finds k).run hr]
  rfl

/-- Engines stay, and closed ones stay closed. -/
def EnginesStay (w w' : World) : Prop := ∀ (j : Nat) (e : Engine), w.engines[j]? = some e →
  ∃ e', w'.engines[j]? = some e' ∧ (e.closed = true → e'.closed = true)

theorem enginesStay_of_eq (h : w'.engines = w.engines) : EnginesStay w w' :=
  fun j e he => ⟨e, (congrArg (·[j]?) h).trans he, fun hclosed => hclosed⟩

/-- Engines stay, and runtimes and modules are left alone. -/
structure Lasts (w w' : World) : Prop where
  runtimes : w'.runtimes = w.runtimes
  modules : w'.modules = w.modules
  engines : EnginesStay w w'

def lasts : Frame where
  rel := Lasts
  refl _ := ⟨rfl, rfl, enginesStay_of_eq rfl⟩
  trans h g := ⟨g.1.trans h.1, g.2.trans h.2, fun j e he => by
    obtain ⟨e', he', hclosed⟩ := h.3 j e he
    obtain ⟨e'', he'', hclosed'⟩ := g.3 j e' he'
    exact ⟨e'', he'', hclosed' ∘ hclosed⟩⟩

theorem lasts_modify {f : Engine → Engine} (hf : ∀ e, e.closed = true → (f e).closed = true)
    {engines : Array Engine} {i j : Nat} {e : Engine} (he : engines[j]? = some e) :
    ∃ e', (engines.modify i f)[j]? = some e' ∧ (e.closed = true → e'.closed = true) := by
  by_cases hi : i = j
  · subst hi
    exact ⟨_, getElem?_modify_self he, hf e⟩
  · exact ⟨e, (getElem?_modify_ne hi).trans he, id⟩

theorem lasts_passive [Wasm.Machine] : lasts.Passive where
  store _ _ _ := ⟨rfl, rfl, enginesStay_of_eq rfl⟩
  compiled _ _ _ _ _ _ _ := ⟨rfl, rfl, fun _ _ => lasts_modify (by exact fun _ h => h)⟩
  installed _ _ _ := ⟨rfl, rfl, fun _ _ => lasts_modify (by exact fun _ h => h)⟩
  recorded _ _ _ := ⟨rfl, rfl, enginesStay_of_eq rfl⟩

theorem lasts_furnishing : lasts.Furnishing where
  store _ _ _ := ⟨rfl, rfl, enginesStay_of_eq rfl⟩
  recorded _ _ _ := ⟨rfl, rfl, enginesStay_of_eq rfl⟩
  memories _ _ := ⟨rfl, rfl, enginesStay_of_eq rfl⟩
  offered _ _ f hf := by
    refine ⟨rfl, rfl, fun _ _ => lasts_modify fun e h => ?_⟩
    obtain ⟨modules, instances, memory, heq⟩ := hf e
    rw [heq]
    exact h

theorem newEngine_lasts (config : Option Config) : Keeps lasts (newEngine config).run := by
  intro w
  change Lasts w (newEngine config w).2
  rcases newEngine_cases config w with ⟨f, hf⟩ | ⟨record, hnew⟩
  · rw [hf]
    exact lasts.refl w
  · rw [hnew]
    exact ⟨rfl, rfl, fun j e he => ⟨e, getElem?_push_of_some _ he, id⟩⟩

theorem closeEngine_lasts (e : Nat) : Keeps lasts (closeEngine e).run := by
  refine (engine_finds e).keepsThen fun w x _ => ?_
  exact ⟨rfl, rfl, fun _ _ => lasts_modify fun _ _ => rfl⟩

theorem orCloseEngine_lasts {α : Type} {act : Try α} {wrap : Fault → Fault} {e : Nat}
    (h : Keeps lasts act.run) : Keeps lasts (orCloseEngine e act wrap).run :=
  .orElse h fun _ => .bind (closeEngine_lasts e) fun _ => .fail _

theorem prepare_lasts [Wasm.Machine] (bytes : Bytes) : Keeps lasts (prepare k bytes).run := by
  refine .bind (runtime_finds k).keeps fun r => .bind (newEngine_lasts _) fun e => ?_
  refine .bind (orCloseEngine_lasts (compile_keeps lasts_passive e bytes)) fun _ => ?_
  refine .bind (orCloseEngine_lasts (newMemory_keeps lasts_furnishing e _ _)) fun m => ?_
  refine .bind .read fun v => ?_
  dsimp only
  split
  · exact .bind (closeEngine_lasts e) fun _ => .fail _
  · exact .ok _

/-- A module that was prepared is open, and its engine exists. -/
structure Ready (w : World) (m : LoadedModule) : Prop where
  isOpen : m.closed = false
  stream : m.stream = .new
  engine : ∃ e, w.engines[m.engine]? = some e

theorem prepare_ready [Wasm.Machine] {bytes : Bytes} {m : LoadedModule}
    (h : prepare k bytes w = (.ok m, w')) : Ready w' m := by
  obtain ⟨r, -, -, -, hstream, hopen, -⟩ := prepare_ok h
  obtain ⟨r', w₁, -, h₁⟩ := bind_ok h
  obtain ⟨e, w₂, hengine, h₂⟩ := bind_ok h₁
  obtain ⟨_, w₃, hcompile, h₃⟩ := bind_ok h₂
  obtain ⟨mem, w₄, hmemory, h₄⟩ := bind_ok h₃
  obtain ⟨f, hf⟩ | ⟨record, hnew⟩ := newEngine_cases (some r'.config) w₁
  · cases hf.symm.trans hengine
  cases hnew.symm.trans hengine
  obtain ⟨x, hx, -⟩ := (lasts.trans
    (Keeps.of_run (orCloseEngine_lasts (compile_keeps lasts_passive _ bytes)) hcompile)
    (Keeps.of_run (orCloseEngine_lasts (newMemory_keeps lasts_furnishing _ _ _)) hmemory)).engines
    _ _ Array.getElem?_push_size
  refine ⟨hopen, hstream, ?_⟩
  obtain ⟨v, w₅, hread, h₅⟩ := bind_ok h₄
  cases hread
  dsimp only at h₅
  split at h₅
  · obtain ⟨_, v, -, hthrow⟩ := bind_ok h₅
    cases hthrow
  · cases h₅
    exact ⟨x, hx⟩

theorem register_run (m : LoadedModule) (w : World) : ∃ record, register k m w =
    (w.modules.size, { w with
      modules := w.modules.push m
      runtimes := w.runtimes.modify k fun r => { r with modules := r.modules ++ [w.modules.size] }
      logs := w.logs.push record }) := ⟨_, rfl⟩

/-! ## Closing a module -/

/-- Runtimes, modules and engines are left alone. -/
structure Unrelated (w w' : World) : Prop where
  runtimes : w'.runtimes = w.runtimes
  modules : w'.modules = w.modules
  engines : w'.engines = w.engines

def unrelated : Frame where
  rel := Unrelated
  refl _ := ⟨rfl, rfl, rfl⟩
  trans h g := ⟨g.1.trans h.1, g.2.trans h.2, g.3.trans h.3⟩

theorem guest_close_unrelated (g : Guest) : Keeps unrelated (Guest.close g).run := by
  unfold Guest.close
  cases g with
  | live k =>
    exact .bind (liveInstance_finds k).keeps fun _ => .alter fun _ => ⟨rfl, rfl, rfl⟩
  | scripted k =>
    refine .bind (.lift (.change fun _ => ⟨rfl, rfl, rfl⟩)) fun _ => ?_
    refine .bind (scriptedGuest_finds k).keeps fun s => ?_
    split
    · exact .fail _
    · exact .ok _

theorem closeBridge_unrelated [Wasm.Machine] (b : Nat) : Keeps unrelated (closeBridge b).run := by
  refine .bind (bridgeEntry_finds b).keeps fun entry w => ?_
  change Unrelated w (Bridge.close (Guest.handle b entry.guest false) w).2
  unfold Bridge.close
  split
  · exact unrelated.refl w
  · refine unrelated.trans (v := w.shutBridge b) ⟨rfl, rfl, rfl⟩ ?_
    exact guest_close_unrelated entry.guest _

theorem leaveThread_unrelated [Wasm.Machine] (t : Thread) : Keeps unrelated (leaveThread t) := by
  unfold leaveThread
  split
  · exact .done _
  · exact .seq (closeBridge_unrelated _) fun _ => .done _

/-- A module once it is closed. -/
def shut (m : LoadedModule) : LoadedModule := { m with closed := true, stream := m.stream.close }

variable {id : Nat} {m : LoadedModule} {e : Engine}

theorem closeModule_again [Wasm.Machine] (hm : w.modules[id]? = some m)
    (hclosed : m.closed = true) : closeModule id w = (.ok (), w) := by
  have hshut : shutModule id w = (.ok none, w) := by
    refine (bind_run (loadedModule id) _ w).trans ?_
    rw [(loadedModule_finds id).run hm]
    dsimp only
    rw [hclosed]
    rfl
  rw [closeModule, bind_run, hshut]
  rfl

theorem closeModule_run [Wasm.Machine] (hm : w.modules[id]? = some m) (hopen : m.closed = false)
    (he : w.engines[m.engine]? = some e) : ∃ w', closeModule id w = (.ok (), w') ∧
      w'.runtimes = w.runtimes ∧ w'.modules = w.modules.modify id shut ∧
      w'.engines = w.engines.modify m.engine retire := by
  let w₁ := (setModule id (fun m => { m with closed := true }) w).2
  let w₂ := ((m.threads.forM leaveThread : Act Unit) w₁).2
  let w₃ := (setModule id (fun m => { m with stream := m.stream.close }) w₂).2
  have hunrelated : Unrelated w₁ w₂ := Keeps.forEach (fun t => leaveThread_unrelated t) w₁
  have hmodules : w₃.modules = w.modules.modify id shut := by
    have hclose : w₃.modules =
        w₂.modules.modify id fun m => { m with stream := m.stream.close } := rfl
    rw [hclose, hunrelated.modules]
    exact modify_modify id (fun m : LoadedModule => { m with closed := true })
      fun m => { m with stream := m.stream.close }
  have hm₃ : w₃.modules[id]? = some (shut m) := by
    rw [hmodules]
    exact getElem?_modify_self hm
  have hengines : w₃.engines = w.engines := hunrelated.engines
  have hrun : closeModule id w = (do
      let m ← loadedModule id
      log .runtime .debug "module closed"
        [("threads", .nat m.threads.length), ("undelivered_signals", .nat m.stream.pending)]
      closeEngine m.engine : Try Unit) w₃ := by
    rw [closeModule, bind_run, shutModule_run hm hopen]
    rfl
  rw [hrun, bind_run, (loadedModule_finds id).run hm₃]
  dsimp only
  rw [bind_run]
  refine ⟨_, closeEngine_run (e := e) ?_, ?_, ?_, ?_⟩
  · exact (congrArg (·[m.engine]?) hengines).trans he
  · exact hunrelated.runtimes
  · exact hmodules
  · exact congrArg (·.modify m.engine retire) hengines

/-- A module once its signals are dropped. -/
def emptied (m : LoadedModule) : LoadedModule := { m with stream := m.stream.discard }

theorem discardSignals_run (hm : w.modules[id]? = some m) :
    ∃ w', discardSignals id w = (.ok (), w') ∧ w'.runtimes = w.runtimes ∧
      w'.engines = w.engines ∧ w'.modules = w.modules.modify id emptied := by
  rw [discardSignals, bind_run, (loadedModule_finds id).run hm]
  dsimp only
  split
  · exact ⟨_, rfl, rfl, rfl, rfl⟩
  · exact ⟨_, rfl, rfl, rfl, rfl⟩

/-! ## What becomes of a module -/

/-- The module exists with its engine, and is not closed without it. -/
def Intact (w : World) (id : Nat) : Prop := ∃ (m : LoadedModule) (e : Engine),
  w.modules[id]? = some m ∧ w.engines[m.engine]? = some e ∧ (m.closed = true → e.closed = true)

/-- The module and its engine are closed. -/
def Shut (w : World) (id : Nat) : Prop := ∃ (m : LoadedModule) (e : Engine),
  w.modules[id]? = some m ∧ w.engines[m.engine]? = some e ∧ m.closed = true ∧ e.closed = true

/-- The module and its engine are closed, and its stream is discarded and at its end. -/
def Retired (w : World) (id : Nat) : Prop := ∃ (m : LoadedModule) (e : Engine),
  w.modules[id]? = some m ∧ w.engines[m.engine]? = some e ∧
    m.closed = true ∧ e.closed = true ∧ m.stream.discarded = true ∧ m.stream.pump = .stopped

/-- The module is open, and its stream is not discarded. -/
def Forgotten (w : World) (id : Nat) : Prop := ∃ m : LoadedModule,
  w.modules[id]? = some m ∧ m.closed = false ∧ m.stream.discarded = false

section

variable (hm : w'.modules[id]? = w.modules[id]?) (he : EnginesStay w w')

include hm

theorem Forgotten.later (h : Forgotten w id) : Forgotten w' id := by
  obtain ⟨m, hid, hforgotten⟩ := h
  exact ⟨m, hm.trans hid, hforgotten⟩

include he

theorem Intact.later (h : Intact w id) : Intact w' id := by
  obtain ⟨m, e, hid, hengine, hclosed⟩ := h
  obtain ⟨e', hengine', hstays⟩ := he _ e hengine
  exact ⟨m, e', hm.trans hid, hengine', hstays ∘ hclosed⟩

theorem Shut.later (h : Shut w id) : Shut w' id := by
  obtain ⟨m, e, hid, hengine, hclosed, hclosed'⟩ := h
  obtain ⟨e', hengine', hstays⟩ := he _ e hengine
  exact ⟨m, e', hm.trans hid, hengine', hclosed, hstays hclosed'⟩

theorem Retired.later (h : Retired w id) : Retired w' id := by
  obtain ⟨m, e, hid, hengine, hclosed, hclosed', hstream⟩ := h
  obtain ⟨e', hengine', hstays⟩ := he _ e hengine
  exact ⟨m, e', hm.trans hid, hengine', hclosed, hstays hclosed', hstream⟩

end

theorem Intact.lt_size (h : Intact w id) : id < w.modules.size := by
  obtain ⟨m, e, hid, -⟩ := h
  exact (Array.getElem?_eq_some_iff.1 hid).1

theorem Retired.intact (h : Retired w id) : Intact w id := by
  obtain ⟨m, e, hid, hengine, -, hclosed, -⟩ := h
  exact ⟨m, e, hid, hengine, fun _ => hclosed⟩

theorem Shut.intact (h : Shut w id) : Intact w id := by
  obtain ⟨m, e, hid, hengine, -, hclosed⟩ := h
  exact ⟨m, e, hid, hengine, fun _ => hclosed⟩

theorem Forgotten.not_retired (h : Forgotten w id) : ¬Retired w id := by
  obtain ⟨m, hm, hopen, -⟩ := h
  rintro ⟨m', e, hm', -, hclosed, -⟩
  cases hm.symm.trans hm'
  cases hopen.symm.trans hclosed

/-- What happens to one module leaves the others alone, and runtimes too. -/
structure Beside (w w' : World) (id : Nat) : Prop where
  runtimes : w'.runtimes = w.runtimes
  engines : EnginesStay w w'
  others : ∀ j ≠ id, w'.modules[j]? = w.modules[j]?

/-- Modules that were retired before stay so. -/
theorem Beside.retired {done : List Nat} (h : Beside w w' id)
    (hid : Retired w id → Retired w' id) (hdone : ∀ j ∈ done, Retired w j) :
    ∀ j ∈ done, Retired w' j := by
  intro j hj
  by_cases hne : j = id
  · exact hne ▸ hid (hne ▸ hdone j hj)
  · exact (hdone j hj).later (h.others j hne) h.engines

theorem Intact.close [Wasm.Machine] (h : Intact w id) : ∃ w', closeModule id w = (.ok (), w') ∧
    Beside w w' id ∧ Shut w' id ∧ (Retired w id → Retired w' id) := by
  obtain ⟨m, e, hm, he, hclosed⟩ := h
  cases hopen : m.closed with
  | true =>
    have hbeside : Beside w w id := ⟨rfl, enginesStay_of_eq rfl, fun _ _ => rfl⟩
    exact ⟨w, closeModule_again hm hopen, hbeside, ⟨m, e, hm, he, hopen, hclosed hopen⟩, fun h => h⟩
  | false =>
    obtain ⟨w', hrun, hruntimes, hmodules, hengines⟩ := closeModule_run hm hopen he
    refine ⟨w', hrun, ⟨hruntimes, ?_, fun j hj => ?_⟩, ?_, ?_⟩
    · intro j x hx
      rw [hengines]
      exact lasts_modify (fun _ _ => rfl) hx
    · rw [hmodules]
      exact getElem?_modify_ne hj.symm
    · refine ⟨shut m, retire e, ?_, ?_, rfl, rfl⟩
      · rw [hmodules]
        exact getElem?_modify_self hm
      · rw [hengines]
        exact getElem?_modify_self he
    · rintro ⟨m', e', hm', -, hclosed', -⟩
      cases hm.symm.trans hm'
      cases hopen.symm.trans hclosed'

theorem run_discarded {α : Type} (n : Nat) (m : Mailbox α) : (m.run n).discarded = m.discarded := by
  induction n generalizing m with
  | zero => rfl
  | succ n ih =>
    rw [Mailbox.run]
    cases h : m.advance with
    | none => rfl
    | some m' => exact (ih m').trans (Mailbox.advance_moves h).flags.2

theorem Shut.discard (h : Shut w id) : ∃ w', discardSignals id w = (.ok (), w') ∧ Beside w w' id ∧
    Retired w' id := by
  obtain ⟨m, e, hm, he, hclosed, hclosed'⟩ := h
  obtain ⟨w', hrun, hruntimes, hengines, hmodules⟩ := discardSignals_run hm
  refine ⟨w', hrun, ⟨hruntimes, enginesStay_of_eq hengines, fun j hj => ?_⟩, ?_⟩
  · rw [hmodules]
    exact getElem?_modify_ne hj.symm
  · have he' : w'.engines[m.engine]? = some e := (congrArg (·[m.engine]?) hengines).trans he
    refine ⟨emptied m, e, ?_, he', hclosed, hclosed', ?_, ?_⟩
    · rw [hmodules]
      exact getElem?_modify_self hm
    · exact run_discarded 6 m.stream.clear.finish
    · exact Mailbox.settle_ends rfl rfl rfl

end

end GuestThreads.World
