import GuestThreads.Proofs.Layout
import GuestThreads.Proofs.World.Journal
import GuestThreads.Wasm.Assembly
import GuestThreads.Wasm.Interpreter

/-!
# The regions of spawned threads

A module hands out its regions in order, one for each thread, whatever else happens in the world
between two spawns. The regions lie apart from each other and inside the memory, and a spawn fails
only if the next one does not fit.
-/

namespace GuestThreads.World

open Worker (Driver Inbox Message Note)

variable {α : Type}

/-! ## What spawning goes by -/

/-- A thread and its region. -/
def place (t : Thread) : Nat × Region := (t.id, t.region)

/-- What spawning goes by in a loaded module. -/
structure Housing where
  runtime : Nat
  memory : Nat
  layout : Layout
  /-- The threads with their regions. -/
  places : List (Nat × Region)

def housing (m : LoadedModule) : Housing where
  runtime := m.runtime
  memory := m.memory
  layout := m.layout
  places := m.threads.map place

def housing? (w : World) (k : Nat) : Option Housing := w.modules[k]?.map housing

/-- The size of a module's memory as the module sees it. -/
def moduleSize (w : World) (k : Nat) : UInt32 :=
  match w.modules[k]? with
  | some m => w.memorySize m.memory
  | none => 0

theorem moduleSize_eq {w : World} {k : Nat} {m : LoadedModule} (h : w.modules[k]? = some m) :
    w.moduleSize k = w.memorySize m.memory := by
  rw [moduleSize, h]

/-- What may happen between two spawns from module `k`. The memory may change in any way. -/
def untouched (k : Nat) : Frame where
  rel w w' := (∀ h, w.housing? k = some h → w'.housing? k = some h) ∧
    w.runtimes.size ≤ w'.runtimes.size
  refl _ := ⟨fun _ h => h, Nat.le_refl _⟩
  trans h g := ⟨fun a ha => g.1 a (h.1 a ha), Nat.le_trans h.2 g.2⟩

theorem housing?_of_map {w w' : World} (k : Nat)
    (h : w'.modules.map housing = w.modules.map housing) : w'.housing? k = w.housing? k := by
  rw [housing?, housing?, ← Array.getElem?_map, ← Array.getElem?_map, h]

/-- Nothing happens to the modules but in their streams. -/
theorem untouched_of_core {w w' : World} (hmodules : w'.modules.map core = w.modules.map core)
    (hruntimes : w'.runtimes = w.runtimes) (k : Nat) : (untouched k).rel w w' := by
  have hmap (v : World) : v.modules.map housing = (v.modules.map core).map housing := by
    rw [Array.map_map]
    rfl
  have hhousing : w'.modules.map housing = w.modules.map housing := by
    rw [hmap, hmap, hmodules]
  exact ⟨fun a ha => (housing?_of_map k hhousing).trans ha, hruntimes ▸ Nat.le_refl _⟩

theorem Aside.untouched {w w' : World} (h : Aside w w') (k : Nat) : (untouched k).rel w w' :=
  untouched_of_core h.modules h.runtimes k

/-- An action that changes neither modules nor runtimes. -/
theorem Keeps.untouched_of_eq {act : Act α} (k : Nat)
    (h : ∀ w, (act w).2.modules = w.modules ∧ (act w).2.runtimes = w.runtimes) :
    Keeps (untouched k) act := by
  intro w
  obtain ⟨hmodules, hruntimes⟩ := h w
  refine ⟨fun a ha => ?_, hruntimes ▸ Nat.le_refl _⟩
  rw [housing?, hmodules]
  exact ha

theorem log_untouched (k : Nat) (source : Log.Source) (level : Log.Level) (message : String)
    (fields : List (String × Log.Value)) : Keeps (untouched k) (log source level message fields) :=
  .untouched_of_eq k fun _ => ⟨rfl, rfl⟩

theorem untouched_observed (k j : Nat) : (untouched k).Observed j where
  logs w _ := (untouched k).refl w
  spans w _ := (untouched k).refl w
  started w _ := (untouched k).refl w
  advanced w _ := (untouched k).refl w

/-- A worker and the guest it drives leave the housing of every module alone. -/
theorem runWorker_untouched [Wasm.Machine] (k j : Nat) (inbox : Inbox Nat) (cancelled : Bool) :
    Keeps (untouched k) (runWorker j inbox cancelled).run := by
  have hentry : Keeps (untouched k) (workerEntry j).run := by
    refine .bind .read fun w => ?_
    split
    · exact .ok _
    · exact .fail _
  refine .bind hentry fun entry w => ?_
  let host := workerHost j entry (announced inbox) (guestDriver entry cancelled)
  have hreceive :
      (untouched k).rel w (Worker.receive host entry.exports entry.progress inbox w).2.2 := by
    refine Worker.receive_invariant (P := (untouched k).rel w) ?_ ?_ _ _ _ ((untouched k).refl w)
    · exact (guestDriver_aside entry cancelled).mono fun v v' h hv =>
        (untouched k).trans hv (h.untouched k)
    · exact fun n v hv =>
        (untouched k).trans hv (observe_keeps (untouched_observed k j) entry _ n v)
  refine (untouched k).trans hreceive ?_
  change (untouched k).rel _ (conclude j entry
    (Worker.receive host entry.exports entry.progress inbox w) w).2
  obtain ⟨r, progress, w'⟩ := Worker.receive host entry.exports entry.progress inbox w
  cases r <;> exact ⟨fun _ h => h, Nat.le_refl _⟩

/-- A thread that ends stays where it is. -/
theorem place_finish (t : Thread) (r : Except Fault Nat) : place (t.finish r) = place t := by
  unfold Thread.finish
  split
  · rfl
  · cases r <;> rfl

theorem places_modify (threads : List Thread) (t : Nat) (r : Except Fault Nat) :
    (threads.modify t (·.finish r)).map place = threads.map place := by
  apply List.ext_getElem?
  intro i
  rw [List.getElem?_map, List.getElem?_map, List.getElem?_modify]
  cases threads[i]? with
  | none => rfl
  | some thread =>
    by_cases h : t = i
    · simp [h, place_finish]
    · simp [h]

theorem finishThread_untouched (k j t : Nat) (r : Except Fault Nat) :
    Keeps (untouched k) (finishThread j t r) := by
  refine .seq (.change fun w => ⟨fun h hh => ?_, Nat.le_refl _⟩) fun _ => ?_
  · refine (housing?_of_map k ?_).trans hh
    dsimp only
    refine map_modify fun m => ?_
    simp only [housing, places_modify]
  · cases r with
    | ok b => exact .done ()
    | error f => exact log_untouched k _ _ _ _

/-! ## Reserving -/

/-- Thread `t` was entered in module `m` behind those that are there, with a worker and a relay of
its own. -/
structure Entered (k : Nat) (m : LoadedModule) (layout : Layout) (t : Thread) (w w' : World) :
    Prop where
  id : t.id = m.threads.length
  done : t.done = false
  bridge : t.bridge = none
  error : t.error = none
  module : w'.modules[k]? = some { m with layout := layout, threads := m.threads ++ [t] }
  worker : ∃ e, t.worker = w.workers.size ∧ e.relay = w.relays.size ∧ e.maker = .engine m.engine ∧
    w'.workers = w.workers.push e
  fresh : w'.workers[t.worker]?.map (·.progress) = some {}
  relay : w'.relays = w.relays.push ({ hasOutbox := true }, .stream k t.id)
  runtimes : w'.runtimes = w.runtimes
  instances : w'.instances = w.instances
  bridges : w'.bridges = w.bridges

/-- The worker of a thread that is about to be entered. -/
def recruit (m : LoadedModule) (c : Config) (ops : List (String × Bridge.Op)) (relay : Nat) :
    WorkerEntry where
  id := m.threads.length
  maker := .engine m.engine
  exports := c.exports
  ops := ops
  relay := relay

/-- The world once a thread is entered with its worker. -/
def admitted (w : World) (k : Nat) (layout : Layout) (e : WorkerEntry) (t : Thread) : World :=
  { w with
    workers := w.workers.push e
    relays := w.relays.push ({ hasOutbox := true }, .stream k t.id)
    modules := w.modules.modify k fun m =>
      { m with layout := layout, threads := m.threads ++ [t] } }

theorem module_admitted {w : World} {k : Nat} {m : LoadedModule} (hm : w.modules[k]? = some m)
    (layout : Layout) (e : WorkerEntry) (t : Thread) :
    (admitted w k layout e t).modules[k]? =
      some { m with layout := layout, threads := m.threads ++ [t] } := by
  rw [admitted, Array.getElem?_modify, if_pos rfl, hm]
  rfl

theorem enterThread_admitted {w : World} {k : Nat} {m : LoadedModule} {r : Runtime}
    (hr : w.runtimes[m.runtime]? = some r) (region : Region) (layout : Layout)
    (ops : List (String × Bridge.Op)) :
    let t : Thread := { id := m.threads.length, region := region, worker := w.workers.size }
    enterThread k m region layout ops w =
      (.ok t, admitted w k layout (recruit m r.config ops w.relays.size) t) := by
  refine (bind_run (runtime m.runtime) _ w).trans ?_
  rw [(runtime_finds m.runtime).run hr]
  rfl

theorem enterThread_run {w : World} {k : Nat} {m : LoadedModule} {r : Runtime} (region : Region)
    (layout : Layout) (hm : w.modules[k]? = some m) (hr : w.runtimes[m.runtime]? = some r)
    (ops : List (String × Bridge.Op)) :
    ∃ t w', enterThread k m region layout ops w = (.ok t, w') ∧ t.region = region ∧
      Entered k m layout t w w' := by
  exact ⟨_, _, enterThread_admitted hr region layout ops, rfl, rfl, rfl, rfl, rfl,
    module_admitted hm layout _ _, ⟨_, rfl, rfl, rfl, rfl⟩,
    congrArg (Option.map WorkerEntry.progress) Array.getElem?_push_size, rfl, rfl, rfl, rfl⟩

/-- What a new thread comes down to in a module that is open. -/
theorem newThread_run {w : World} {k : Nat} {m : LoadedModule} (hm : w.modules[k]? = some m)
    (hopen : m.closed = false) (ops : List (String × Bridge.Op)) :
    newThread k ops w = match m.layout.reserve (w.memorySize m.memory) with
      | .error refusal => (.error refusal.fault, w)
      | .ok (region, layout) => enterThread k m region layout ops w := by
  refine (bind_run (loadedModule k) _ w).trans ?_
  rw [(loadedModule_finds k).run hm]
  dsimp only
  rw [hopen]
  change (match m.layout.reserve (w.memorySize m.memory) with
    | .error refusal => throw refusal.fault
    | .ok (region, layout) => enterThread k m region layout ops : Try Thread) w = _
  cases m.layout.reserve (w.memorySize m.memory) <;> rfl

theorem newThread_closed {w : World} {k : Nat} {m : LoadedModule} (hm : w.modules[k]? = some m)
    (hclosed : m.closed = true) (ops : List (String × Bridge.Op)) :
    ∃ f, newThread k ops w = (.error f, w) := by
  refine ⟨.report { phase := .runtime, kind := .closed, detail := "module closed" }, ?_⟩
  refine (bind_run (loadedModule k) _ w).trans ?_
  rw [(loadedModule_finds k).run hm]
  dsimp only
  rw [hclosed]
  rfl

/-- Once a thread is entered, spawning it succeeds, however the thread itself goes on. -/
theorem spawn_of_newThread [Wasm.Machine] {w v : World} {k : Nat} {t : Thread}
    {ops : List (String × Bridge.Op)} {m : LoadedModule} (ht : newThread k ops w = (.ok t, v))
    (hm : v.modules[k]? = some m) (closurePtr : UInt32) (cancelled : Bool) :
    ∃ w', spawn k closurePtr ops cancelled w = (.ok t.id, w') ∧ (untouched k).rel v w' := by
  let msg : Message Nat := {
    bytes := m.bytes, memory := some m.memory, stackPtr := t.region.stackPtr
    tlsPtr := t.region.tlsPtr, closurePtr := closurePtr }
  let goOn : Act Unit := do
    log .runtime .debug "thread spawned"
      [("thread", .nat t.id), ("stack_ptr", .nat t.region.stackPtr.toNat),
        ("tls_ptr", .nat t.region.tlsPtr.toNat), ("closure_ptr", .nat closurePtr.toNat)]
    let r ← (runWorker t.worker (.message msg) cancelled).run
    finishThread k t.id r
  have hgoOn : Keeps (untouched k) goOn :=
    .seq (log_untouched k _ _ _ _) fun _ =>
      .seq (runWorker_untouched k _ _ _) fun r => finishThread_untouched k k t.id r
  refine ⟨(goOn v).2, ?_, hgoOn v⟩
  refine (bind_run (newThread k ops) _ w).trans ?_
  rw [ht]
  refine (bind_run (loadedModule k) _ v).trans ?_
  rw [(loadedModule_finds k).run hm]
  rfl

theorem spawn_of_refusal [Wasm.Machine] {w v : World} {k : Nat} {f : Fault}
    {ops : List (String × Bridge.Op)} (h : newThread k ops w = (.error f, v)) (closurePtr : UInt32)
    (cancelled : Bool) : spawn k closurePtr ops cancelled w = (.error f, v) := by
  refine (bind_run (newThread k ops) _ w).trans ?_
  rw [h]

/-! ## Histories -/

/-- A region that was handed out, and the size of the memory at that moment. -/
structure Grant where
  region : Region
  size : UInt32

/-- The worlds that module `k` can be in from `w₀` on, with the regions handed out by then. Between
two attempts to start a thread anything may happen that spawning does not go by. -/
inductive Spawning (k : Nat) (w₀ : World) : List Grant → World → Prop
  | loaded : Spawning k w₀ [] w₀
  | between {gs : List Grant} {v w : World} (h : Spawning k w₀ gs v)
      (hkeep : (untouched k).rel v w) : Spawning k w₀ gs w
  | thread {gs : List Grant} {v w : World} {ops : List (String × Bridge.Op)} {t : Thread}
      (h : Spawning k w₀ gs v) (ht : newThread k ops v = (.ok t, w)) :
      Spawning k w₀ (gs ++ [⟨t.region, v.moduleSize k⟩]) w
  | refused {gs : List Grant} {v w : World} {ops : List (String × Bridge.Op)} {f : Fault}
      (h : Spawning k w₀ gs v) (hf : newThread k ops v = (.error f, w)) : Spawning k w₀ gs w

/-- The module has handed out these regions and no others, and goes by the layout `l`. -/
structure Housed (k : Nat) (l : Layout) (rk mem : Nat) (gs : List Grant) (w : World) : Prop where
  housing : w.housing? k = some {
    runtime := rk, memory := mem, layout := { l with next := gs.length }
    places := gs.mapIdx fun i g => (i, g.region) }
  runtime : rk < w.runtimes.size
  placed : ∀ i g, gs[i]? = some g → l.Placed i g.region ∧ g.region.finish ≤ g.size

namespace Housed

variable {k rk mem : Nat} {l : Layout} {gs : List Grant} {v w : World}

theorem module (h : Housed k l rk mem gs w) : ∃ m, w.modules[k]? = some m := by
  obtain ⟨m, hm, -⟩ := Option.map_eq_some_iff.1 h.housing
  exact ⟨m, hm⟩

theorem housing_eq (h : Housed k l rk mem gs w) {m : LoadedModule} (hm : w.modules[k]? = some m) :
    World.housing m = {
      runtime := rk, memory := mem, layout := { l with next := gs.length }
      places := gs.mapIdx fun i g => (i, g.region) } := by
  have hhousing := h.housing
  rw [housing?, hm] at hhousing
  exact Option.some.inj hhousing

theorem threads_length (h : Housed k l rk mem gs w) {m : LoadedModule}
    (hm : w.modules[k]? = some m) : m.threads.length = gs.length := by
  have hlengths := congrArg (·.places.length) (h.housing_eq hm)
  simpa [World.housing] using hlengths

theorem between (h : Housed k l rk mem gs v) (hkeep : (untouched k).rel v w) :
    Housed k l rk mem gs w :=
  ⟨hkeep.1 _ h.housing, Nat.lt_of_lt_of_le h.runtime hkeep.2, h.placed⟩

/-- The next region starts within what can be addressed. -/
theorem start_le (h : Housed k l rk mem gs w) (hl : l.Made) :
    l.start gs.length ≤ Layout.addressable := by
  rcases List.eq_nil_or_concat gs with rfl | ⟨before, g, rfl⟩
  · have hbase := hl.base_le
    simpa [Layout.start] using hbase
  · have hlast := (h.placed before.length g (by simp)).1.finish
    have hlt := g.region.finish.toNat_lt
    simp only [List.concat_eq_append, List.length_append, List.length_singleton]
    unfold Layout.addressable
    omega

/-- One more region is handed out. -/
theorem placed_concat (h : Housed k l rk mem gs w) {g : Grant}
    (hplaced : l.Placed gs.length g.region)
    (hinside : g.region.finish ≤ g.size) (i : Nat) (g' : Grant) (hg' : (gs ++ [g])[i]? = some g') :
    l.Placed i g'.region ∧ g'.region.finish ≤ g'.size := by
  rw [List.getElem?_append, List.getElem?_singleton] at hg'
  split at hg'
  · exact h.placed i g' hg'
  · split at hg' <;> cases hg'
    obtain rfl : i = gs.length := by omega
    exact ⟨hplaced, hinside⟩

/-- There is room for the next region, and it is handed out. -/
theorem grant (h : Housed k l rk mem gs w) (hl : l.Made) {m : LoadedModule}
    (hm : w.modules[k]? = some m) (hopen : m.closed = false)
    (hroom : gs.length < l.capacity (w.moduleSize k)) (ops : List (String × Bridge.Op)) :
    ∃ t w', newThread k ops w = (.ok t, w') ∧ t.id = gs.length ∧
      Housed k l rk mem (gs ++ [⟨t.region, w.moduleSize k⟩]) w' := by
  obtain ⟨hrk, hmem, hlayout, hplaces⟩ := Housing.mk.inj (h.housing_eq hm)
  obtain ⟨region, hreserve, hplaced, hinside⟩ := hl.reserve_ok hroom
  obtain ⟨r, hr⟩ : ∃ r, w.runtimes[m.runtime]? = some r :=
    ⟨_, Array.getElem?_eq_getElem (hrk ▸ h.runtime)⟩
  obtain ⟨t, w', hrun, rfl, hentered⟩ :=
    enterThread_run region { l with next := gs.length + 1 } hm hr ops
  have hid : t.id = gs.length := hentered.id.trans (h.threads_length hm)
  refine ⟨t, w', ?_, hid, ?_, hentered.runtimes ▸ h.runtime, h.placed_concat hplaced hinside⟩
  · rw [newThread_run hm hopen, hlayout, ← moduleSize_eq hm, hreserve]
    exact hrun
  · rw [housing?, hentered.module, List.mapIdx_concat, List.length_append, ← hplaces]
    simp [World.housing, place, hid, hrk, hmem]

/-- There is no room for the next region, and nothing changes. -/
theorem refuse (h : Housed k l rk mem gs w) (hl : l.Made) {m : LoadedModule}
    (hm : w.modules[k]? = some m) (hopen : m.closed = false)
    (hfull : ¬gs.length < l.capacity (w.moduleSize k)) (ops : List (String × Bridge.Op)) :
    ∃ f, newThread k ops w = (.error f, w) := by
  obtain ⟨-, -, hlayout, -⟩ := Housing.mk.inj (h.housing_eq hm)
  obtain ⟨refusal, hreserve⟩ := hl.reserve_error (h.start_le hl) hfull
  refine ⟨refusal.fault, ?_⟩
  rw [newThread_run hm hopen, hlayout, ← moduleSize_eq hm, hreserve]

/-- An attempt to start a thread takes the next region or changes nothing. -/
theorem attempt (h : Housed k l rk mem gs w) (hl : l.Made) (ops : List (String × Bridge.Op)) :
    (∃ t w', newThread k ops w = (.ok t, w') ∧
      Housed k l rk mem (gs ++ [⟨t.region, w.moduleSize k⟩]) w') ∨
    ∃ f, newThread k ops w = (.error f, w) := by
  obtain ⟨m, hm⟩ := h.module
  cases hclosed : m.closed with
  | true => exact .inr (newThread_closed hm hclosed ops)
  | false =>
    by_cases hroom : gs.length < l.capacity (w.moduleSize k)
    · obtain ⟨t, w', ht, -, hnext⟩ := h.grant hl hm hclosed hroom ops
      exact .inl ⟨t, w', ht, hnext⟩
    · exact .inr (h.refuse hl hm hclosed hroom ops)

end Housed

/-- Modules stay housed along every history. -/
theorem Spawning.housed {k rk mem : Nat} {l : Layout} {gs : List Grant} {w₀ w : World}
    (h : Spawning k w₀ gs w) (hl : l.Made) (hw₀ : Housed k l rk mem [] w₀) :
    Housed k l rk mem gs w := by
  induction h with
  | loaded => exact hw₀
  | between _ hkeep ih => exact ih.between hkeep
  | @thread gs v w ops t _ ht ih =>
    obtain ⟨t', w', ht', hnext⟩ | ⟨f, hf⟩ := ih.attempt hl ops
    · cases ht'.symm.trans ht
      exact hnext
    · cases hf.symm.trans ht
  | @refused gs v w ops f _ hf ih =>
    obtain ⟨t, w', ht, -⟩ | ⟨f', hf'⟩ := ih.attempt hl ops
    · cases ht.symm.trans hf
    · cases hf'.symm.trans hf
      exact ih

/-! ## Loading -/

theorem orCloseEngine_aside [Wasm.Machine] {e : Nat} {act : Try α} {wrap : Fault → Fault}
    (h : Keeps aside act.run) : Keeps aside (orCloseEngine e act wrap).run :=
  .orElse h fun _ => .bind (closeEngine_keeps aside_indifferent e) fun _ => .fail _

/-- What a module is made of when its preparation succeeds. -/
theorem prepare_ok [Wasm.Machine] {w w' : World} {k : Nat} {bytes : Bytes} {m : LoadedModule}
    (h : prepare k bytes w = (.ok m, w')) :
    ∃ r, w.runtimes[k]? = some r ∧ w'.runtimes = w.runtimes ∧
      housing m = {
        runtime := k, memory := m.memory, places := []
        layout := .ofSizes r.config.regions.base r.config.regions.stackSize
          r.config.regions.tlsSize } ∧
      m.stream = .new ∧ m.closed = false ∧ m.firstError = none ∧
      m.layout.capacity (w'.memorySize m.memory) ≠ 0 := by
  obtain ⟨r, w₁, hr, h₁⟩ := bind_ok h
  obtain ⟨hruntime, rfl⟩ := (runtime_finds k).ok hr
  obtain ⟨e, w₂, hengine, h₂⟩ := bind_ok h₁
  obtain ⟨_, w₃, hcompile, h₃⟩ := bind_ok h₂
  obtain ⟨mem, w₄, hmemory, h₄⟩ := bind_ok h₃
  have haside₂ : Aside w₁ w₂ :=
    Keeps.of_run (newEngine_keeps aside_indifferent (some r.config)) hengine
  have haside₃ : Aside w₂ w₃ :=
    Keeps.of_run (orCloseEngine_aside (compile_keeps aside_indifferent.toPassive e bytes)) hcompile
  have haside₄ : Aside w₃ w₄ :=
    Keeps.of_run (orCloseEngine_aside (newMemory_keeps aside_indifferent.furnishing e _ _)) hmemory
  have hruntimes : w₄.runtimes = w₁.runtimes :=
    haside₄.runtimes.trans (haside₃.runtimes.trans haside₂.runtimes)
  let layout := Layout.ofSizes r.config.regions.base r.config.regions.stackSize
    r.config.regions.tlsSize
  change (if layout.capacity (w₄.memorySize mem) = 0 then _ else pure {
    runtime := k, engine := e, memory := mem, bytes := bytes, layout := layout } :
      Try LoadedModule) w₄ = _ at h₄
  split at h₄
  · obtain ⟨_, v, -, hthrow⟩ := bind_ok h₄
    cases hthrow
  · cases h₄
    exact ⟨r, hruntime, hruntimes, rfl, rfl, rfl, rfl, ‹_›⟩

theorem checkOpen_ok {w w' : World} {k : Nat} {u : Unit} (h : checkOpen k w = (.ok u, w')) :
    w' = w := by
  obtain ⟨r, v, hr, h₁⟩ := bind_ok h
  obtain ⟨-, rfl⟩ := (runtime_finds k).ok hr
  split at h₁ <;> cases h₁
  rfl

/-- A load that succeeds is a preparation and an entry in the books. -/
theorem load_prepared [Wasm.Machine] {rk k : Nat} {bytes : Bytes} {w w' : World}
    (h : load rk bytes w = (.ok k, w')) :
    ∃ m v logs, prepare rk bytes w = (.ok m, v) ∧ k = v.modules.size ∧ w' = { v with
      modules := v.modules.push m
      runtimes := v.runtimes.modify rk fun r => { r with modules := r.modules ++ [k] }
      logs := logs } := by
  obtain ⟨_, w₁, hcheck, h₁⟩ := bind_ok h
  obtain rfl := checkOpen_ok hcheck
  obtain ⟨m, v, hprepare, h₂⟩ := bind_ok h₁
  cases h₂
  exact ⟨m, v, _, hprepare, rfl, rfl⟩

/-- A module that was loaded is open and has no threads yet, and room for one. -/
theorem load_ok [Wasm.Machine] {w w' : World} {rk k : Nat} {bytes : Bytes} {r : Runtime}
    (hr : w.runtimes[rk]? = some r) (h : load rk bytes w = (.ok k, w')) :
    let l := Layout.ofSizes r.config.regions.base r.config.regions.stackSize
      r.config.regions.tlsSize
    ∃ mem, Housed k l rk mem [] w' ∧ (∃ m, w'.modules[k]? = some m ∧ m.closed = false) ∧
      0 < l.capacity (w'.moduleSize k) := by
  intro l
  obtain ⟨m, v, logs, hprepare, rfl, rfl⟩ := load_prepared h
  obtain ⟨r', hr', hruntimes, hhousing, -, hopen, -, hcapacity⟩ := prepare_ok hprepare
  cases hr.symm.trans hr'
  obtain ⟨-, -, hlayout, -⟩ := Housing.mk.inj hhousing
  have hmodule : (v.modules.push m)[v.modules.size]? = some m := Array.getElem?_push_size
  refine ⟨m.memory, ⟨?_, ?_, nofun⟩, ⟨m, hmodule, hopen⟩, ?_⟩
  · rw [housing?, hmodule, Option.map_some, hhousing]
    rfl
  · change rk < (v.runtimes.modify rk _).size
    rw [Array.size_modify, hruntimes]
    exact (Array.getElem?_eq_some_iff.1 hr).1
  · rw [moduleSize_eq hmodule]
    change 0 < l.capacity (v.memorySize m.memory)
    rw [hlayout] at hcapacity
    exact Nat.pos_of_ne_zero hcapacity

/-! ## Regions -/

/-- Threads have stacks under every configuration that is accepted. -/
theorem stackSize_ne_zero {c : Config} (h : c.validate = .ok ()) : c.regions.stackSize ≠ 0 := by
  intro hzero
  have hinvalid : c.invalid?.isSome = true := by
    unfold Config.invalid?
    dsimp only
    rw [if_pos hzero]
    repeat' split
    all_goals rfl
  unfold Config.validate at h
  cases hdetail : c.invalid? with
  | none =>
    rw [hdetail] at hinvalid
    cases hinvalid
  | some detail =>
    rw [hdetail] at h
    cases h

/-- What holds of the regions that a module has handed out. -/
structure Regions (c : Config.Regions) (m : LoadedModule) (gs : List Grant) : Prop where
  /-- Threads are numbered in order. -/
  places : m.threads.map place = gs.mapIdx fun i g => (i, g.region)
  rounds : m.layout.Rounds c.base c.stackSize c.tlsSize
  /-- No computation wraps, up to the next region, be it handed out or refused. -/
  exact : ∀ i ≤ gs.length, m.layout.Exact i
  /-- No field is cut off. -/
  placed : ∀ i g, gs[i]? = some g → m.layout.Placed i g.region
  roomy : ∀ g ∈ gs, Layout.Roomy c.stackSize c.tlsSize g.region
  above : ∀ g ∈ gs, c.base ≤ g.region.base
  inside : ∀ g ∈ gs, g.region.finish ≤ g.size
  ordered : gs.Pairwise fun g g' => g.region.finish ≤ g'.region.base

theorem Housed.regions {k rk mem : Nat} {l : Layout} {gs : List Grant} {w : World}
    {c : Config.Regions} {m : LoadedModule} (h : Housed k l rk mem gs w)
    (hrounds : l.Rounds c.base c.stackSize c.tlsSize) (hl : l.Made)
    (hm : w.modules[k]? = some m) : Regions c m gs := by
  obtain ⟨-, -, hlayout, hplaces⟩ := Housing.mk.inj (h.housing_eq hm)
  have hmem {g : Grant} (hg : g ∈ gs) : ∃ i, l.Placed i g.region ∧ g.region.finish ≤ g.size := by
    obtain ⟨i, hi⟩ := List.mem_iff_getElem?.1 hg
    exact ⟨i, h.placed i g hi⟩
  refine ⟨hplaces, ?_, ?_, ?_, ?_, ?_, ?_, ?_⟩
  · rw [hlayout]
    exact ⟨hrounds.base, hrounds.stackSize, hrounds.tlsSize⟩
  · intro i hi
    have hexact := hl.exact (Nat.le_trans (l.start_mono hi) (h.start_le hl))
    rw [hlayout]
    exact ⟨hexact.stride, hexact.index, hexact.offset, hexact.base, hexact.stackTop,
      hexact.finish⟩
  · intro i g hg
    obtain ⟨hplaced, -⟩ := h.placed i g hg
    rw [hlayout]
    exact ⟨hplaced.index, hplaced.base, hplaced.stackPtr, hplaced.tlsPtr, hplaced.finish⟩
  · intro g hg
    obtain ⟨i, hplaced, -⟩ := hmem hg
    exact hplaced.roomy hl hrounds
  · intro g hg
    obtain ⟨i, hplaced, -⟩ := hmem hg
    have hle := Layout.le_roundUp c.base.toNat
    have hstart : l.base.toNat ≤ l.start i := Nat.le_add_right _ _
    rw [UInt32.le_iff_toNat_le, hplaced.base]
    exact Nat.le_trans (hrounds.base ▸ hle) hstart
  · intro g hg
    obtain ⟨i, -, hinside⟩ := hmem hg
    exact hinside
  · rw [List.pairwise_iff_getElem]
    intro i j hi hj hij
    have hpi := (h.placed i gs[i] (List.getElem?_eq_getElem hi)).1
    have hpj := (h.placed j gs[j] (List.getElem?_eq_getElem hj)).1
    exact hpi.finish_le hpj hij

/-- How a spawn goes that ends with `r` in `w'`. -/
structure Spawned (k : Nat) (w₀ : World) (gs : List Grant) (w : World) (m : LoadedModule)
    (r : Except Fault Nat) (w' : World) : Prop where
  granted : m.threads.length < m.layout.capacity (w.moduleSize k) →
    r = .ok m.threads.length ∧
      ∃ g, g.region.index = m.threads.length ∧ g.size = w.moduleSize k ∧
        Spawning k w₀ (gs ++ [g]) w'
  refused : ¬m.threads.length < m.layout.capacity (w.moduleSize k) →
    (∃ f, r = .error f) ∧ w' = w

theorem Spawning.spawned [Wasm.Machine] {k rk mem : Nat} {l : Layout} {gs : List Grant}
    {w₀ w : World} {m : LoadedModule} (h : Spawning k w₀ gs w) (hl : l.Made)
    (hw₀ : Housed k l rk mem [] w₀) (hm : w.modules[k]? = some m) (hopen : m.closed = false)
    (closurePtr : UInt32) (ops : List (String × Bridge.Op)) (cancelled : Bool) :
    let out := spawn k closurePtr ops cancelled w
    Spawned k w₀ gs w m out.1 out.2 := by
  have hhoused := h.housed hl hw₀
  have hthreads := hhoused.threads_length hm
  obtain ⟨-, -, hlayout, -⟩ := Housing.mk.inj (hhoused.housing_eq hm)
  have hcapacity : m.layout.capacity (w.moduleSize k) = l.capacity (w.moduleSize k) := by
    rw [hlayout]
    rfl
  constructor
  · intro hroom
    rw [hthreads, hcapacity] at hroom
    obtain ⟨t, v, ht, hid, hnext⟩ := hhoused.grant hl hm hopen hroom ops
    obtain ⟨m₂, hm₂⟩ := hnext.module
    obtain ⟨w', hspawn, hkeep⟩ := spawn_of_newThread ht hm₂ closurePtr cancelled
    have hindex := (hnext.placed gs.length ⟨t.region, w.moduleSize k⟩ (by simp)).1.index
    rw [hspawn]
    exact ⟨by rw [hid, hthreads], ⟨t.region, w.moduleSize k⟩, hindex.trans hthreads.symm, rfl,
      (h.thread ht).between hkeep⟩
  · intro hfull
    rw [hthreads, hcapacity] at hfull
    obtain ⟨f, hf⟩ := hhoused.refuse hl hm hopen hfull ops
    rw [spawn_of_refusal hf]
    exact ⟨⟨f, rfl⟩, rfl⟩

/-- There is room for the first thread unless the memory has shrunk. -/
theorem Housed.room_for_first {k rk mem : Nat} {l : Layout} {w : World} {m : LoadedModule}
    {size : UInt32} (h : Housed k l rk mem [] w) (hl : l.Made) (hm : w.modules[k]? = some m)
    (hroom : 0 < l.capacity size) (hgrown : size ≤ w.moduleSize k) :
    m.threads.length < m.layout.capacity (w.moduleSize k) := by
  obtain ⟨-, -, hlayout, -⟩ := Housing.mk.inj (h.housing_eq hm)
  have hfits := hl.lt_capacity_iff.1 hroom
  rw [h.threads_length hm, hlayout]
  exact hl.lt_capacity_iff.2 (Nat.le_trans hfits (UInt32.le_iff_toNat_le.1 hgrown))

/-- The regions of a module's threads lie apart, inside the memory and in order, along every history
from its load on. As long as the module is open, a spawn succeeds if and only if the next region
fits, and the first one does unless the memory has shrunk. A module is open when it is loaded, so
that a first spawn right then succeeds. -/
theorem spawn_hands_out_regions [Wasm.Machine] {rk k : Nat} {r : Runtime} {bytes : Bytes}
    {w₀ w₁ w : World} {gs : List Grant} (hr : w₀.runtimes[rk]? = some r)
    (hvalid : r.config.validate = .ok ())
    (hload : load rk bytes w₀ = (.ok k, w₁)) (hspawning : Spawning k w₁ gs w) :
    ∃ m, w.modules[k]? = some m ∧ Regions r.config.regions m gs ∧
      (m.closed = false → ∀ closurePtr ops cancelled,
        let out := spawn k closurePtr ops cancelled w
        Spawned k w₁ gs w m out.1 out.2) ∧
      (gs = [] → w₁.moduleSize k ≤ w.moduleSize k →
        m.threads.length < m.layout.capacity (w.moduleSize k)) ∧
      ∀ closurePtr ops cancelled, (spawn k closurePtr ops cancelled w₁).1 = .ok 0 := by
  obtain ⟨mem, hw₁, ⟨m₁, hm₁, hopen₁⟩, hroom⟩ := load_ok hr hload
  have hrounds := Layout.ofSizes_rounds r.config.regions.base r.config.regions.stackSize
    r.config.regions.tlsSize
  have hl := hrounds.made (stackSize_ne_zero hvalid)
  have hhoused := hspawning.housed hl hw₁
  obtain ⟨m, hm⟩ := hhoused.module
  refine ⟨m, hm, hhoused.regions hrounds hl hm, ?_, ?_, ?_⟩
  · intro hopen closurePtr ops cancelled
    exact hspawning.spawned hl hw₁ hm hopen closurePtr ops cancelled
  · rintro rfl hgrown
    exact hhoused.room_for_first hl hm hroom hgrown
  · intro closurePtr ops cancelled
    have hspawned := Spawning.loaded.spawned hl hw₁ hm₁ hopen₁ closurePtr ops cancelled
    obtain ⟨hanswer, -⟩ := hspawned.granted (hw₁.room_for_first hl hm₁ hroom (UInt32.le_refl _))
    rw [hanswer, hw₁.threads_length hm₁]
    rfl

/-- A world with a runtime of the default configuration. -/
def fresh : World := { runtimes := #[{ config := {} }] }

/-- A guest whose threads grow the memory by as many pages as their closure says. -/
def grower : Wasm.Assembly where
  memory := some { module := "env", name := "memory", min := 2, max := 4, shared := true }
  globals := [{ type := .i32, mutable := true, init := 0 }]
  funcs :=
    [{ type := { params := [.i32] }, code := [] },
      { type := { params := [.i32] }, code := [.localGet 0, .memoryGrow, .drop] }]
  exports :=
    [⟨.global, "__stack_pointer", 0⟩, ⟨.func, "__wasm_init_tls", 0⟩,
      ⟨.func, "wasm_thread_entrypoint", 1⟩]

/-- A memory of two pages, which has room for one thread, and may have room for three. -/
def cramped : Config where
  memory := { minPages := 2, maxPages := 4 }
  regions := { base := 0x8000 }

def cabin : World := { runtimes := #[{ config := cramped }] }

/-- The first thread of the guest makes room for the second, which is refused otherwise. -/
theorem spawn_hands_out_grown_region :
    let w₁ := (load 0 grower.encode cabin).2
    let first := spawn 0 1 [] false w₁
    let second := spawn 0 0 [] false first.2
    load 0 grower.encode cabin = (.ok 0, w₁) ∧ first.1 = .ok 0 ∧ second.1 = .ok 1 ∧
      (spawn 0 0 [] false (spawn 0 0 [] false w₁).2).1.toOption = none ∧
      ∃ g g' m, g.size = 131072 ∧ g'.size = 196608 ∧ Spawning 0 w₁ [g, g'] second.2 ∧
        second.2.modules[0]? = some m ∧ Regions cramped.regions m [g, g'] := by
  intro w₁ first second
  have hanswer : (load 0 grower.encode cabin).1.toOption = some 0 := by decide +kernel
  have hopen : w₁.modules[0]?.map (·.closed) = some false := by decide +kernel
  have hopen' : first.2.modules[0]?.map (·.closed) = some false := by decide +kernel
  have hsize : w₁.moduleSize 0 = 131072 := by decide +kernel
  have hsize' : first.2.moduleSize 0 = 196608 := by decide +kernel
  have hcapacity : first.2.modules[0]?.map (·.layout.capacity 196608) = some 2 := by decide +kernel
  have hrefused : (spawn 0 0 [] false (spawn 0 0 [] false w₁).2).1.toOption = none := by
    decide +kernel
  have hload : load 0 grower.encode cabin = (.ok 0, w₁) := by
    refine Prod.ext ?_ rfl
    cases hrun : (load 0 grower.encode cabin).1 <;> rw [hrun] at hanswer <;> cases hanswer
    rfl
  have hvalid : cramped.validate = .ok () := rfl
  have hruntime : cabin.runtimes[0]? = some { config := cramped } := rfl
  obtain ⟨m, hm, hnone, hspawn, hfirst, -⟩ :=
    spawn_hands_out_regions hruntime hvalid hload .loaded
  rw [hm] at hopen
  obtain ⟨hout, g, -, hg, hnext⟩ :=
    (hspawn (Option.some.inj hopen) 1 [] false).granted (hfirst rfl (UInt32.le_refl _))
  obtain ⟨m', hm', hone, hspawn', -, -⟩ := spawn_hands_out_regions hruntime hvalid hload hnext
  change first.2.modules[0]? = some m' at hm'
  rw [hm'] at hopen' hcapacity
  have hthreads : m.threads.length = 0 := by simpa using congrArg List.length hnone.places
  have hthreads' : m'.threads.length = 1 := by simpa using congrArg List.length hone.places
  have hroom : m'.threads.length < m'.layout.capacity (first.2.moduleSize 0) := by
    have hroom : m'.layout.capacity 196608 = 2 := Option.some.inj hcapacity
    rw [hthreads', hsize', hroom]
    decide
  obtain ⟨hout', g', -, hg', hlast⟩ := (hspawn' (Option.some.inj hopen') 0 [] false).granted hroom
  obtain ⟨m'', hm'', hboth, -⟩ := spawn_hands_out_regions hruntime hvalid hload hlast
  exact ⟨hload, hthreads ▸ hout, hthreads' ▸ hout', hrefused, g, g', m'', hg.trans hsize,
    hg'.trans hsize', hlast, hm'', hboth⟩

end GuestThreads.World
