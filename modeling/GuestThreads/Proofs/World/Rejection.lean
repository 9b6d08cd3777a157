import GuestThreads.Proofs.MemoryImport
import GuestThreads.Proofs.World.Attribution

/-!
# Guests that are refused

An engine refuses to link a guest without a memory that is open and its own, a guest whose imports
cannot be read or do not go with the memory, and a guest that it cannot compile. `Refused` lists
these grounds with their faults. Whatever the ground is, nothing has changed afterwards, the fault
leads back to the ground, and a worker that was given the guest has not got anywhere.
-/

namespace GuestThreads

namespace Worker

/-- A worker whose instance is not made ends where it started. -/
theorem handle_of_instantiate_error {σ ι μ : Type} {host : Host σ ι μ} {msg : Message μ}
    {s s₁ : σ} {own : Fault} (exports : Config.Exports)
    (h : host.instantiate msg (host.observe .started s) = (.error own, s₁)) :
    handle host exports {} msg s = (.error (attribution .instantiate "" own),
      { state := .uninitialized, handled := true, failed := true },
      host.observe (.failed .uninitialized (attribution .instantiate "" own)) s₁) := by
  simp only [handle, BringUp.steps, carryOut, h]
  rfl

end Worker

namespace World

/-! ## Grounds for a refusal -/

/-- A guest is offered memory `id`, an open one of engine `k`. -/
structure Offered (w : World) (k id : Nat) (mem : SharedMemory) : Prop where
  found : w.memories[id]? = some mem
  own : mem.engine = k
  isOpen : mem.isOpen = true

/-- The grounds on which engine `k`, which is `e`, does not link a guest, with their faults. -/
inductive Refused [Wasm.Machine] (w : World) (k : Nat) (e : Engine) (bytes : Bytes) :
    Option Nat → Fault → Prop where
  | noMemory : Refused w k e bytes none (.external .noMemory)
  | foreignMemory {id : Nat} {mem : SharedMemory} (hfound : w.memories[id]? = some mem)
      (hengine : mem.engine ≠ k) : Refused w k e bytes (some id) (.external .foreignMemory)
  | closedMemory {id : Nat} {mem : SharedMemory} (hfound : w.memories[id]? = some mem)
      (hengine : mem.engine = k) (hclosed : mem.isOpen = false) :
      Refused w k e bytes (some id) (.external .closedMemory)
  | unreadable {id : Nat} {mem : SharedMemory} {s : Wasm.Import.ScanError}
      (hoffered : Offered w k id mem) (hscan : Wasm.Import.scan bytes = .error s) :
      Refused w k e bytes (some id) (.unreadableImports s)
  | missing {id : Nat} {mem : SharedMemory} {imports : List Wasm.Import}
      (hoffered : Offered w k id mem) (hscan : Wasm.Import.scan bytes = .ok imports)
      (hother : ∀ l, ¬Wasm.Import.Asks bytes e.config.memory.importName l) :
      Refused w k e bytes (some id) (missingMemory e.config.memory.importName)
  | mismatch {id : Nat} {mem : SharedMemory} {l : Wasm.Limits} (hoffered : Offered w k id mem)
      (hasks : Wasm.Import.Asks bytes e.config.memory.importName l)
      (hlimits : ¬l.Admits (w.memoryPages id) mem.maxPages) (detail : String) :
      Refused w k e bytes (some id) (memoryMismatch e.config.memory.importName detail)
  | invalidModule {id : Nat} {mem : SharedMemory} {l : Wasm.Limits}
      (hoffered : Offered w k id mem)
      (hasks : Wasm.Import.Asks bytes e.config.memory.importName l)
      (hlimits : l.Admits (w.memoryPages id) mem.maxPages) (hcache : e.cached? bytes = none)
      (haccept : e.accept? bytes = none) :
      Refused w k e bytes (some id) (.external .invalidModule)

/-- There is no ground to refuse a guest. -/
def Welcome [Wasm.Machine] (w : World) (k : Nat) (e : Engine) (bytes : Bytes)
    (shared : Option Nat) : Prop :=
  ∃ (id : Nat) (mem : SharedMemory) (l : Wasm.Limits), shared = some id ∧ Offered w k id mem ∧
    Wasm.Import.Asks bytes e.config.memory.importName l ∧
    l.Admits (w.memoryPages id) mem.maxPages ∧ (e.cached? bytes = none → e.accept? bytes ≠ none)

section

variable {w w₁ : World} {k id : Nat} {e : Engine} {mem : SharedMemory} {bytes : Bytes}
  {shared : Option Nat} {f : Fault}

theorem Refused.not_welcome [Wasm.Machine] (h : Refused w k e bytes shared f) :
    ¬Welcome w k e bytes shared := by
  rintro ⟨id, mem, l, rfl, hoffered, hasks, hlimits, haccept⟩
  have hmem {mem' : SharedMemory} (h : w.memories[id]? = some mem') : mem' = mem :=
    Option.some.inj (h.symm.trans hoffered.found)
  cases h with
  | foreignMemory hfound hengine => exact hengine (hmem hfound ▸ hoffered.own)
  | closedMemory hfound _ hclosed =>
    cases hmem hfound
    cases hclosed.symm.trans hoffered.isOpen
  | unreadable _ hscan =>
    obtain ⟨imports, i, hscan', -⟩ := hasks
    cases hscan.symm.trans hscan'
  | missing _ _ hother => exact hother l hasks
  | mismatch hoffered' hasks' hlimits' _ =>
    cases hmem hoffered'.found
    exact hlimits' (hasks.unique hasks' ▸ hlimits)
  | invalidModule _ _ _ hcache haccept' => exact haccept hcache haccept'

/-! ## What vetting comes to -/

theorem compile_refused [Wasm.Machine] (he : w.engines[k]? = some e)
    (hcache : e.cached? bytes = none) (haccept : e.accept? bytes = none) :
    compile k bytes w = (.error (.external .invalidModule), w) := by
  rw [compile, bind_run, (engine_finds k).run he]
  dsimp only
  rw [hcache]
  dsimp only
  rw [haccept]
  rfl

theorem compile_welcome [Wasm.Machine] (he : w.engines[k]? = some e)
    (h : e.cached? bytes = none → e.accept? bytes ≠ none) :
    ∃ c w', compile k bytes w = (.ok c, w') := by
  rw [compile, bind_run, (engine_finds k).run he]
  dsimp only
  cases hcache : e.cached? bytes with
  | some c => exact ⟨c, w, rfl⟩
  | none =>
    dsimp only
    cases haccept : e.accept? bytes with
    | none => exact absurd haccept (h hcache)
    | some m => exact ⟨_, _, rfl⟩

theorem vet_noMemory [Wasm.Machine] (he : w.engines[k]? = some e) :
    vet k bytes none w = (.error (.external .noMemory), w) := by
  rw [vet, bind_run, (engine_finds k).run he]
  rfl

theorem vet_known [Wasm.Machine] (he : w.engines[k]? = some e) (hmem : w.memories[id]? = some mem) :
    vet k bytes (some id) w =
      if mem.engine ≠ k then (.error (.external .foreignMemory), w)
      else if mem.isOpen = false then (.error (.external .closedMemory), w)
      else (do
        liftExcept
          (checkMemoryImport e.config.memory.importName (w.memoryPages id) mem.maxPages bytes)
        return (id, (← compile k bytes).module) : Try (Nat × Wasm.Module)) w := by
  rw [vet, bind_run, (engine_finds k).run he]
  dsimp only
  rw [bind_run, (memory_finds id).run hmem]
  dsimp only
  by_cases hengine : mem.engine = k
  · rw [if_neg (not_not_intro hengine), if_neg (not_not_intro hengine)]
    cases hopen : mem.isOpen with
    | false => rfl
    | true =>
      rw [if_neg (by decide), if_neg (by decide), read_run, bind_run]
      cases checkMemoryImport e.config.memory.importName (w.memoryPages id) mem.maxPages bytes <;>
        rfl
  · rw [if_pos hengine, if_pos hengine]
    rfl

theorem vet_offered [Wasm.Machine] (he : w.engines[k]? = some e) (hoffered : Offered w k id mem) :
    (∀ f, checkMemoryImport e.config.memory.importName (w.memoryPages id) mem.maxPages bytes =
        .error f → vet k bytes (some id) w = (.error f, w)) ∧
      (checkMemoryImport e.config.memory.importName (w.memoryPages id) mem.maxPages bytes = .ok () →
        vet k bytes (some id) w =
          (do return (id, (← compile k bytes).module) : Try (Nat × Wasm.Module)) w) := by
  rw [vet_known he hoffered.found, if_neg (not_not_intro hoffered.own), hoffered.isOpen,
    if_neg (by decide), bind_run]
  constructor
  · intro f hcheck
    rw [hcheck]
    rfl
  · intro hcheck
    rw [hcheck]
    rfl

theorem Offered.beside (h : Offered w k id mem) (hw : BesideSignals w w₁) : Offered w₁ k id mem :=
  ⟨hw.memories ▸ h.found, h.own, h.isOpen⟩

theorem BesideSignals.memoryPages_eq (hw : BesideSignals w w₁) (id : Nat) :
    w₁.memoryPages id = w.memoryPages id := by
  rw [memoryPages, memoryPages, memorySize, memorySize, linear?, linear?, hw.store, hw.memories]

/-- The check of an offered memory refuses a guest in any world with the same engines and
memories. -/
theorem Offered.vetoed [Wasm.Machine] (h : Offered w k id mem) (he : w.engines[k]? = some e)
    (hcheck : checkMemoryImport e.config.memory.importName (w.memoryPages id) mem.maxPages bytes =
      .error f) (hw : BesideSignals w w₁) : vet k bytes (some id) w₁ = (.error f, w₁) :=
  (vet_offered (hw.engines ▸ he) (h.beside hw)).1 f (hw.memoryPages_eq id ▸ hcheck)

/-- With an open memory of the engine, the imports and the engine decide. -/
theorem Offered.refused_or_welcome [Wasm.Machine] (h : Offered w k id mem)
    (he : w.engines[k]? = some e) (bytes : Bytes) :
    (∃ f, Refused w k e bytes (some id) f ∧
      ∀ w₁, BesideSignals w w₁ → vet k bytes (some id) w₁ = (.error f, w₁)) ∨
    Welcome w k e bytes (some id) ∧ ∃ r w', vet k bytes (some id) w = (.ok r, w') := by
  cases hscan : Wasm.Import.scan bytes with
  | error s =>
    exact .inl ⟨_, .unreadable h hscan, fun _ => h.vetoed he (checkMemoryImport_unreadable hscan)⟩
  | ok imports =>
    by_cases hasks : ∃ l, Wasm.Import.Asks bytes e.config.memory.importName l
    case neg =>
      have hother : ∀ l, ¬Wasm.Import.Asks bytes e.config.memory.importName l :=
        fun l hasks' => hasks ⟨l, hasks'⟩
      exact .inl ⟨_, .missing h hscan hother,
        fun _ => h.vetoed he (checkMemoryImport_missing hscan hother)⟩
    obtain ⟨l, hasks⟩ := hasks
    by_cases hlimits : l.Admits (w.memoryPages id) mem.maxPages
    case neg =>
      obtain ⟨detail, hcheck⟩ := (checkMemoryImport_of_asks hasks).2 hlimits
      exact .inl ⟨_, .mismatch h hasks hlimits detail, fun _ => h.vetoed he hcheck⟩
    have hcheck := (checkMemoryImport_of_asks hasks).1 hlimits
    by_cases haccept : e.cached? bytes = none → e.accept? bytes ≠ none
    · obtain ⟨c, w', hcompile⟩ := compile_welcome he haccept
      refine .inr ⟨⟨id, mem, l, rfl, h, hasks, hlimits, haccept⟩, (id, c.module), w', ?_⟩
      rw [(vet_offered he h).2 hcheck, bind_run, hcompile]
      rfl
    · obtain ⟨hcache, haccept⟩ := Classical.not_imp.1 haccept
      have haccept := not_not.1 haccept
      refine .inl ⟨_, .invalidModule h hasks hlimits hcache haccept, fun w₁ hw => ?_⟩
      have he₁ : w₁.engines[k]? = some e := hw.engines ▸ he
      rw [(vet_offered he₁ (h.beside hw)).2 (hw.memoryPages_eq id ▸ hcheck), bind_run,
        compile_refused he₁ hcache haccept]

/-- A guest is refused on one of the grounds, and then nothing changes, or it is welcome. -/
theorem vet_refused_or_welcome [Wasm.Machine] (he : w.engines[k]? = some e) (bytes : Bytes)
    (hshared : ∀ id ∈ shared, id < w.memories.size) :
    (∃ f, Refused w k e bytes shared f ∧
      ∀ w₁, BesideSignals w w₁ → vet k bytes shared w₁ = (.error f, w₁)) ∨
    Welcome w k e bytes shared ∧ ∃ r w', vet k bytes shared w = (.ok r, w') := by
  have he₁ {w₁ : World} (hw : BesideSignals w w₁) : w₁.engines[k]? = some e := hw.engines ▸ he
  cases shared with
  | none => exact .inl ⟨_, .noMemory, fun _ hw => vet_noMemory (he₁ hw)⟩
  | some id =>
    obtain ⟨mem, hmem⟩ : ∃ mem, w.memories[id]? = some mem :=
      ⟨_, Array.getElem?_eq_getElem (hshared id rfl)⟩
    have hmem₁ {w₁ : World} (hw : BesideSignals w w₁) : w₁.memories[id]? = some mem :=
      hw.memories ▸ hmem
    by_cases hengine : mem.engine = k
    case neg =>
      refine .inl ⟨_, .foreignMemory hmem hengine, fun w₁ hw => ?_⟩
      rw [vet_known (he₁ hw) (hmem₁ hw), if_pos hengine]
    cases hopen : mem.isOpen with
    | false =>
      refine .inl ⟨_, .closedMemory hmem hengine hopen, fun w₁ hw => ?_⟩
      rw [vet_known (he₁ hw) (hmem₁ hw), if_neg (not_not_intro hengine), if_pos hopen]
    | true => exact Offered.refused_or_welcome ⟨hmem, hengine, hopen⟩ he bytes

end

/-! ## Workers -/

/-- Only worker `j` and the records differ, and the worker has the bridge that it had. -/
structure OnlyReported (j : Nat) (w w' : World) : Prop where
  rest : w' = { w with workers := w'.workers, logs := w'.logs, spans := w'.spans }
  others : ∀ i, i ≠ j → w'.workers[i]? = w.workers[i]?
  bridge : (w'.workers[j]?).map (·.bridge) = (w.workers[j]?).map (·.bridge)

section

variable {w w' : World} {j k : Nat} {entry : WorkerEntry} {f : Fault} {msg : Worker.Message Nat}
  {cancelled : Bool}

theorem onlyReported_modify {g : WorkerEntry → WorkerEntry} (hg : ∀ e, (g e).bridge = e.bridge)
    (w : World) : OnlyReported j w { w with workers := w.workers.modify j g } where
  rest := rfl
  others i hi := getElem?_modify_ne (Ne.symm hi)
  bridge := by
    rw [Array.getElem?_modify, if_pos rfl, Option.map_map]
    congr 1
    funext e
    exact hg e

def onlyReported (j : Nat) : Frame where
  rel := OnlyReported j
  refl _ := ⟨rfl, fun _ _ => rfl, rfl⟩
  trans h g := by
    refine ⟨?_, fun i hi => (g.others i hi).trans (h.others i hi), g.bridge.trans h.bridge⟩
    have hrest := g.rest
    rw [h.rest] at hrest
    exact hrest

theorem onlyReported_observed (j : Nat) : (onlyReported j).Observed j where
  logs _ _ := ⟨rfl, fun _ _ => rfl, rfl⟩
  spans _ _ := ⟨rfl, fun _ _ => rfl, rfl⟩
  started w _ := by
    refine onlyReported_modify ?_ w
    exact fun _ => rfl
  advanced w _ := by
    refine onlyReported_modify ?_ w
    exact fun _ => rfl

theorem conclude_error (j : Nat) (entry : WorkerEntry) (f : Fault) (p : Worker.Progress)
    (w w' : World) : conclude j entry (.error f, p, w') w =
      (.error f, { w' with workers := w'.workers.modify j fun e => { e with progress := p } }) :=
  rfl

/-- A worker whose guest is refused has failed before its first step. -/
theorem runWorker_of_vet_error [Wasm.Machine] (hentry : w.workers[j]? = some entry)
    (hmaker : entry.maker = .engine k) (hprogress : entry.progress = {})
    (hvet : ∀ w₁, BesideSignals w w₁ → vet k msg.bytes msg.memory w₁ = (.error f, w₁)) :
    ∃ w', runWorker j (.message msg) cancelled w = (.error (.instantiation (some f)), w') ∧
      OnlyReported j w w' ∧ (w'.workers[j]?).map (·.progress) =
        some { state := .uninitialized, handled := true, failed := true } := by
  have hmake (w₁ : World) (hw : BesideSignals w w₁) :
      makeInstance entry cancelled msg w₁ = (.error (.instantiation (some f)), w₁) := by
    rw [makeInstance_engine hmaker, bind_run, instantiate_of_vet_error (hvet w₁ hw)]
  have hstarted := observe_beside j entry cancelled msg .started w
  have hmade : (bringingUp j entry cancelled msg).instantiate msg _ = _ := hmake _ hstarted
  have hhandle := Worker.handle_of_instantiate_error entry.exports hmade
  have hreported (n : Worker.Note) (w : World) :
      OnlyReported j w ((bringingUp j entry cancelled msg).observe n w) :=
    observe_keeps (onlyReported_observed j) entry msg n w
  have hrun : runWorker j (.message msg) cancelled w = conclude j entry
      (Worker.handle (bringingUp j entry cancelled msg) entry.exports {} msg w) w := by
    rw [runWorker, runWorkerOn, bind_run, (workerEntry_finds j).run hentry]
    dsimp only
    rw [read_run, hprogress]
    rfl
  rw [hrun, hhandle]
  have hseen := (onlyReported j).trans (hreported .started w) (hreported (.failed .uninitialized
    (Worker.attribution .instantiate "" (.instantiation (some f)))) _)
  refine ⟨_, conclude_error .., (onlyReported j).trans hseen ?_, ?_⟩
  · refine onlyReported_modify ?_ _
    exact fun _ => rfl
  · have hbridge := hseen.bridge
    rw [hentry, Option.map_some] at hbridge
    obtain ⟨entry', hentry', -⟩ := Option.map_eq_some_iff.1 hbridge
    rw [getElem?_modify_self hentry']
    rfl

end

/-! ## Refusals have no effect -/

/-- The refusal of a guest on a ground that is reported as `f`. -/
structure Rejected [Wasm.Machine] (w : World) (k : Nat) (e : Engine) (bytes : Bytes)
    (shared : Option Nat) (f : Fault) : Prop where
  /-- Nothing at all changes, whatever sink the guest was to have. -/
  unchanged : ∀ (sink : Option Sink) (cancelled : Bool),
    instantiate k bytes shared sink cancelled w = (.error (.instantiation (some f)), w)
  labels : (Fault.instantiation (some f)).labels? = some ("instantiate", "instantiation")
  cause : f ∈ (Fault.instantiation (some f)).chain
  /-- The ground itself is found, and so is whatever is found in it. -/
  ground : (Fault.instantiation (some f)).is f = true
  found : ∀ target, f.is target = true → (Fault.instantiation (some f)).is target = true
  missing : f = missingMemory e.config.memory.importName →
    ∀ imports, (Fault.instantiation (some f)).is (.missingImports imports) = true
  mismatch : ∀ detail, f = memoryMismatch e.config.memory.importName detail →
    ∀ r : Report, r.phase.label = "instantiate" → r.kind.label = "type_mismatch" →
      (Fault.instantiation (some f)).is (.report r) = true
  /-- Where a reader stopped in the middle of the imports, the reason is found. -/
  stopped : ∀ s why, f = .unreadableImports s → Fault.StoppedBy why s →
    (Fault.instantiation (some f)).is (.external (.stopped why)) = true
  /-- A new worker that is given the guest fails with the same fault. It stays without a bridge and
  in its first state, and no signal is on its way. -/
  worker : ∀ (j : Nat) (entry : WorkerEntry) (msg : Worker.Message Nat) (cancelled : Bool),
    w.workers[j]? = some entry → entry.maker = .engine k → entry.progress = {} →
    entry.bridge = none → msg.bytes = bytes → msg.memory = shared →
    ∃ w' entry', runWorker j (.message msg) cancelled w =
        (.error (.instantiation (some f)), w') ∧ OnlyReported j w w' ∧
      w'.workers[j]? = some entry' ∧ entry'.bridge = none ∧
      entry'.progress = { state := .uninitialized, handled := true, failed := true }

section

variable {w w' : World} {k : Nat} {e : Engine} {bytes : Bytes} {shared : Option Nat} {f : Fault}

/-- Every ground is found in itself. -/
theorem Refused.is_self [Wasm.Machine] (h : Refused w k e bytes shared f) : f.is f = true := by
  refine Fault.is_iff.2 ⟨f, f.self_mem_chain, ?_⟩
  cases h with
  | mismatch => simp [Fault.sameSort, memoryMismatch, Fault.report?]
  | missing => rfl
  | unreadable => simp [Fault.sameSort, Fault.unreadableImports, Fault.report?]
  | noMemory | foreignMemory | closedMemory | invalidModule =>
    simp [Fault.sameSort, Fault.report?]

theorem rejected [Wasm.Machine] (hrefused : Refused w k e bytes shared f)
    (hvet : ∀ w₁, BesideSignals w w₁ → vet k bytes shared w₁ = (.error f, w₁)) :
    Rejected w k e bytes shared f := by
  have hfound (target : Fault) (h : f.is target = true) :
      (Fault.instantiation (some f)).is target = true :=
    Fault.is_of_suffix (List.suffix_cons _ _) h
  constructor
  case unchanged => exact fun _ _ => instantiate_of_vet_error (hvet w (besideSignals.refl w))
  case labels => rfl
  case cause => exact List.mem_cons_of_mem _ f.self_mem_chain
  case ground => exact hfound f hrefused.is_self
  case found => exact hfound
  case missing =>
    rintro rfl imports
    exact hfound _ rfl
  case mismatch =>
    rintro detail rfl r hphase hkind
    refine hfound _ (Fault.is_iff.2 ⟨_, Fault.self_mem_chain _, ?_⟩)
    have hphase : r.phase = .instantiate := congrArg Phase.mk hphase
    have hkind : r.kind = .typeMismatch := congrArg Kind.mk hkind
    simp [Fault.sameSort, memoryMismatch, Fault.report?, hphase, hkind]
  case stopped =>
    rintro s why rfl hstopped
    exact hfound _ (Fault.unreadableImports_is_stopped hstopped)
  case worker =>
    rintro j entry msg cancelled hentry hmaker hprogress hbridge rfl rfl
    obtain ⟨w', hrun, hreported, hend⟩ := runWorker_of_vet_error hentry hmaker hprogress hvet
    obtain ⟨entry', hentry', hend⟩ := Option.map_eq_some_iff.1 hend
    have hbridge' := hreported.bridge
    rw [hentry, hentry', Option.map_some, Option.map_some, hbridge] at hbridge'
    exact ⟨w', entry', hrun, hreported, hentry', Option.some.inj hbridge', hend⟩

/-- An engine comes to link a guest unless there is a ground to refuse it. On any ground the refusal
leaves the world as it is, and its fault leads back to the ground. -/
theorem rejected_instantiation_has_no_effect [Wasm.Machine] (he : w.engines[k]? = some e)
    (bytes : Bytes) (shared : Option Nat) (hshared : ∀ id ∈ shared, id < w.memories.size) :
    ((∃ r w', vet k bytes shared w = (.ok r, w')) ↔ ∀ f, ¬Refused w k e bytes shared f) ∧
    ∀ f w', vet k bytes shared w = (.error f, w') →
      w' = w ∧ Refused w k e bytes shared f ∧ Rejected w k e bytes shared f := by
  rcases vet_refused_or_welcome he bytes hshared with ⟨f, hrefused, hvet⟩ | ⟨hwelcome, r, w', hvet⟩
  · have hrun := hvet w (besideSignals.refl w)
    refine ⟨iff_of_false ?_ fun h => h f hrefused, ?_⟩
    · rintro ⟨r, w', h⟩
      cases hrun.symm.trans h
    · intro f' w' h
      cases hrun.symm.trans h
      exact ⟨rfl, hrefused, rejected hrefused hvet⟩
  · refine ⟨iff_of_true ⟨r, w', hvet⟩ fun f hrefused => hrefused.not_welcome hwelcome, ?_⟩
    intro f w'' h
    cases hvet.symm.trans h

end

/-- A guest that imports a memory which it does not share. -/
def loner : Wasm.Assembly where
  memory := some { module := "env", name := "memory", min := 1, max := 2, shared := false }

/-- An engine with a memory, and a worker that uses the engine. -/
def doorstep : World :=
  { afterAll [.newEngine none, .newMemory 0 1 2] {} with
    workers := #[{ maker := .engine 0, relay := 0 }]
    relays := #[({ hasOutbox := false }, .none)] }

theorem doorstep_rejects_loner : ∃ e f, doorstep.engines[0]? = some e ∧
    vet 0 loner.encode (some 0) doorstep = (.error f, doorstep) ∧
    f = memoryMismatch ⟨"env", "memory"⟩ "want shared memory, got unshared memory" ∧
    Refused doorstep 0 e loner.encode (some 0) f ∧
    Rejected doorstep 0 e loner.encode (some 0) f := by
  have hengine : (doorstep.engines[0]?).isSome = true := by decide +kernel
  have hmemories : doorstep.memories.size = 1 := by decide +kernel
  have hfails : ((vet 0 loner.encode (some 0) doorstep).1.map fun _ => ()) = .error
      (memoryMismatch ⟨"env", "memory"⟩ "want shared memory, got unshared memory") := by
    decide +kernel
  obtain ⟨e, he⟩ := Option.isSome_iff_exists.1 hengine
  have hall := rejected_instantiation_has_no_effect he loner.encode (some 0)
    (by simp [hmemories])
  rcases hvet : vet 0 loner.encode (some 0) doorstep with ⟨f | r, w'⟩
  · obtain ⟨rfl, hrefused, hrejected⟩ := hall.2 f w' hvet
    rw [hvet] at hfails
    exact ⟨e, f, he, rfl, Except.error.inj hfails, hrefused, hrejected⟩
  · rw [hvet] at hfails
    cases hfails

end World

end GuestThreads
