import GuestThreads.Proofs.World.Calls

/-!
# Making instances

A guest is vetted against the memory that it is given, linked to what its engine offers, set up,
started and entered. Vetting leaves a compiled module behind and nothing else; what it answers
depends on the binary and the memory alone, not on what was compiled before.
-/

namespace GuestThreads.World

variable [Wasm.Machine]

/-! ## Compiling -/

/-- What an engine has compiled is what it accepts. -/
def Accepted (e : Engine) : Prop := ∀ bytes m, (bytes, m) ∈ e.cache → e.accept? bytes = some m

def Cached (w : World) : Prop := ∀ (k : Nat) e, w.engines[k]? = some e → Accepted e

theorem accept?_congr {e e' : Engine} (hconfig : e'.config = e.config)
    (hclosed : e'.closed = e.closed) : e'.accept? = e.accept? := by
  funext bytes
  rw [Engine.accept?, Engine.accept?, Engine.pageLimit, Engine.pageLimit, hconfig, hclosed]

section

variable {w w' : World}

theorem cached_of_compiled {k : Nat} {e : Engine} {bytes : Bytes} {m : Wasm.Module}
    (h : Cached w) (he : w.engines[k]? = some e) (haccept : e.accept? bytes = some m)
    (hengines : w'.engines = w.engines.modify k fun e =>
      { e with cache := e.cache ++ [(bytes, m)] }) : Cached w' := by
  intro k' e' he'
  rw [hengines] at he'
  by_cases hk : k = k'
  · subst hk
    cases (getElem?_modify_self he).symm.trans he'
    intro b m' hmem
    rcases List.mem_append.1 hmem with hmem | hmem
    · exact h k e he b m' hmem
    · cases List.mem_singleton.1 hmem
      exact haccept
  · rw [getElem?_modify_ne hk] at he'
    exact h k' e' he'

theorem cached_of_installed {k inst : Nat} (h : Cached w)
    (hengines : w'.engines = w.engines.modify k fun e =>
      { e with instances := .instance inst :: e.instances }) : Cached w' := by
  intro k' e' he'
  rw [hengines, Array.getElem?_modify] at he'
  split at he'
  · obtain ⟨e, he, rfl⟩ := Option.map_eq_some_iff.1 he'
    exact h k' e he
  · exact h k' e' he'

end

/-- The worlds differ in what engines have compiled and in the records, and in nothing else that
engines and guests deal with. -/
structure Stocked (w w' : World) : Prop where
  store : w'.store = w.store
  engines : w'.engines.map essence = w.engines.map essence
  memories : w'.memories = w.memories
  instances : w'.instances = w.instances
  inboxes : w'.inboxes = w.inboxes
  relays : w'.relays = w.relays
  modules : w'.modules = w.modules
  cached : Cached w → Cached w'

theorem Stocked.refl (w : World) : Stocked w w := ⟨rfl, rfl, rfl, rfl, rfl, rfl, rfl, id⟩

/-- The module that a binary denotes for an engine. -/
def accepting (e : Engine) (bytes : Bytes) : Except Fault Wasm.Module :=
  match e.accept? bytes with
  | some m => .ok m
  | none => .error (.external .invalidModule)

section

variable {w : World} {k : Nat} {e : Engine} {bytes : Bytes}

theorem Accepted.cached? (h : Accepted e) {c : Compiled} (hc : e.cached? bytes = some c) :
    e.accept? bytes = some c.module := by
  obtain ⟨place, hplace, hc⟩ := Option.bind_eq_some_iff.1 hc
  obtain ⟨⟨b, m⟩, hentry, hc⟩ := Option.bind_eq_some_iff.1 hc
  cases hc
  obtain ⟨hlt, hfound, -⟩ := List.findIdx?_eq_some_iff_getElem.1 hplace
  have hget := (List.getElem?_eq_some_iff.1 hentry).2
  rw [hget] at hfound
  have hb : b = bytes := by simpa using hfound
  exact hb ▸ h b m (List.mem_of_getElem? hentry)

/-- Compiling gives what the engine accepts, whether it was compiled before or not. -/
theorem compile_run (hcached : Cached w) (he : w.engines[k]? = some e) (bytes : Bytes) :
    ∃ place w', compile k bytes w =
      ((accepting e bytes).map fun m => { place := place, module := m }, w') ∧ Stocked w w' := by
  rw [compile, bind_run, (engine_finds k).run he]
  dsimp only
  cases hcache : e.cached? bytes with
  | some c =>
    rw [accepting, (hcached k e he).cached? hcache]
    exact ⟨c.place, w, rfl, .refl w⟩
  | none =>
    dsimp only
    cases haccept : e.accept? bytes with
    | none =>
      rw [accepting, haccept]
      exact ⟨0, w, rfl, .refl w⟩
    | some m =>
      rw [accepting, haccept]
      have hengines : (w.engines.modify k fun e => { e with
          cache := e.cache ++ [(bytes, m)] }).map essence = w.engines.map essence :=
        map_modify fun _ => rfl
      refine ⟨e.cache.length, _, rfl, rfl, hengines, rfl, rfl, rfl, rfl, rfl, ?_⟩
      exact fun h => cached_of_compiled h he haccept rfl

/-! ## Vetting -/

/-- The memory and the module of a guest that engine `k` is asked to instantiate. -/
def vetting (w : World) (k : Nat) (bytes : Bytes) (shared : Option Nat) :
    Except Fault (Nat × Wasm.Module) := do
  let some e := w.engines[k]? | throw unknown
  let some id := shared | throw (.external .noMemory)
  let some m := w.memories[id]? | throw unknown
  if m.engine ≠ k then throw (.external .foreignMemory)
  if !m.isOpen then throw (.external .closedMemory)
  checkMemoryImport e.config.memory.importName (w.memoryPages id) m.maxPages bytes
  let m ← accepting e bytes
  return (id, m)

/-- What was compiled before does not matter to vetting. -/
theorem Stocked.vetting_eq {w' : World} (h : Stocked w w') (k : Nat) (bytes : Bytes)
    (shared : Option Nat) : vetting w' k bytes shared = vetting w k bytes shared := by
  have hpages (id : Nat) : w'.memoryPages id = w.memoryPages id := by
    rw [memoryPages, memoryPages, memorySize, memorySize, linear?, linear?, h.store, h.memories]
  cases he' : w'.engines[k]? with
  | none =>
    have he : w.engines[k]? = none := by
      have hsize := congrArg Array.size h.engines
      rw [Array.size_map, Array.size_map] at hsize
      rw [Array.getElem?_eq_none_iff] at he' ⊢
      omega
    rw [vetting, vetting, he', he]
  | some e' =>
    obtain ⟨e, he, hessence⟩ := getElem?_of_map_eq h.engines he'
    obtain ⟨hconfig, -, -, hclosed⟩ := essence_inj hessence
    have haccepting : accepting e' bytes = accepting e bytes := by
      rw [accepting, accepting, accept?_congr hconfig hclosed]
    rw [vetting, vetting, he', he]
    dsimp only
    simp only [h.memories, hpages, hconfig, haccepting]

/-- Whatever passes vetting is a module that the engine accepts, together with an open memory of
the engine. -/
structure Vetted (w : World) (k : Nat) (bytes : Bytes) (e : Engine) (id : Nat) (mem : SharedMemory)
    (m : Wasm.Module) : Prop where
  engine : w.engines[k]? = some e
  memory : w.memories[id]? = some mem
  own : mem.engine = k
  isOpen : mem.isOpen = true
  accepted : e.accept? bytes = some m

theorem vetted_of_vetting {shared : Option Nat} {id : Nat} {m : Wasm.Module}
    (h : vetting w k bytes shared = .ok (id, m)) : ∃ e mem, Vetted w k bytes e id mem m := by
  rw [vetting] at h
  cases he : w.engines[k]? with
  | none => simp [he] at h
  | some e =>
    rw [he] at h
    cases shared with
    | none => cases h
    | some id' =>
      dsimp only at h
      cases hm : w.memories[id']? with
      | none => simp [hm] at h
      | some mem =>
        rw [hm] at h
        dsimp only at h
        split at h
        · cases h
        · split at h
          · cases h
          · rename_i hown hopen
            cases hcheck : checkMemoryImport e.config.memory.importName (w.memoryPages id')
                mem.maxPages bytes with
            | error f =>
              rw [hcheck] at h
              cases h
            | ok =>
              rw [hcheck] at h
              cases haccept : e.accept? bytes with
              | none =>
                rw [accepting, haccept] at h
                cases h
              | some m' =>
                rw [accepting, haccept] at h
                cases h
                exact ⟨e, mem, he, hm, not_not.1 hown, by simpa using hopen, haccept⟩

theorem vet_run (hcached : Cached w) (k : Nat) (bytes : Bytes) (shared : Option Nat) :
    ∃ w', vet k bytes shared w = (vetting w k bytes shared, w') ∧ Stocked w w' := by
  rw [vet, vetting, bind_run]
  cases he : w.engines[k]? with
  | none =>
    rw [(engine_finds k).miss he]
    exact ⟨w, rfl, .refl w⟩
  | some e =>
    rw [(engine_finds k).run he]
    cases shared with
    | none => exact ⟨w, rfl, .refl w⟩
    | some id =>
      dsimp only
      rw [bind_run]
      cases hm : w.memories[id]? with
      | none =>
        rw [(memory_finds id).miss hm]
        exact ⟨w, rfl, .refl w⟩
      | some m =>
        rw [(memory_finds id).run hm]
        dsimp only
        by_cases hengine : m.engine = k
        · rw [if_neg (not_not_intro hengine), if_neg (not_not_intro hengine)]
          cases hopen : m.isOpen with
          | false => exact ⟨w, rfl, .refl w⟩
          | true =>
            rw [if_neg (by decide), if_neg (by decide), read_run]
            cases checkMemoryImport e.config.memory.importName (w.memoryPages id) m.maxPages
                bytes with
            | error f => exact ⟨w, rfl, .refl w⟩
            | ok =>
              obtain ⟨place, w', hcompile, hstocked⟩ := compile_run hcached he bytes
              dsimp only
              rw [bind_run, hcompile]
              cases accepting e bytes with
              | error f => exact ⟨w', rfl, hstocked⟩
              | ok m => exact ⟨w', rfl, hstocked⟩
        · rw [if_pos hengine, if_pos hengine]
          exact ⟨w, rfl, .refl w⟩

/-! ## Linking -/

/-- The world once an instance is added to the store and to the books of engine `k`. -/
def installed (w : World) (k inst : Nat) (store : Wasm.Store) : World :=
  { w with
    store := store
    engines := w.engines.modify k fun e =>
      { e with instances := .instance inst :: e.instances } }

/-- The world once an instance is entered under the next number. -/
def enlisted (w : World) (k id inst : Nat) (sink : Option Sink) : World :=
  { w with
    instances := w.instances.push { inst := inst, engine := k, memory := id, sink := sink } }

variable {m : Wasm.Module} {inst : Nat} {store : Wasm.Store} {sink : Option Sink} {cancelled : Bool}

theorem link_refused {reason : String} (he : w.engines[k]? = some e)
    (h : w.store.instantiate e.modules e.pageLimit m = .error reason) :
    link k m sink cancelled w = (.error (.external (.refused reason)), w) := by
  rw [link, bind_run, install, bind_run, (engine_finds k).run he]
  dsimp only
  rw [read_run, h]
  rfl

omit [Wasm.Machine] in
theorem install_run (he : w.engines[k]? = some e)
    (h : w.store.instantiate e.modules e.pageLimit m = .ok (inst, store)) :
    install k m w = (.ok (e, inst), installed w k inst store) := by
  rw [install, bind_run, (engine_finds k).run he]
  dsimp only
  rw [read_run, h]
  rfl

variable {filled : Wasm.Store}

theorem fill_evolves {refusal : Option String}
    (h : store.fill inst = (refusal, filled)) : Wasm.Evolves store filled := by
  cases h
  exact .leave store inst _

theorem fill_ok (h : w.store.fill inst = (none, filled)) :
    fill inst w = (.ok (), { w with store := filled }) := by
  refine (read_run _ w).trans ?_
  rw [h]
  rfl

theorem fill_refused {reason : String} (h : w.store.fill inst = (some reason, filled)) :
    fill inst w = (.error (.external (.refused reason)), { w with store := filled }) := by
  refine (read_run _ w).trans ?_
  rw [h]
  rfl

/-- An instance that cannot be set up stays in the store. -/
theorem link_unfilled {reason : String} (he : w.engines[k]? = some e)
    (h : w.store.instantiate e.modules e.pageLimit m = .ok (inst, store))
    (hfill : store.fill inst = (some reason, filled)) : link k m sink cancelled w =
      (.error (.external (.refused reason)), installed w k inst filled) := by
  rw [link, bind_run, install_run he h]
  dsimp only
  rw [bind_run, fill_refused (w := installed w k inst store) hfill]
  rfl

/-- Without a start function, an instance is linked once it is set up. -/
theorem link_plain (he : w.engines[k]? = some e)
    (h : w.store.instantiate e.modules e.pageLimit m = .ok (inst, store))
    (hfill : store.fill inst = (none, filled)) (hstart : m.start = none) :
    link k m sink cancelled w = (.ok inst, installed w k inst filled) := by
  rw [link, bind_run, install_run he h]
  dsimp only
  rw [bind_run, fill_ok (w := installed w k inst store) hfill, hstart]
  rfl

theorem link_start (he : w.engines[k]? = some e)
    (h : w.store.instantiate e.modules e.pageLimit m = .ok (inst, store))
    (hfill : store.fill inst = (none, filled)) {start : Nat} (hstart : m.start = some start)
    {r : Except Fault (List UInt64)} {w' : World}
    (hcall : callFunction e sink cancelled inst start [] (.startTrap (startName m start))
      (installed w k inst filled) = (r, w')) :
    link k m sink cancelled w = (r.map fun _ => inst, w') := by
  have hcall' : callFunction e sink cancelled inst start [] (.startTrap (startName m start))
      { installed w k inst store with store := filled } = (r, w') := hcall
  rw [link, bind_run, install_run he h]
  dsimp only
  rw [bind_run, fill_ok (w := installed w k inst store) hfill, hstart]
  dsimp only
  rw [bind_run, hcall']
  cases r <;> rfl

variable {shared : Option Nat} {w₁ w₂ : World} {id : Nat}

theorem instantiate_of_vet_error {f : Fault} (h : vet k bytes shared w = (.error f, w₁)) :
    instantiate k bytes shared sink cancelled w = (.error (.instantiation (some f)), w₁) := by
  rw [instantiate, tryCatch_run, bind_run, h]
  rfl

theorem instantiate_of_link_error {f : Fault} (h : vet k bytes shared w = (.ok (id, m), w₁))
    (hlink : link k m sink cancelled w₁ = (.error f, w₂)) :
    instantiate k bytes shared sink cancelled w = (.error (.instantiation (some f)), w₂) := by
  rw [instantiate, tryCatch_run, bind_run, h]
  dsimp only
  rw [bind_run, hlink]
  rfl

theorem instantiate_of_link (h : vet k bytes shared w = (.ok (id, m), w₁))
    (hlink : link k m sink cancelled w₁ = (.ok inst, w₂)) :
    instantiate k bytes shared sink cancelled w =
      (.ok w₂.instances.size, enlisted w₂ k id inst sink) := by
  rw [instantiate, tryCatch_run, bind_run, h]
  dsimp only
  rw [bind_run, hlink]
  rfl

/-- How an attempt to make an instance of a guest comes out: the guest is turned away, linking it
fails, or the instance is entered. -/
inductive Attempt (w : World) (k : Nat) (bytes : Bytes) (shared : Option Nat) (sink : Option Sink)
    (cancelled : Bool) : Except Fault Nat × World → Prop
  | rejected {f : Fault} (hvetting : vetting w k bytes shared = .error f) :
    Attempt w k bytes shared sink cancelled (.error (.instantiation (some f)), w)
  | failed {e : Engine} {id : Nat} {mem : SharedMemory} {m : Wasm.Module} {f : Fault} {w' : World}
    (hvetting : vetting w k bytes shared = .ok (id, m)) (hv : Vetted w k bytes e id mem m)
    (hlink : link k m sink cancelled w = (.error f, w')) :
    Attempt w k bytes shared sink cancelled (.error (.instantiation (some f)), w')
  | entered {e : Engine} {id inst : Nat} {mem : SharedMemory} {m : Wasm.Module} {w' : World}
    (hvetting : vetting w k bytes shared = .ok (id, m)) (hv : Vetted w k bytes e id mem m)
    (hlink : link k m sink cancelled w = (.ok inst, w')) :
    Attempt w k bytes shared sink cancelled
      (.ok w'.instances.size, enlisted w' k id inst sink)

/-- Vetting may add to what the engine has compiled, and then the instance is made. -/
theorem instantiate_attempt (hcached : Cached w) (k : Nat) (bytes : Bytes) (shared : Option Nat)
    (sink : Option Sink) (cancelled : Bool) :
    ∃ w₁, Stocked w w₁ ∧ vet k bytes shared w = (vetting w₁ k bytes shared, w₁) ∧
      Attempt w₁ k bytes shared sink cancelled (instantiate k bytes shared sink cancelled w) := by
  obtain ⟨w₁, hvet, hstocked⟩ := vet_run hcached k bytes shared
  rw [← hstocked.vetting_eq] at hvet
  refine ⟨w₁, hstocked, hvet, ?_⟩
  rcases hvetting : vetting w₁ k bytes shared with f | ⟨id, m⟩
  · rw [hvetting] at hvet
    rw [instantiate_of_vet_error hvet]
    exact .rejected hvetting
  · rw [hvetting] at hvet
    obtain ⟨e, mem, hv⟩ := vetted_of_vetting hvetting
    rcases hlink : link k m sink cancelled w₁ with ⟨f | inst, w₂⟩
    · rw [instantiate_of_link_error hvet hlink]
      exact .failed hvetting hv hlink
    · rw [instantiate_of_link hvet hlink]
      exact .entered hvetting hv hlink

end

end GuestThreads.World
