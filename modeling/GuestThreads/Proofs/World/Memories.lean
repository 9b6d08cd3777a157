import GuestThreads.Proofs.Wasm.Posting
import GuestThreads.Proofs.World.Courses

/-!
# Creating and closing shared memories

Creating a memory takes two module names and defines an instance behind one of them. It either does
all of this or nothing at all: `newMemory_cases` says when it succeeds and what the world is like
then, and that a failure leaves the world as it was.
-/

namespace GuestThreads.World

/-! ## The module that defines a memory -/

/-- Guests import the memory and the signal function from one module. -/
def merged (c : Config) : Prop := c.signal.module = c.memory.importName.module

instance : DecidablePred merged := fun c =>
  inferInstanceAs (Decidable (c.signal.module = c.memory.importName.module))

/-- The module name of the host's function. -/
def hostName (c : Config) : String := if merged c then hostModule else c.signal.module

/-- The host's function, as its module exports it. -/
def hostFunc (c : Config) (home : Nat) : Wasm.HostFunc where
  name := if merged c then hostFunction else c.signal.name
  type := Wasm.signalType
  home := home

/-- The functions that the trampoline forwards to. -/
def forwarded (c : Config) (home : Nat) : List Wasm.HostFunc :=
  if merged c then [hostFunc c home] else []

/-- The instance that defines linear memory `linear`. -/
def envInstance (c : Config) (min max : UInt32) (home inst linear : Nat) : Wasm.Instance where
  module := (trampoline c min max).meaning
  callees := ((trampoline c min max).calleesOf (forwarded c home) inst).toArray
  memory := some linear

/-- The memory that an engine makes for the given bounds. -/
def freshMemory (e : Engine) (min max : UInt32) : Wasm.Memory where
  pages := min.toNat
  ceiling := Nat.min max.toNat e.pageLimit

def addEnv (s : Wasm.Store) (e : Engine) (home : Nat) (min max : UInt32) : Wasm.Store :=
  { s with
    memories := s.memories.push (freshMemory e min max)
    instances := s.instances.push
      (envInstance e.config min max home s.instances.size s.memories.size) }

theorem trampoline_funcs_merged {c : Config} (h : merged c) (min max : UInt32) :
    (trampoline c min max).funcs =
      [{ importName := hostFunction, exportName := c.signal.name, type := Wasm.signalType }] :=
  if_pos h

theorem trampoline_funcs_apart {c : Config} (h : ¬merged c) (min max : UInt32) :
    (trampoline c min max).funcs = [] :=
  if_neg h

theorem trampoline_numeric (c : Config) (min max : UInt32) : (trampoline c min max).Numeric := by
  intro f hf
  by_cases h : merged c
  · rw [trampoline_funcs_merged h, List.mem_singleton] at hf
    subst hf
    exact (by decide : Wasm.signalType.Numeric)
  · rw [trampoline_funcs_apart h] at hf
    cases hf

/-- The trampoline is linked to the functions that it forwards to. -/
theorem instantiate_trampoline {e : Engine} {home : Nat} {min max : UInt32} (s : Wasm.Store)
    {modules : List (String × Wasm.Provider)} (hfits : (trampoline e.config min max).Fits)
    (hhost : modules.lookup (hostName e.config) = some (.host [hostFunc e.config home])) :
    s.instantiate modules e.pageLimit (trampoline e.config min max).meaning =
      .ok (s.instances.size, addEnv s e home min max) := by
  have hbindings : (trampoline e.config min max).meaning.imports.mapM
      (Wasm.resolve s modules e.pageLimit (trampoline e.config min max).meaning) =
      .ok ((forwarded e.config home).map fun h => .func (.host h)) := by
    refine mapM_eq_ok_iff.2 ?_
    by_cases h : merged e.config
    · have hfuncs := trampoline_funcs_merged h min max
      have hlookup : modules.lookup (trampoline e.config min max).host =
          some (.host [hostFunc e.config home]) := by
        rwa [hostName, if_pos h] at hhost
      have hfind : [hostFunc e.config home].find? (·.name = hostFunction) =
          some (hostFunc e.config home) := by
        simp [hostFunc, h]
      have hresolve := Wasm.Trampoline.resolve_import hfits hlookup
        (i := 0) (by rw [hfuncs]; rfl) hfind rfl s e.pageLimit
      have himports : (trampoline e.config min max).meaning.imports =
          [{ module := hostModule, name := hostFunction, desc := .func 0 }] := by
        change Wasm.Trampoline.imports _ = _
        rw [Wasm.Trampoline.imports, hfuncs]
        rfl
      rw [forwarded, if_pos h, himports]
      exact .cons hresolve .nil
    · have himports : (trampoline e.config min max).meaning.imports = [] := by
        change Wasm.Trampoline.imports _ = _
        rw [Wasm.Trampoline.imports, trampoline_funcs_apart h]
        rfl
      rw [forwarded, if_neg h, himports]
      exact .nil
  have hfuncs : (trampoline e.config min max).meaning.funcs.length =
      (trampoline e.config min max).funcs.length := by
    simp [Wasm.Trampoline.meaning]
  have hmemories : (trampoline e.config min max).meaning.memories.map
      (fun l => ({ pages := l.min.toNat, ceiling := l.ceiling e.pageLimit } : Wasm.Memory)) =
      [freshMemory e min max] := by
    simp [Wasm.Trampoline.meaning, trampoline, freshMemory, Wasm.Trampoline.memoryLimits,
      Wasm.Limits.ofPages, Wasm.Limits.ceiling]
  rw [Wasm.Store.instantiate, hbindings, addEnv, envInstance, Wasm.Trampoline.calleesOf, ← hfuncs,
    ← Array.append_singleton]
  change Except.ok _ = _
  rw [hmemories]
  -- None of the bindings is a memory, so that the one defined here is taken.
  by_cases h : merged e.config
  · rw [forwarded, if_pos h]
    rfl
  · rw [forwarded, if_neg h]
    rfl

/-! ## Taking names -/

/-- The engine with one more module to import from. -/
def addModule (name : String) (provider : Wasm.Provider) (e : Engine) : Engine :=
  { e with modules := (name, provider) :: e.modules }

/-- The engine without the modules of the given names. -/
def dropModules (names : List String) (e : Engine) : Engine :=
  { e with modules := e.modules.filter fun m => m.1 ∉ names }

theorem filter_modules {modules : List (String × Wasm.Provider)} {names : List String}
    (h : ∀ n ∈ names, modules.lookup n = none) :
    modules.filter (fun m => m.1 ∉ names) = modules := by
  rw [List.filter_eq_self]
  intro m hm
  have hne : m.1 ∉ names := by
    intro hname
    have hlookup := List.lookup_eq_none_iff.1 (h _ hname) m hm
    simp at hlookup
  simpa using hne

/-- A name that was free before is free again. -/
theorem dropModules_addModule {e : Engine} {name : String} {provider : Wasm.Provider}
    (h : e.modules.lookup name = none) : dropModules [name] (addModule name provider e) = e := by
  have hfilter : e.modules.filter (fun m => m.1 ∉ [name]) = e.modules :=
    filter_modules fun n hn => by rwa [List.mem_singleton.1 hn]
  rw [dropModules, addModule]
  dsimp only
  rw [List.filter_cons_of_neg (by simp), hfilter]

section Creation

variable {k : Nat} {e : Engine} {min max : UInt32} {w : World}

theorem registerHost_run {name : String} (function detail : String)
    (he : w.engines[k]? = some e) (hclosed : e.closed = false)
    (hname : e.modules.lookup name = none) :
    registerHost k name function detail w = (.ok (), { w with
      engines := w.engines.modify k
        (addModule name (.host
          [{ name := function, type := Wasm.signalType, home := w.memories.size }])) }) := by
  rw [registerHost, bind_run, (engine_finds k).run he]
  dsimp only
  rw [if_neg (by simp [hclosed]), if_neg (by simp [hname])]
  rfl

theorem registerHost_refuses {name : String} (function detail : String)
    (he : w.engines[k]? = some e) (h : e.closed = true ∨ e.modules.lookup name ≠ none) :
    ∃ f, registerHost k name function detail w = (.error f, w) := by
  rw [registerHost, bind_run, (engine_finds k).run he]
  dsimp only
  by_cases hclosed : e.closed = true
  · rw [if_pos hclosed]
    exact ⟨_, rfl⟩
  · have hname := Option.isSome_iff_ne_none.2 (h.resolve_left hclosed)
    rw [if_neg hclosed, if_pos hname]
    exact ⟨_, rfl⟩

/-- The engine once the host's function has its module name. -/
def addHost (home : Nat) (e : Engine) : Engine :=
  addModule (hostName e.config) (.host [hostFunc e.config home]) e

theorem registerHost_addHost (detail : String) (he : w.engines[k]? = some e)
    (hclosed : e.closed = false) (hname : e.modules.lookup (hostName e.config) = none) :
    registerHost k (hostName e.config) (hostFunc e.config w.memories.size).name detail w =
      (.ok (), { w with engines := w.engines.modify k (addHost w.memories.size) }) := by
  have hmodify :
      w.engines.modify k
        (addModule (hostName e.config) (.host [hostFunc e.config w.memories.size])) =
      w.engines.modify k (addHost w.memories.size) := by
    refine modify_congr fun a ha => ?_
    cases he.symm.trans ha
    rfl
  rw [registerHost_run _ detail he hclosed hname, ← hmodify]
  rfl

theorem lookup_addHost_ne (home : Nat) (e : Engine) {name : String} (h : name ≠ hostName e.config) :
    (addHost home e).modules.lookup name = e.modules.lookup name := by
  rw [addHost, addModule, List.lookup_cons, beq_false_of_ne h]

theorem lookup_addHost_self (home : Nat) (e : Engine) :
    (addHost home e).modules.lookup (hostName e.config) =
      some (.host [hostFunc e.config home]) := by
  rw [addHost, addModule, List.lookup_cons, beq_self_eq_true]

/-- The engine once its instance `inst` exports a memory. -/
def addEnvModule (inst : Nat) (e : Engine) : Engine :=
  { e with
    modules := (e.config.memory.importName.module, .instance inst) :: e.modules
    instances := .instance inst :: e.instances }

variable [Wasm.Machine]

theorem accept?_ok {bytes : Bytes} {m : Wasm.Module} (h : e.accept? bytes = some m) :
    e.closed = false ∧ Wasm.Machine.compile? e.pageLimit bytes = some m := by
  rw [Engine.accept?] at h
  split at h
  · cases h
  · rename_i hclosed
    exact ⟨Bool.eq_false_iff.2 hclosed, h⟩

/-- The binary that defines a memory is accepted. -/
def Accepts (e : Engine) (min max : UInt32) : Prop :=
  (((trampoline e.config min max).encode).bind e.accept?).isSome

/-- Once the engine is known to be idle, the host's module comes first and then the memory. -/
theorem newMemory_of_idle (he : w.engines[k]? = some e) (hidle : e.memory = none)
    (hbounds : ¬(min = 0 ∨ max < min)) : ∃ detail, newMemory k min max w =
      (do registerHost k (hostName e.config) (hostFunc e.config w.memories.size).name detail
          attachMemory k (hostName e.config) e.config.memory.importName min max : Try Nat) w := by
  rw [newMemory]
  dsimp only
  rw [if_neg hbounds, bind_run, (engine_finds k).run he]
  dsimp only
  rw [if_neg (by simp [hidle])]
  by_cases h : e.config.signal.module = e.config.memory.importName.module
  · have hmerged : merged e.config := h
    rw [if_pos h, hostName, hostFunc, if_pos hmerged, if_pos hmerged]
    exact ⟨_, rfl⟩
  · have hmerged : ¬merged e.config := h
    rw [if_neg h, hostName, hostFunc, if_neg hmerged, if_neg hmerged]
    exact ⟨_, rfl⟩

section Creating

variable [Wasm.Machine.RunsTrampolines]

/-- What is accepted is what the trampoline stands for. -/
theorem Accepts.meaning (h : Accepts e min max) : (trampoline e.config min max).Fits ∧
    (trampoline e.config min max).exportNames.Nodup ∧
    ((trampoline e.config min max).encode).bind e.accept? =
      some (trampoline e.config min max).meaning := by
  obtain ⟨m, hm⟩ := Option.isSome_iff_exists.1 h
  obtain ⟨bytes, hencode, haccept⟩ := Option.bind_eq_some_iff.1 hm
  obtain ⟨hfits, hnames, hmeaning⟩ := Wasm.Machine.RunsTrampolines.accepts
    (trampoline_numeric _ _ _) hencode (accept?_ok haccept).2
  exact ⟨hfits, hnames, hmeaning ▸ hm⟩

theorem registerEnv_run {home : Nat} (he : w.engines[k]? = some e) (haccepts : Accepts e min max)
    (hname : e.modules.lookup e.config.memory.importName.module = none)
    (hhost : e.modules.lookup (hostName e.config) = some (.host [hostFunc e.config home])) :
    registerEnv k min max w = (.ok w.store.instances.size, { w with
      store := addEnv w.store e home min max
      engines := w.engines.modify k (addEnvModule w.store.instances.size) }) := by
  obtain ⟨hfits, -, hmeaning⟩ := haccepts.meaning
  have hmodify : w.engines.modify k (fun e' => { e' with
        modules := (e.config.memory.importName.module, .instance w.store.instances.size) ::
          e'.modules
        instances := .instance w.store.instances.size :: e'.instances }) =
      w.engines.modify k (addEnvModule w.store.instances.size) := by
    refine modify_congr fun a ha => ?_
    cases he.symm.trans ha
    rfl
  rw [registerEnv, bind_run, (engine_finds k).run he]
  dsimp only
  rw [hmeaning]
  dsimp only
  rw [if_neg (by simp [hname]), read_run, instantiate_trampoline w.store hfits hhost, ← hmodify]
  rfl

theorem registerEnv_refuses (he : w.engines[k]? = some e)
    (h : ¬Accepts e min max ∨ e.modules.lookup e.config.memory.importName.module ≠ none) :
    ∃ f, registerEnv k min max w = (.error f, w) := by
  rw [registerEnv, bind_run, (engine_finds k).run he]
  dsimp only
  by_cases haccepts : Accepts e min max
  · have hname := Option.isSome_iff_ne_none.2 (h.resolve_left (not_not_intro haccepts))
    rw [haccepts.meaning.2.2]
    dsimp only
    rw [if_pos hname]
    exact ⟨_, rfl⟩
  · rw [Option.not_isSome_iff_eq_none.1 haccepts]
    exact ⟨_, rfl⟩

/-! ## Creation as a whole -/

/-- The entry of a memory that is defined by instance `env`. -/
def memoryEntry (k : Nat) (c : Config) (min max : UInt32) (env linear : Nat) : SharedMemory where
  engine := k
  linear := linear
  env := env
  names := [hostName c, c.memory.importName.module]
  minPages := min
  maxPages := max

def creationRecord (c : Config) (min max : UInt32) : Log.Record where
  level := .debug
  source := .engine
  message := "shared memory created"
  fields := [("module", .text c.memory.importName.module),
    ("name", .text c.memory.importName.name), ("min_pages", .nat min.toNat),
    ("max_pages", .nat max.toNat)]

/-- The engine once memory `id` is the one in use. -/
def addMemory (id : Nat) (e : Engine) : Engine :=
  { e with memory := some id, instances := .host id :: e.instances }

/-- The world once a memory is attached to engine `k`. -/
def attached (w : World) (k : Nat) (e : Engine) (min max : UInt32) : World :=
  { w with
    store := addEnv w.store e w.memories.size min max
    engines := w.engines.modify k fun e =>
      addMemory w.memories.size (addEnvModule w.store.instances.size e)
    memories := w.memories.push
      (memoryEntry k e.config min max w.store.instances.size w.store.memories.size)
    logs := w.logs.push (creationRecord e.config min max) }

theorem attachMemory_run (he : w.engines[k]? = some e) (haccepts : Accepts e min max)
    (hname : e.modules.lookup e.config.memory.importName.module = none)
    (hhost : e.modules.lookup (hostName e.config) =
      some (.host [hostFunc e.config w.memories.size])) :
    attachMemory k (hostName e.config) e.config.memory.importName min max w =
      (.ok w.memories.size, attached w k e min max) := by
  have hmemory :
      ((addEnv w.store e w.memories.size min max).instances[w.store.instances.size]?).bind
      (·.memory) = some w.store.memories.size := by
    simp [addEnv, envInstance]
  rw [attachMemory, bind_run, tryCatch_run, registerEnv_run he haccepts hname hhost]
  dsimp only
  rw [read_run, hmemory, attached, ← modify_modify k
    (addEnvModule w.store.instances.size) (addMemory w.memories.size)]
  rfl

theorem attachMemory_refuses (host : String) (memoryName : Config.ImportName)
    (he : w.engines[k]? = some e)
    (h : ¬Accepts e min max ∨ e.modules.lookup e.config.memory.importName.module ≠ none) :
    ∃ f, attachMemory k host memoryName min max w =
      (.error f, { w with engines := w.engines.modify k (dropModules [host]) }) := by
  obtain ⟨f, hf⟩ := registerEnv_refuses he h
  refine ⟨f, ?_⟩
  rw [attachMemory, bind_run, tryCatch_run, hf]
  rfl

/-- An engine on which a memory with these bounds can be created now. -/
structure Admits (e : Engine) (min max : UInt32) : Prop where
  idle : e.memory = none
  bounds : ¬(min = 0 ∨ max < min)
  running : e.closed = false
  host : e.modules.lookup (hostName e.config) = none
  env : e.modules.lookup e.config.memory.importName.module = none
  apart : hostName e.config ≠ e.config.memory.importName.module
  accepts : Accepts e min max

/-- The world once engine `k` has a memory. -/
def created (w : World) (k : Nat) (e : Engine) (min max : UInt32) : World :=
  attached { w with engines := w.engines.modify k (addHost w.memories.size) } k
    (addHost w.memories.size e) min max

/-- A memory is created wherever one is admitted. -/
theorem newMemory_run (he : w.engines[k]? = some e) (h : Admits e min max) :
    newMemory k min max w = (.ok w.memories.size, created w k e min max) := by
  obtain ⟨detail, hrun⟩ := newMemory_of_idle he h.idle h.bounds
  have he' :
      (w.engines.modify k (addHost w.memories.size))[k]? = some (addHost w.memories.size e) :=
    getElem?_modify_self he
  have hattach := attachMemory_run
    (w := { w with engines := w.engines.modify k (addHost w.memories.size) }) he'
    h.accepts ((lookup_addHost_ne _ e h.apart.symm).trans h.env) (lookup_addHost_self _ e)
  rw [hrun, bind_run, registerHost_addHost detail he h.running h.host]
  exact hattach

/-- When the memory's own module is refused, the host's module is given up again. -/
theorem newMemory_rolls_back (he : w.engines[k]? = some e) (hidle : e.memory = none)
    (hbounds : ¬(min = 0 ∨ max < min)) (hclosed : e.closed = false)
    (hfree : e.modules.lookup (hostName e.config) = none)
    (h : ¬Accepts e min max ∨
      (addHost w.memories.size e).modules.lookup e.config.memory.importName.module ≠ none) :
    ∃ f, newMemory k min max w = (.error f, w) := by
  obtain ⟨detail, hrun⟩ := newMemory_of_idle he hidle hbounds
  obtain ⟨f, hf⟩ := attachMemory_refuses
    (w := { w with engines := w.engines.modify k (addHost w.memories.size) })
    (e := addHost w.memories.size e) (hostName e.config) e.config.memory.importName
    (getElem?_modify_self he) h
  have hrestore :
      (w.engines.modify k (addHost w.memories.size)).modify k (dropModules [hostName e.config]) =
      w.engines := by
    rw [modify_modify]
    refine Wasm.modify_eq_self fun a ha => ?_
    cases he.symm.trans ha
    exact dropModules_addModule hfree
  refine ⟨f, ?_⟩
  rw [hrun, bind_run, registerHost_addHost detail he hclosed hfree]
  dsimp only
  rw [hf, hrestore]

/-- Where no memory is admitted, creation fails and leaves the world as it was. -/
theorem newMemory_refuses (h : ∀ e, w.engines[k]? = some e → ¬Admits e min max) :
    ∃ f, newMemory k min max w = (.error f, w) := by
  by_cases hbounds : min = 0 ∨ max < min
  · rw [newMemory]
    dsimp only
    rw [if_pos hbounds]
    exact ⟨_, rfl⟩
  cases he : w.engines[k]? with
  | none =>
    rw [newMemory]
    dsimp only
    rw [if_neg hbounds, bind_run, (engine_finds k).miss he]
    exact ⟨_, rfl⟩
  | some e =>
    cases hmemory : e.memory with
    | some id =>
      rw [newMemory]
      dsimp only
      rw [if_neg hbounds, bind_run, (engine_finds k).run he]
      dsimp only
      rw [if_pos (by simp [hmemory])]
      exact ⟨_, rfl⟩
    | none =>
      by_cases hhost : e.closed = true ∨ e.modules.lookup (hostName e.config) ≠ none
      · obtain ⟨detail, hrun⟩ := newMemory_of_idle he hmemory hbounds
        obtain ⟨f, hf⟩ :=
          registerHost_refuses (hostFunc e.config w.memories.size).name detail he hhost
        rw [hrun, bind_run, hf]
        exact ⟨f, rfl⟩
      · obtain ⟨hclosed, hfree⟩ := not_or.1 hhost
        have hclosed : e.closed = false := by simpa using hclosed
        refine newMemory_rolls_back he hmemory hbounds hclosed (not_not.1 hfree) ?_
        -- Of what the engine has to meet, only the last three conditions are left.
        by_contra hlate
        obtain ⟨haccepts, hname⟩ := not_or.1 hlate
        have hname := not_not.1 hname
        have hapart : hostName e.config ≠ e.config.memory.importName.module := by
          intro heq
          rw [← heq, lookup_addHost_self] at hname
          cases hname
        exact h e he ⟨hmemory, hbounds, hclosed, not_not.1 hfree,
          (lookup_addHost_ne _ e hapart.symm).symm.trans hname, hapart, not_not.1 haccepts⟩

end Creating

end Creation

/-! ## Closing -/

section Closing

variable {id : Nat} {m : SharedMemory} {w : World}

/-- The engine once memory `id` is closed. -/
def release (id : Nat) (names : List String) (e : Engine) : Engine :=
  { dropModules names e with memory := if e.memory = some id then none else e.memory }

/-- The world once an open memory is closed. -/
def released (w : World) (id : Nat) (m : SharedMemory) : World :=
  { w with
    memories := w.memories.modify id fun m => { m with isOpen := false }
    store := (w.store.closeInstance m.env .released).closeHost id .released
    engines := w.engines.modify m.engine (release id m.names) }

theorem closeMemory_run (hm : w.memories[id]? = some m) (hopen : m.isOpen = true) :
    closeMemory id w = (.ok (), released w id m) := by
  have hmodify : (w.engines.modify m.engine (dropModules m.names)).modify m.engine
      (fun e => if e.memory = some id then { e with memory := none } else e) =
      w.engines.modify m.engine (release id m.names) := by
    rw [modify_modify]
    refine modify_congr fun e _ => ?_
    by_cases h : e.memory = some id <;> simp [release, dropModules, h]
  rw [closeMemory, bind_run, (memory_finds id).run hm]
  dsimp only
  rw [if_pos hopen, released, ← hmodify]
  rfl

/-- Closing a memory again changes nothing, as long as it is not the one in use. -/
theorem closeMemory_again (hm : w.memories[id]? = some m) (hclosed : m.isOpen = false)
    (hother : ∀ e, w.engines[m.engine]? = some e → e.memory ≠ some id) :
    closeMemory id w = (.ok (), w) := by
  have hmodify : w.engines.modify m.engine
      (fun e => if e.memory = some id then { e with memory := none } else e) = w.engines :=
    Wasm.modify_eq_self fun e he => if_neg (hother e he)
  rw [closeMemory, bind_run, (memory_finds id).run hm]
  dsimp only
  rw [if_neg (by simp [hclosed])]
  change (Except.ok (), { w with engines := w.engines.modify m.engine _ }) = _
  rw [hmodify]

theorem closeMemory_unknown (hm : w.memories[id]? = none) :
    closeMemory id w = (.error unknown, w) := by
  rw [closeMemory, bind_run, (memory_finds id).miss hm]

end Closing

end GuestThreads.World
