import GuestThreads.Proofs.MemoryImport
import GuestThreads.Proofs.Wasm.Accumulator
import GuestThreads.Proofs.World.Duties
import GuestThreads.Proofs.World.Instantiation
import GuestThreads.Proofs.World.Offering
import GuestThreads.Proofs.World.Usability

/-!
# Where the counting guest is loaded

A load makes an engine, compiles the guest and creates its memory. What the threads find there stays
while they run: others may come and go, but the engine, the memory and the instances that exist are
left as they are.
-/

namespace GuestThreads.World

/-! ## What stays -/

/-- What stays of a loaded module while no thread of it fails. -/
structure Charter where
  engine : Nat
  memory : Nat
  bytes : Bytes
  firstError : Option Fault := none
  closed : Bool := false

def charter (m : LoadedModule) : Charter where
  engine := m.engine
  memory := m.memory
  bytes := m.bytes
  firstError := m.firstError
  closed := m.closed

/-- An engine but for what was instantiated in it. -/
def fittings (e : Engine) : Engine := { e with instances := [] }

/-- The size of a linear memory, and how far it may grow. -/
def extent (m : Wasm.Memory) : Nat × Nat := (m.pages, m.ceiling)

/-- What is there stays, in all that threads go by. -/
structure Sustains (w w' : World) : Prop where
  relays : Persists wire w.relays w'.relays
  outfits : Persists outfit w.workers w'.workers
  instances : Persists id w.instances w'.instances
  engines : Persists fittings w.engines w'.engines
  memories : Persists id w.memories w'.memories
  runtimes : Persists Runtime.config w.runtimes w'.runtimes
  modules : Persists charter w.modules w'.modules
  code : Persists Wasm.Instance.fixture w.store.instances w'.store.instances
  extents : Persists extent w.store.memories w'.store.memories

theorem Sustains.refl (w : World) : Sustains w w := by
  constructor <;> exact .refl _ _

theorem Sustains.trans {u v w : World} (h : Sustains u v) (g : Sustains v w) : Sustains u w where
  relays := h.relays.trans g.relays
  outfits := h.outfits.trans g.outfits
  instances := h.instances.trans g.instances
  engines := h.engines.trans g.engines
  memories := h.memories.trans g.memories
  runtimes := h.runtimes.trans g.runtimes
  modules := h.modules.trans g.modules
  code := h.code.trans g.code
  extents := h.extents.trans g.extents

/-! ## Sites -/

/-- Where the guest is loaded, with its settings and with all numbers that threads go by. -/
structure Site where
  config : Config
  bounds : Wasm.Assembly.MemoryImport
  cell : UInt32
  module : Nat
  engine : Nat
  memory : Nat
  /-- The instance that defines the memory. -/
  env : Nat
  /-- The memory's number in the store. -/
  linear : Nat
  /-- The worker of the first thread. -/
  workers : Nat
  /-- The relay of the first thread. -/
  relays : Nat

namespace Site

variable (σ : Site)

def guest : Wasm.Assembly := Wasm.accumulator σ.config σ.bounds σ.cell

def layout : Layout :=
  .ofSizes σ.config.regions.base σ.config.regions.stackSize σ.config.regions.tlsSize

/-- The worker of thread `n`. -/
def worker (n : Nat) : Nat := σ.workers + n

/-- The relay of thread `n`. -/
def relay (n : Nat) : Nat := σ.relays + n

/-- The address of the TLS region of thread `n`. -/
def tls (n : Nat) : Nat := σ.layout.start n + σ.layout.stackSize.toNat

/-- The counter. -/
def counter? (w : World) : Option UInt32 := w.store.word? σ.linear σ.cell.toNat

/-- The engine, which has compiled the guest and offers its memory. -/
def fitted : Engine where
  config := σ.config
  memory := some σ.memory
  cache := [(σ.guest.encode, σ.guest.meaning)]
  modules := offered σ.config σ.memory σ.env

/-- The entry of the memory. -/
def shared : SharedMemory :=
  memoryEntry σ.engine σ.config σ.config.memory.minPages σ.config.memory.maxPages σ.env σ.linear

/-- What guests call to post a signal. -/
def poster : Wasm.Callee := World.poster σ.config σ.memory σ.env

/-- The guest can be encoded and its names differ, its memory import is satisfied, and so is that of
the module which defines the memory. -/
structure Proper : Prop where
  fits : σ.guest.Fits
  exposes : Wasm.Exposes σ.guest.meaning σ.config.exports
  satisfied : σ.bounds.SatisfiedBy σ.config.memory.importName σ.config.memory.minPages
    σ.config.memory.maxPages
  pages : σ.config.memory.minPages ≤ σ.config.memory.maxPages
  small : σ.config.memory.minPages.toNat < Wasm.maxPages
  env : EnvFits σ.config
  names : merged σ.config → σ.config.memory.importName.name ≠ σ.config.signal.name

/-- The site is found in the world. -/
structure Holds (w : World) : Prop where
  module : w.modules[σ.module]?.map charter =
    some { engine := σ.engine, memory := σ.memory, bytes := σ.guest.encode }
  engine : w.engines[σ.engine]?.map fittings = some σ.fitted
  memory : w.memories[σ.memory]? = some σ.shared
  env : w.store.instances[σ.env]?.map Wasm.Instance.fixture =
    some (envInstance σ.config σ.config.memory.minPages σ.config.memory.maxPages σ.memory σ.env
      σ.linear)
  linear : w.store.memories[σ.linear]?.map extent =
    some (σ.config.memory.minPages.toNat,
      Nat.min σ.config.memory.maxPages.toNat σ.fitted.pageLimit)

variable {σ} {w w' : World}

theorem Holds.later (h : σ.Holds w) (hw : Sustains w w') : σ.Holds w' where
  module := hw.modules _ _ h.module
  engine := hw.engines _ _ h.engine
  memory := by simpa using hw.memories σ.memory σ.shared (by simpa using h.memory)
  env := hw.code _ _ h.env
  linear := hw.extents _ _ h.linear

end Site

/-! ## Loading the guest -/

theorem orCloseEngine_ok {α : Type} {e : Nat} {act : Try α} {wrap : Fault → Fault} {a : α}
    {w w' : World} (h : orCloseEngine e act wrap w = (.ok a, w')) : act w = (.ok a, w') := by
  rw [orCloseEngine, tryCatch_run] at h
  rcases hact : act w with ⟨f | b, v⟩ <;> rw [hact] at h
  · obtain ⟨_, u, -, hthrow⟩ := bind_ok h
    cases hthrow
  · exact h

/-- A binary that is compiled for the first time is one that the engine accepts. -/
theorem compile_ok {k : Nat} {e : Engine} {bytes : Bytes} {c : Compiled} {w w' : World}
    (he : w.engines[k]? = some e) (hcache : e.cache = [])
    (h : compile k bytes w = (.ok c, w')) :
    ∃ m record, e.accept? bytes = some m ∧ w' = { w with
      engines := w.engines.modify k fun e => { e with cache := e.cache ++ [(bytes, m)] }
      logs := w.logs.push record } := by
  have hcached : e.cached? bytes = none := by simp [Engine.cached?, hcache]
  rw [compile, bind_run, (engine_finds k).run he] at h
  dsimp only at h
  rw [hcached] at h
  dsimp only at h
  cases haccept : e.accept? bytes with
  | none =>
    rw [haccept] at h
    cases h
  | some m =>
    rw [haccept] at h
    cases h
    exact ⟨m, _, rfl, rfl⟩

/-- A new engine that has compiled a binary. -/
def compiling (c : Config) (bytes : Bytes) (m : Wasm.Module) : Engine :=
  { config := c, cache := [(bytes, m)] }

/-- What a preparation that succeeds comes to. -/
theorem prepare_site {rk : Nat} {r : Runtime} {bytes : Bytes} {m : LoadedModule} {w w' : World}
    (hr : w.runtimes[rk]? = some r) (h : prepare rk bytes w = (.ok m, w')) :
    ∃ (guest : Wasm.Module) (v : World),
      Engine.accept? { config := r.config } bytes = some guest ∧
      Admits (compiling r.config bytes guest) r.config.memory.minPages r.config.memory.maxPages ∧
      v.engines[m.engine]? = some (compiling r.config bytes guest) ∧
      m.memory = v.memories.size ∧
      w' = created v m.engine (compiling r.config bytes guest) r.config.memory.minPages
        r.config.memory.maxPages ∧
      charter m = { engine := m.engine, memory := m.memory, bytes := bytes } := by
  obtain ⟨r', w₁, hr', h₁⟩ := bind_ok h
  obtain ⟨hr', rfl⟩ := (runtime_finds rk).ok hr'
  cases hr.symm.trans hr'
  obtain ⟨e, w₂, hengine, h₂⟩ := bind_ok h₁
  obtain ⟨compiled, w₃, hcompile, h₃⟩ := bind_ok h₂
  obtain ⟨memory, w₄, hmemory, h₄⟩ := bind_ok h₃
  obtain ⟨f, hf⟩ | ⟨record, hnew⟩ := newEngine_cases (some r.config) w₁
  · cases hf.symm.trans hengine
  cases hnew.symm.trans hengine
  have he : (w₁.engines.push { config := r.config })[w₁.engines.size]? =
      some { config := r.config } := Array.getElem?_push_size
  obtain ⟨guest, record', haccept, rfl⟩ := compile_ok he rfl (orCloseEngine_ok hcompile)
  have he' : (Array.modify _ _ _)[w₁.engines.size]? = some (compiling r.config bytes guest) :=
    getElem?_modify_self (f := fun e => { e with cache := e.cache ++ [(bytes, guest)] }) he
  have hmemory' := orCloseEngine_ok hmemory
  have hadmits := (newMemory_succeeds_iff he').1 ⟨_, _, hmemory'⟩
  cases (newMemory_run he' hadmits).symm.trans hmemory'
  change (if _ then _ else pure {
    runtime := rk, engine := w₁.engines.size, memory := _, bytes := bytes, layout := _ } :
      Try LoadedModule) _ = _ at h₄
  split at h₄
  · obtain ⟨_, v, -, hthrow⟩ := bind_ok h₄
    cases hthrow
  · cases h₄
    exact ⟨guest, _, haccept, hadmits, he', rfl, rfl, rfl⟩

/-- A size that leaves room for a region is not cut off. -/
theorem small_of_capacity {l : Layout} (hl : l.Made) {memory : Wasm.Memory}
    (hpages : memory.pages ≤ Wasm.maxPages) (h : 0 < l.capacity memory.size32) :
    memory.pages < Wasm.maxPages := by
  have hspan := hl.span_pos
  have hroom := (hl.lt_capacity_iff (i := 0)).1 h
  rw [Layout.start_succ] at hroom
  have hsize : memory.size32.toNat ≠ 0 := by omega
  simp only [Wasm.Memory.size32, Wasm.Memory.size, Wasm.pageSize, Nat.toUInt32,
    UInt32.toNat_ofNat'] at hsize
  unfold Wasm.maxPages at *
  omega

theorem created_memorySize (w : World) (k : Nat) (e : Engine) (min max : UInt32) :
    (created w k e min max).memorySize w.memories.size = (freshMemory e min max).size32 := by
  have hlinear : (created w k e min max).linear? w.memories.size =
      (w.store.memories.push (freshMemory e min max))[w.store.memories.size]? := by
    rw [linear?, created_memory, Array.getElem?_push_size]
    rfl
  rw [memorySize, hlinear, Array.getElem?_push_size]
  rfl

/-- Once the guest is loaded, its site is there, with a memory that holds zeros. -/
theorem site_of_load {rk k : Nat} {r : Runtime} {bounds : Wasm.Assembly.MemoryImport}
    {cell : UInt32} {w w' : World} (hr : w.runtimes[rk]? = some r)
    (hvalid : r.config.validate = .ok ())
    (hsatisfied : bounds.SatisfiedBy r.config.memory.importName r.config.memory.minPages
      r.config.memory.maxPages)
    (hfits : (Wasm.accumulator r.config bounds cell).Fits)
    (h : load rk (Wasm.accumulator r.config bounds cell).encode w = (.ok k, w')) :
    ∃ σ : Site, σ.config = r.config ∧ σ.cell = cell ∧ σ.module = k ∧
      σ.workers = w'.workers.size ∧ σ.relays = w'.relays.size ∧ σ.Proper ∧ σ.Holds w' ∧
      w'.runtimes[rk]?.map Runtime.config = some σ.config ∧ w'.store.memories[σ.linear]? =
        some (freshMemory σ.fitted σ.config.memory.minPages σ.config.memory.maxPages) := by
  have hbounded := bounded_of_valid hvalid
  obtain ⟨-, -, -, hcapacity⟩ := load_ok hr h
  obtain ⟨m, v', logs, hprepare, rfl, rfl⟩ := load_prepared h
  obtain ⟨-, -, hruntimes, -⟩ := prepare_ok hprepare
  obtain ⟨guest, v, haccept, hadmits, he, hmemory, rfl, hcharter⟩ := prepare_site hr hprepare
  obtain ⟨hdecode, hguest⟩ := Wasm.compile?_eq_some_iff.1 (accept?_ok haccept).2
  cases (Wasm.Assembly.decode?_encode Wasm.accumulator_numeric hfits).symm.trans hdecode
  let σ : Site := { config := r.config, bounds := bounds, cell := cell, module := v.modules.size,
                    engine := m.engine, memory := v.memories.size, env := v.store.instances.size,
                    linear := v.store.memories.size, workers := v.workers.size,
                    relays := v.relays.size }
  refine ⟨σ, rfl, rfl, rfl, rfl, rfl, ?_, ?_, ?_, Array.getElem?_push_size⟩
  · have hmade := (Layout.ofSizes_rounds r.config.regions.base r.config.regions.stackSize
      r.config.regions.tlsSize).made (stackSize_ne_zero hvalid)
    have hpages := (UInt32.le_iff_toNat_le.1 hbounded.min_le).trans
      (UInt32.le_iff_toNat_le.1 hbounded.max_le)
    rw [moduleSize_eq Array.getElem?_push_size, hmemory] at hcapacity
    change 0 < Layout.capacity _
      ((created v m.engine _ _ _).memorySize v.memories.size) at hcapacity
    rw [created_memorySize] at hcapacity
    exact {
      fits := hfits
      exposes := Wasm.accumulator_exposes hguest
      satisfied := hsatisfied
      pages := hbounded.min_le
      small := small_of_capacity hmade hpages hcapacity
      env := hadmits.accepts.meaning.1
      names := hadmits.accepts.names_ne }
  · have hengine : (created v m.engine _ r.config.memory.minPages
        r.config.memory.maxPages).engines[m.engine]? = some _ := created_engine he
    exact {
      module := by
        refine (congrArg (Option.map charter) Array.getElem?_push_size).trans ?_
        rw [Option.map_some, hcharter, hmemory]
        rfl
      engine := congrArg (Option.map fittings) hengine
      memory := Array.getElem?_push_size
      env := congrArg (Option.map Wasm.Instance.fixture) Array.getElem?_push_size
      linear := congrArg (Option.map extent) Array.getElem?_push_size }
  · have hconfig := congrArg (Option.map Runtime.config) (congrArg (·[rk]?) hruntimes)
    refine Persists.modify (f := Runtime.config) ?_ rk r.config (hconfig.trans ?_)
    · exact fun _ => rfl
    · rw [hr]
      rfl

end GuestThreads.World
