import GuestThreads.Proofs.World.Counting.Load

/-!
# Threads of the counting guest

What a thread does on its site comes down to: it is vetted, it is given an instance of its own, and
its calls enter the guest's two functions. None of this can fail.
-/

namespace GuestThreads.World

namespace Site

variable {σ : Site} {w : World}

theorem Holds.loaded (h : σ.Holds w) : ∃ m, w.modules[σ.module]? = some m ∧
    m.engine = σ.engine ∧ m.memory = σ.memory ∧ m.bytes = σ.guest.encode ∧
    m.firstError = none ∧ m.closed = false := by
  obtain ⟨m, hm, hcharter⟩ := Option.map_eq_some_iff.1 h.module
  obtain ⟨hengine, hmemory, hbytes, herror, hclosed⟩ := Charter.mk.inj hcharter
  exact ⟨m, hm, hengine, hmemory, hbytes, herror, hclosed⟩

theorem Holds.found (h : σ.Holds w) : ∃ e, w.engines[σ.engine]? = some e ∧
    e.config = σ.config ∧ e.cache = σ.fitted.cache ∧ e.modules = σ.fitted.modules := by
  obtain ⟨e, he, hfittings⟩ := Option.map_eq_some_iff.1 h.engine
  obtain ⟨hconfig, -, hcache, hmodules, -⟩ := Engine.mk.inj hfittings
  exact ⟨e, he, hconfig, hcache, hmodules⟩

/-- The memory as it is now. -/
theorem Holds.memory_now (h : σ.Holds w) : ∃ memory, w.store.memories[σ.linear]? = some memory ∧
    memory.pages = σ.config.memory.minPages.toNat ∧
    memory.ceiling = Nat.min σ.config.memory.maxPages.toNat σ.fitted.pageLimit := by
  obtain ⟨memory, hmemory, hextent⟩ := Option.map_eq_some_iff.1 h.linear
  obtain ⟨hpages, hceiling⟩ := Prod.mk.inj hextent
  exact ⟨memory, hmemory, hpages, hceiling⟩

theorem Holds.linear_now (h : σ.Holds w) :
    w.linear? σ.memory = w.store.memories[σ.linear]? := by
  rw [linear?, h.memory]
  rfl

/-- The size is not cut off. -/
theorem Holds.memoryPages (h : σ.Holds w) (hσ : σ.Proper) :
    w.memoryPages σ.memory = σ.config.memory.minPages := by
  obtain ⟨memory, hmemory, hpages, -⟩ := h.memory_now
  have hsmall := hσ.small
  have hsize : w.memorySize σ.memory = memory.size32 := by
    rw [memorySize, h.linear_now, hmemory]
    rfl
  apply UInt32.toNat_inj.1
  rw [World.memoryPages, hsize]
  simp only [Wasm.Memory.size32, Wasm.Memory.size, Wasm.pageSize, hpages, Nat.toUInt32,
    UInt32.toNat_div, UInt32.toNat_ofNat', UInt32.toNat_ofNat, Nat.reducePow, Nat.reduceMod]
  unfold Wasm.maxPages at hsmall
  omega

theorem Holds.vet (h : σ.Holds w) (hσ : σ.Proper) :
    vet σ.engine σ.guest.encode (some σ.memory) w = (.ok (σ.memory, σ.guest.meaning), w) := by
  obtain ⟨e, he, hconfig, hcache, -⟩ := h.found
  have hcheck : checkMemoryImport e.config.memory.importName (w.memoryPages σ.memory)
      σ.shared.maxPages σ.guest.encode = .ok () := by
    rw [hconfig, h.memoryPages hσ]
    exact (checkMemoryImport_ok_iff hσ.fits hσ.pages).2 ⟨_, rfl, hσ.satisfied⟩
  have hcached : e.cached? σ.guest.encode = some { place := 0, module := σ.guest.meaning } := by
    simp [Engine.cached?, hcache, fitted]
  have hcompile : compile σ.engine σ.guest.encode w =
      (.ok { place := 0, module := σ.guest.meaning }, w) := by
    rw [compile, bind_run, (engine_finds _).run he]
    dsimp only
    rw [hcached]
    rfl
  rw [World.vet, bind_run, (engine_finds _).run he]
  dsimp only
  rw [bind_run, (memory_finds _).run h.memory]
  dsimp only
  rw [if_neg (by simp [shared, memoryEntry]), if_neg (by simp [shared, memoryEntry]), read_run,
    hcheck]
  dsimp only
  rw [bind_run, hcompile]
  rfl

/-! ## An instance for a thread -/

theorem Holds.supplies (h : σ.Holds w) (hσ : σ.Proper) :
    Supplies σ.config σ.config.memory.minPages σ.config.memory.maxPages σ.memory σ.env σ.linear
      w.store := by
  obtain ⟨x, hx, hmodule, hcallees, hmemory, -⟩ := Wasm.instance_of_fixture h.env
  refine ⟨hσ.env, hσ.names, ?_, ?_⟩
  · rw [Wasm.Trampoline.Stands, Wasm.Store.code?, hx, Option.map_some, hmodule, hcallees]
    rfl
  · rw [Wasm.Store.linearOf?, hx]
    exact hmemory

theorem Holds.resolve_signal (h : σ.Holds w) (hσ : σ.Proper) (pageLimit : Nat) :
    Wasm.resolve w.store (offered σ.config σ.memory σ.env) pageLimit σ.guest.meaning
      { module := σ.config.signal.module, name := σ.config.signal.name, desc := .func 0 } =
      .ok (.func σ.poster) := by
  rw [(h.supplies hσ).resolve_signal pageLimit rfl rfl rfl]
  rfl

theorem Holds.resolve_memory (h : σ.Holds w) (hσ : σ.Proper) :
    Wasm.resolve w.store (offered σ.config σ.memory σ.env) σ.fitted.pageLimit σ.guest.meaning
      σ.bounds.entry = .ok (.memory σ.linear) := by
  obtain ⟨memory, hmemory, hpages, hceiling⟩ := h.memory_now
  have hmin : ¬memory.pages < σ.bounds.min.toUInt64.toNat := by
    rw [hpages, UInt32.toNat_toUInt64]
    exact Nat.not_lt.2 (UInt32.le_iff_toNat_le.1 hσ.satisfied.min)
  have hmax : ¬Nat.min σ.bounds.max.toUInt64.toNat σ.fitted.pageLimit < memory.ceiling := by
    have hle := UInt32.le_iff_toNat_le.1 hσ.satisfied.max
    rw [hceiling, UInt32.toNat_toUInt64]
    simp only [Nat.min_def]
    grind
  rw [(h.supplies hσ).resolve_memory _ hσ.satisfied.module hσ.satisfied.name rfl,
    Wasm.bindMemory, hmemory]
  exact (if_neg hmin).trans (if_neg hmax)

/-- The imports of the guest are found. -/
theorem Holds.instantiate (h : σ.Holds w) (hσ : σ.Proper) {e : Engine}
    (hconfig : e.config = σ.config) (hmodules : e.modules = σ.fitted.modules) :
    ∃ x : Wasm.Instance,
      x.fixture = Wasm.seated σ.guest.meaning σ.poster w.store.instances.size σ.linear ∧
      w.store.instantiate e.modules e.pageLimit σ.guest.meaning =
        .ok (w.store.instances.size, { w.store with instances := w.store.instances.push x }) := by
  have hlimit : e.pageLimit = σ.fitted.pageLimit := by
    rw [Engine.pageLimit, hconfig]
    rfl
  have hbindings : σ.guest.meaning.imports.mapM
      (Wasm.resolve w.store (offered σ.config σ.memory σ.env) σ.fitted.pageLimit σ.guest.meaning) =
        .ok [.func σ.poster, .memory σ.linear] := by
    have himports : σ.guest.meaning.imports = [{
        module := σ.config.signal.module, name := σ.config.signal.name, desc := .func 0 },
        σ.bounds.entry] := rfl
    rw [himports, List.mapM_cons, h.resolve_signal hσ, List.mapM_cons, h.resolve_memory hσ]
    rfl
  refine ⟨_, Wasm.linked_accumulator e.pageLimit, ?_⟩
  rw [hmodules, hlimit]
  refine (Wasm.instantiate_of_bindings hbindings).trans ?_
  rfl

/-- The world once the guest has an instance `x` in the store. -/
def boarded (σ : Site) (w : World) (x : Wasm.Instance) : World :=
  installed w σ.engine w.store.instances.size
    { w.store with instances := w.store.instances.push x }

theorem Holds.install (h : σ.Holds w) (hσ : σ.Proper) : ∃ e x,
    x.fixture = Wasm.seated σ.guest.meaning σ.poster w.store.instances.size σ.linear ∧
    install σ.engine σ.guest.meaning w = (.ok (e, w.store.instances.size), σ.boarded w x) := by
  obtain ⟨e, he, hconfig, -, hmodules⟩ := h.found
  obtain ⟨x, hx, hinstantiate⟩ := h.instantiate hσ hconfig hmodules
  exact ⟨e, x, hx, install_run he hinstantiate⟩

end Site

/-- An instance of the guest in place `inst` of the store, which posts through a relay. -/
def Site.passenger (σ : Site) (relay inst : Nat) : LiveInstance where
  inst := inst
  engine := σ.engine
  memory := σ.memory
  sink := some (.relay relay)

/-- Instance `n` is one of the guest. -/
structure Aboard (σ : Site) (relay n inst : Nat) (w : World) : Prop where
  enlisted : w.instances[n]? = some (σ.passenger relay inst)
  seated : w.store.instances[inst]?.map Wasm.Instance.fixture =
    some (Wasm.seated σ.guest.meaning σ.poster inst σ.linear)

namespace Aboard

variable {σ : Site} {relay n inst : Nat} {w w' : World}

theorem later (h : Aboard σ relay n inst w) (hw : Sustains w w') : Aboard σ relay n inst w' where
  enlisted := by simpa using hw.instances n _ (by simpa using h.enlisted)
  seated := hw.code _ _ h.seated

theorem found (h : Aboard σ relay n inst w) : ∃ x, w.store.instances[inst]? = some x ∧
    x.module = σ.guest.meaning ∧ x.callees = #[σ.poster, .code inst 1, .code inst 2] ∧
    x.memory = some σ.linear ∧ x.closing = none :=
  Wasm.instance_of_fixture h.seated

theorem linear (h : Aboard σ relay n inst w) : w.store.linearOf? inst = some σ.linear := by
  obtain ⟨x, hx, -, -, hmemory, -⟩ := h.found
  rw [Wasm.Store.linearOf?, hx]
  exact hmemory

theorem export? (h : Aboard σ relay n inst w) {e : Wasm.Export}
    (he : σ.guest.meaning.export? e.name = some e) : ∃ x, w.store.instances[inst]? = some x ∧
      x.module = σ.guest.meaning ∧
      w.export? (σ.passenger relay inst) e.kind e.name = some (x, e) := by
  obtain ⟨x, hx, hmodule, -⟩ := h.found
  refine ⟨x, hx, hmodule, ?_⟩
  simp [World.export?, Site.passenger, hx, hmodule, he]

/-- The stack pointer is written. -/
theorem setGlobal (h : Aboard σ relay n inst w) (hσ : σ.Proper) (v : UInt32) :
    Guest.setGlobal (.live n) σ.config.exports.stackPointer v w =
      (.ok (), { w with store := w.store.setGlobal inst 0 v.toUInt64 }) := by
  obtain ⟨x, -, hmodule, hexport⟩ :=
    h.export? (e := ⟨_, .global, 0⟩) hσ.exposes.stackPointer
  change setInstanceGlobal n _ v w = _
  rw [setInstanceGlobal, bind_run, (liveInstance_finds n).run h.enlisted]
  dsimp only
  rw [if_neg (by simp [Site.passenger]), read_run, hexport]
  dsimp only
  rw [hmodule]
  rfl

theorem params? (h : Aboard σ relay n inst w) {e : Wasm.Export} (hkind : e.kind = .func)
    (he : σ.guest.meaning.export? e.name = some e)
    (htype : σ.guest.meaning.funcType? e.index = some Wasm.pointerType) :
    Guest.params? (.live n) e.name w = some [.i32] := by
  obtain ⟨x, -, hmodule, hexport⟩ := h.export? he
  rw [hkind] at hexport
  simp [Guest.params?, functionType?, h.enlisted, hexport, hmodule, htype, Wasm.pointerType]

theorem findFunction (h : Aboard σ relay n inst w) (hw : σ.Holds w) {e : Wasm.Export}
    (hkind : e.kind = .func) (he : σ.guest.meaning.export? e.name = some e) :
    ∃ engine, findFunction n e.name w =
      (.ok (σ.passenger relay inst, engine, e.index), w) := by
  obtain ⟨x, -, hmodule, hexport⟩ := h.export? he
  rw [hkind] at hexport
  obtain ⟨engine, hengine, -⟩ := hw.found
  refine ⟨engine, ?_⟩
  rw [World.findFunction, bind_run, (liveInstance_finds n).run h.enlisted]
  dsimp only
  rw [read_run, hexport]
  dsimp only [Site.passenger]
  rw [bind_run, (engine_finds _).run hengine]
  rfl

/-- A call of a function of the guest's own is entered. -/
theorem enterCall (h : Aboard σ relay n inst w) {index : Nat} {code : List Wasm.Instr}
    (hcallee : #[σ.poster, .code inst 1, .code inst 2][index]? = some (.code inst index))
    (hfunc : σ.guest.meaning.funcs[index - 1]? = some { typeIndex := index, code := code })
    (htype : σ.guest.meaning.funcType? index = some Wasm.pointerType)
    (htypes : σ.guest.types[index]? = some Wasm.pointerType) (e : Engine) (arg : UInt32) :
    enterCall e false inst index [arg.toUInt64] w =
      (.ok (.instance inst, .code (Wasm.pointerCall inst index arg code [])), w) := by
  obtain ⟨x, hx, hmodule, hcallees, -⟩ := h.found
  have henter := Wasm.enter?_pointerCall h.seated hfunc htypes htype arg
  rw [World.enterCall, read_run, hx]
  simp only [hcallees, hcallee, hmodule, htype]
  exact enterCallee_code henter

theorem unlessClosed (h : Aboard σ relay n inst w) (results : List UInt64) :
    unlessClosed (.instance inst) results w = (.ok results, w) := by
  obtain ⟨x, hx, -, -, -, hclosing⟩ := h.found
  have hopen : w.store.closing? (.instance inst) = none := by
    simp [Wasm.Store.closing?, hx, hclosing]
  rw [World.unlessClosed, read_run, hopen]
  rfl

end Aboard

end GuestThreads.World
