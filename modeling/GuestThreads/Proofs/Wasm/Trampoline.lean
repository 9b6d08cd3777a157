import GuestThreads.Proofs.Action
import GuestThreads.Proofs.Wasm.Decoding
import GuestThreads.Proofs.Wasm.Interpreter
import GuestThreads.Wasm.Linking
import GuestThreads.Wasm.Trampoline
import Mathlib.Data.List.Nodup

/-!
# Trampolines are transparent

The binary of a trampoline module decodes to a valid module, whose imports, memory and exports are
the ones asked for. A call of an export is a question to the host: it is asked once, with the same
arguments, and what it answers is handed to the caller as it is.
-/

namespace GuestThreads.Wasm

namespace Trampoline

/-! ## Decoding -/

/-- The numbers of the first `n` locals. -/
def firstLocals (n : Nat) : List UInt32 := (List.range n).map Nat.toUInt32

/-- The code that passes all parameters on to import `i`. -/
def forwarder (i : Nat) (f : Func) : List Instr :=
  (firstLocals f.type.params.length).map .localGet ++ [.call i.toUInt32]

/-- The exports: the memory, then the local functions. -/
def exported (t : Trampoline) : List Export :=
  (t.memory.toList.map fun m => { name := m.name, kind := .memory, index := 0 }) ++
    t.funcs.mapIdx fun i f => { name := f.exportName, kind := .func, index := t.funcs.length + i }

/-- The module that a trampoline stands for. -/
def meaning (t : Trampoline) : Module where
  types := t.funcs.map (·.type)
  imports := t.imports
  funcs := t.funcs.mapIdx fun i f => { typeIndex := i, code := forwarder i f }
  memories := t.memory.toList.map memoryLimits
  exports := t.exported

/-- The sections are shorter than 4 GiB each, and so is all that is in them. -/
structure Fits (t : Trampoline) : Prop where
  types : t.types.length < UInt32.size
  imports : (vector Import.encode t.imports).length < UInt32.size
  functions : t.functions.length < UInt32.size
  memory : (vector (fun m => (memoryLimits m).encode) t.memory.toList).length < UInt32.size
  exports : (vector id t.exports).length < UInt32.size
  bodies : (vector (fun b : Bytes => Leb128.unsigned b.length ++ b) t.bodies).length < UInt32.size

/-- A function type takes up three bytes at least, so that indices of functions have room. -/
theorem Fits.funcs_lt {t : Trampoline} (h : t.Fits) : 3 * t.funcs.length < UInt32.size := by
  refine Nat.lt_of_le_of_lt (mul_length_le_vector fun f _ => ?_) h.types
  have hparams := List.length_pos_iff.2 (unsigned_ne_nil f.type.params.length)
  have hresults := List.length_pos_iff.2 (unsigned_ne_nil f.type.results.length)
  simp only [FuncType.encode, vector, List.length_cons, List.length_append]
  omega

theorem Fits.params_lt {t : Trampoline} (h : t.Fits) {f : Func} (hf : f ∈ t.funcs) :
    f.type.params.length < UInt32.size := by
  have hparams : f.type.params.length ≤ (vector (fun v => [v.code]) f.type.params).length :=
    length_le_vector fun v _ => List.cons_ne_nil _ _
  have htype : f.type.encode.length ≤ t.types.length :=
    length_item_le_vector (fun f : Func => f.type.encode) hf
  have htypes := h.types
  simp only [FuncType.encode, List.length_cons, List.length_append] at htype
  omega

theorem ofUInt32_toUInt32 {n : Nat} (h : n < UInt32.size) :
    Leb128.ofUInt32 n.toUInt32 = Leb128.unsigned n := by
  rw [Leb128.ofUInt32, show n.toUInt32.toNat = n from UInt32.toNat_ofNat_of_lt h]

theorem body_eq {i : Nat} {f : Func} (hi : i < UInt32.size)
    (hf : f.type.params.length < UInt32.size) :
    body i f = 0x00 :: ((forwarder i f).flatMap Instr.encode ++ [0x0b]) := by
  have hgets : (List.range f.type.params.length).flatMap (fun p => 0x20 :: Leb128.unsigned p) =
      ((firstLocals f.type.params.length).map Instr.localGet).flatMap Instr.encode := by
    rw [firstLocals, List.map_map, List.flatMap_map]
    refine List.flatMap_congr fun p hp => ?_
    rw [Function.comp_apply, Instr.encode, ofUInt32_toUInt32 (by simp at hp; omega)]
  simp [body, forwarder, hgets, Instr.encode, ofUInt32_toUInt32 hi]

theorem map_mapIdx {α β γ : Type} (f : Nat → α → β) (g : β → γ) (items : List α) :
    (items.mapIdx f).map g = items.mapIdx fun i a => g (f i a) := by
  apply List.ext_getElem <;> simp

theorem vector_map {α β : Type} (item : β → Bytes) (g : α → β) (items : List α) :
    vector item (items.map g) = vector (fun a => item (g a)) items := by
  rw [vector, List.length_map, List.flatMap_map, vector]

/-- A section that is left out where there is nothing to say. -/
theorem optionalSection_adds {α : Type} {s : Sections} {wanted : Bool} {body : Bytes}
    {d : Decoder α} {x : α} (id : UInt8) (f : α → Sections)
    (hadd : ∀ content, s.add id content = (d.whole content).bind fun y => some (f y))
    (hwhole : d.whole body = some x) (hleft : wanted = false → f x = s)
    (hsize : body.length < UInt32.size) :
    s.Adds (optionalSection wanted id body) (f x) := by
  cases wanted with
  | false =>
    rw [hleft rfl]
    exact .nil s
  | true => exact Sections.adds_whole f hadd hwhole hsize

/-- Function types are numeric. -/
def Numeric (t : Trampoline) : Prop := ∀ f ∈ t.funcs, f.type.Numeric

instance : DecidablePred Numeric := fun t =>
  inferInstanceAs (Decidable (∀ f ∈ t.funcs, f.type.Numeric))

section Sections

variable {t : Trampoline} {s : Sections}

theorem types_adds (hnumeric : t.Numeric) (hfits : t.Fits) (hs : s.module.types = []) :
    s.Adds (optionalSection (!t.funcs.isEmpty) 1 t.types)
      { s with module := { s.module with types := t.funcs.map Func.type } } := by
  have hwhole := vector_whole (g := Func.type) hfits.types (fun f _ => List.cons_ne_nil _ _)
    fun f hf hsize => Decoder.funcType_decodes (hnumeric f hf) hsize
  refine optionalSection_adds 1 (fun types => { s with module := { s.module with types := types } })
    (fun _ => rfl) hwhole (fun h => ?_) hfits.types
  rw [show t.funcs = [] by simpa using h, List.map_nil, ← hs]

theorem imports_adds (hfits : t.Fits) (hs : s.module.imports = []) :
    s.Adds (optionalSection (!t.funcs.isEmpty) 2 (vector Import.encode t.imports))
      { s with module := { s.module with imports := t.imports } } := by
  have hplain : ∀ i ∈ t.imports, Decoder.Plain i.desc := by
    intro i hi
    obtain ⟨n, hn, rfl⟩ := List.mem_mapIdx.1 hi
    exact .func _
  have hwhole := vector_whole (g := id) hfits.imports (fun i _ => by simp [Import.encode])
    fun i hi hsize => Decoder.importEntry_decodes (hplain i hi) hsize
  rw [List.map_id] at hwhole
  refine optionalSection_adds 2
    (fun imports => { s with module := { s.module with imports := imports } })
    (fun _ => rfl) hwhole (fun h => ?_) hfits.imports
  rw [show t.imports = [] by simpa [imports] using h, ← hs]

theorem functions_adds (hfits : t.Fits) (hs : s.typeIndices = []) :
    s.Adds (optionalSection (!t.funcs.isEmpty) 3 t.functions)
      { s with typeIndices := List.range t.funcs.length } := by
  have hcount := hfits.funcs_lt
  have hwhole := vector_whole (g := id) hfits.functions (fun n _ => unsigned_ne_nil n)
    fun n hn _ => Decoder.index_decodes (by rw [List.mem_range] at hn; omega)
  rw [List.map_id] at hwhole
  refine optionalSection_adds 3 (fun indices => { s with typeIndices := indices })
    (fun _ => rfl) hwhole (fun h => ?_) hfits.functions
  rw [show t.funcs = [] by simpa using h, List.length_nil, List.range_zero, ← hs]

theorem memory_adds (hfits : t.Fits) (hs : s.module.memories = []) :
    s.Adds (optionalSection t.memory.isSome 5
        (vector (fun m => (memoryLimits m).encode) t.memory.toList))
      { s with module := { s.module with memories := t.memory.toList.map memoryLimits } } := by
  have hwhole := vector_whole (g := memoryLimits) hfits.memory
    (fun m _ => List.cons_ne_nil _ _) fun m _ _ => Decoder.limits_decodes m.min m.max true
  refine optionalSection_adds 5
    (fun memories => { s with module := { s.module with memories := memories } })
    (fun _ => rfl) hwhole (fun h => ?_) hfits.memory
  rw [show t.memory = none by simpa using h, Option.toList_none, List.map_nil, ← hs]

/-- The byte that tells the kinds of export apart. -/
def kindCode : ExportKind → UInt8
  | .func => 0
  | .table => 1
  | .memory => 2
  | .global => 3

theorem exports_eq (t : Trampoline) :
    t.exports = t.exported.map fun e => encodeExport e.name (kindCode e.kind) e.index := by
  simp only [exports, exported, List.map_append, List.map_map, map_mapIdx]
  rfl

theorem exports_adds (hfits : t.Fits) :
    s.Adds (encodeSection 7 (vector id t.exports))
      { s with module := { s.module with exports := t.exported } } := by
  have hkind (kind : ExportKind) : Decodes Decoder.exportKind [kindCode kind] kind := by
    cases kind <;> exact (Decoder.byte_decodes _).andThen (.value _)
  have hindex : ∀ e ∈ t.exported, e.index < UInt32.size := by
    intro e he
    rcases List.mem_append.1 he with he | he
    · obtain ⟨m, -, rfl⟩ := List.mem_map.1 he
      exact Nat.zero_lt_succ _
    · obtain ⟨i, hi, rfl⟩ := List.mem_mapIdx.1 he
      have hcount := hfits.funcs_lt
      dsimp only
      omega
  have hsize := hfits.exports
  rw [exports_eq, vector_map] at hsize ⊢
  have hwhole := vector_whole (g := id) hsize (fun e _ => by simp [encodeExport])
    fun e he hsize => Decoder.exportEntry_decodes (hkind e.kind) (hindex e he)
      (by simp [encodeExport] at hsize; omega)
  rw [List.map_id] at hwhole
  exact Sections.adds_whole
    (fun exports => { s with module := { s.module with exports := exports } })
    (fun _ => rfl) hwhole hsize

theorem bodies_eq (hfits : t.Fits) :
    t.bodies = (t.funcs.mapIdx forwarder).map fun code =>
      0x00 :: (code.flatMap Instr.encode ++ [0x0b]) := by
  rw [bodies, map_mapIdx]
  apply List.ext_getElem (by simp)
  intro i hi hi'
  have hlt : i < t.funcs.length := by simpa using hi
  have hcount := hfits.funcs_lt
  simp only [List.getElem_mapIdx]
  exact body_eq (by omega) (hfits.params_lt (List.getElem_mem hlt))

theorem bodies_adds (hfits : t.Fits) (hs : s.bodies = []) :
    s.Adds (optionalSection (!t.funcs.isEmpty) 10
        (vector (fun b : Bytes => Leb128.unsigned b.length ++ b) t.bodies))
      { s with bodies := (t.funcs.mapIdx forwarder).map fun code => ([], code) } := by
  have hsize := hfits.bodies
  rw [bodies_eq hfits, vector_map] at hsize ⊢
  have hwhole := vector_whole hsize (fun code _ => by simp)
    fun code _ hsize => Decoder.body_decodes rfl (by simp at hsize ⊢; omega)
  refine optionalSection_adds 10 (fun bodies => { s with bodies := bodies })
    (fun _ => rfl) hwhole (fun h => ?_) hsize
  rw [show t.funcs = [] by simpa using h, List.mapIdx_nil, List.map_nil, ← hs]

end Sections

theorem zipWith_bodies (t : Trampoline) :
    List.zipWith (fun i (b : List ValType × List Instr) =>
        ({ typeIndex := i, locals := b.1, code := b.2 } : Wasm.Func))
      (List.range t.funcs.length) ((t.funcs.mapIdx forwarder).map fun code => ([], code)) =
      t.meaning.funcs := by
  apply List.ext_getElem
  · simp [meaning]
  · intro i hi hi'
    simp [meaning]

theorem optionalSection_laidOut {wanted : Bool} {body : Bytes} (id : UInt8)
    (hsize : body.length < UInt32.size) : LaidOutAmong [id] (optionalSection wanted id body) := by
  cases wanted with
  | false => exact laidOutAmong_nil _
  | true => exact laidOutAmong_section id hsize

theorem inOrder_of_encode {t : Trampoline} (hfits : t.Fits) {bytes : Bytes}
    (h : t.encode = some bytes) : Module.InOrder bytes := by
  rw [encode] at h
  split at h
  · cases h
  · cases h
    simp only [List.append_assoc]
    refine LaidOutAmong.inOrder ((optionalSection_laidOut 1 hfits.types).append <|
      (optionalSection_laidOut 2 hfits.imports).append <|
      (optionalSection_laidOut 3 hfits.functions).append <|
      (optionalSection_laidOut 5 hfits.memory).append <|
      (laidOutAmong_section 7 hfits.exports).append <|
      optionalSection_laidOut 10 hfits.bodies) (by decide)

theorem decode?_encode {t : Trampoline} (hwanted : t.funcs ≠ [] ∨ t.memory.isSome)
    (hnumeric : t.Numeric) (hfits : t.Fits) :
    ∃ bytes, t.encode = some bytes ∧ Module.decode? bytes = some t.meaning := by
  have hencode : ¬(t.funcs.isEmpty && t.memory.isNone) = true := by
    cases hwanted with
    | inl h => simp [h]
    | inr h => simp [Option.isSome_iff_ne_none.1 h]
  refine ⟨_, if_neg hencode, ?_⟩
  simp only [List.append_assoc]
  refine Module.decode?_of_adds ((types_adds hnumeric hfits rfl).append <|
    (imports_adds hfits rfl).append <| (functions_adds hfits rfl).append <|
    (memory_adds hfits rfl).append <| (exports_adds hfits).append <| bodies_adds hfits rfl) ?_
  rw [Sections.toModule?, if_pos (by simp), zipWith_bodies]
  rfl

/-! ## Validity -/

end Trampoline

namespace StackType

theorem pushAll_eq (s : StackType) (ts : List ValType) :
    s.pushAll ts = { s with known := ts.reverse ++ s.known } := by
  induction ts generalizing s with
  | nil => rfl
  | cons t ts ih => simpa [push, pushAll] using ih (s.push t)

theorem foldlM_pop {s : StackType} {ts known : List ValType} (h : s.known = ts ++ known) :
    ts.foldlM pop s = some { s with known := known } := by
  induction ts generalizing s with
  | nil =>
    rw [List.nil_append] at h
    rw [← h]
    rfl
  | cons t ts ih =>
    have hpop : s.pop t = some { s with known := ts ++ known } := by simp [pop, h]
    rw [List.foldlM_cons, hpop]
    exact ih rfl

/-- What was pushed can be popped again. -/
theorem popAll_pushAll (s : StackType) (ts : List ValType) : (s.pushAll ts).popAll ts = some s := by
  rw [pushAll_eq]
  exact foldlM_pop rfl

end StackType

namespace Module

theorem distinct_iff_nodup {names : List String} : distinct names = true ↔ names.Nodup := by
  induction names with
  | nil => simp [distinct]
  | cons n names ih => simp [distinct, ih]

/-- With distinct names, every export is found. -/
theorem export?_of_mem {m : Module} (hnames : (m.exports.map (·.name)).Nodup) {e : Export}
    (he : e ∈ m.exports) : m.export? e.name = some e := by
  rw [export?]
  generalize m.exports = exports at hnames he
  induction exports with
  | nil => cases he
  | cons x exports ih =>
    obtain ⟨hx, hrest⟩ := List.nodup_cons.1 hnames
    rcases List.mem_cons.1 he with rfl | he
    · exact List.find?_cons_of_pos (by simp)
    · have hne : x.name ≠ e.name := fun h => hx (List.mem_map.2 ⟨e, he, h.symm⟩)
      rw [List.find?_cons_of_neg (by simpa using hne)]
      exact ih hrest he

/-- Reading locals one after the other pushes their types. -/
theorem foldlM_localGet (m : Module) {locals : List ValType} {ps : List UInt32} {ts : List ValType}
    (h : List.Forall₂ (fun p t => locals[p.toNat]? = some t) ps ts) (s : StackType) :
    (ps.map Instr.localGet).foldlM (m.typeInstr locals) s = some (s.pushAll ts) := by
  induction h generalizing s with
  | nil => rfl
  | @cons p t ps ts hp _ ih =>
    have hget : m.typeInstr locals s (.localGet p) = some (s.push t) := by
      simp [typeInstr, hp]
    rw [List.map_cons, List.foldlM_cons, hget]
    exact ih (s.push t)

end Module

namespace Trampoline

theorem forall₂_firstLocals {α : Type} {xs : List α} (h : xs.length < UInt32.size) :
    List.Forall₂ (fun p x => xs[p.toNat]? = some x) (firstLocals xs.length) xs := by
  rw [List.forall₂_iff_get]
  refine ⟨by simp [firstLocals], fun i hi hi' => ?_⟩
  have hindex : i.toUInt32.toNat = i := UInt32.toNat_ofNat_of_lt (by omega)
  simp [firstLocals, hindex]

section Meaning

variable {t : Trampoline} {i : Nat} {f : Func}

theorem importedFuncs_meaning (hfits : t.Fits) :
    t.meaning.importedFuncs = List.range t.funcs.length := by
  have hindices : t.meaning.importedFuncs = t.funcs.mapIdx fun i _ => i := by
    refine filterMap_mapIdx fun i f hf => ?_
    have hi := (List.getElem?_eq_some_iff.1 hf).1
    have hcount := hfits.funcs_lt
    exact congrArg some (UInt32.toNat_ofNat_of_lt (by omega))
  rw [hindices]
  apply List.ext_getElem <;> simp

theorem funcType?_import (hfits : t.Fits) (hf : t.funcs[i]? = some f) :
    t.meaning.funcType? i = some f.type := by
  obtain ⟨hi, rfl⟩ := List.getElem?_eq_some_iff.1 hf
  rw [Module.funcType?, importedFuncs_meaning hfits, List.getElem?_append_left (by simpa using hi)]
  simp [meaning, hi]

theorem funcType?_export (hfits : t.Fits) (hf : t.funcs[i]? = some f) :
    t.meaning.funcType? (t.funcs.length + i) = some f.type := by
  obtain ⟨hi, rfl⟩ := List.getElem?_eq_some_iff.1 hf
  rw [Module.funcType?, importedFuncs_meaning hfits, List.getElem?_append_right (by simp)]
  simp [meaning, hi]

theorem validFunc_forwarder (hfits : t.Fits) (hf : t.funcs[i]? = some f) :
    t.meaning.validFunc { typeIndex := i, code := forwarder i f } = true := by
  have htype : t.meaning.types[i]? = some f.type := by simp [meaning, hf]
  have hi := (List.getElem?_eq_some_iff.1 hf).1
  have hcount := hfits.funcs_lt
  have hindex : i.toUInt32.toNat = i := UInt32.toNat_ofNat_of_lt (by omega)
  have hgets := t.meaning.foldlM_localGet
    (forall₂_firstLocals (hfits.params_lt (List.mem_of_getElem? hf))) {}
  have hcall : t.meaning.typeInstr f.type.params (({} : StackType).pushAll f.type.params)
      (.call i.toUInt32) = some (({} : StackType).pushAll f.type.results) := by
    simp [Module.typeInstr, hindex, funcType?_import hfits hf, StackType.popAll_pushAll]
  have hcode : (forwarder i f).foldlM (t.meaning.typeInstr f.type.params) {} =
      some (({} : StackType).pushAll f.type.results) := by
    rw [forwarder, List.foldlM_append, hgets]
    simpa using hcall
  simp [Module.validFunc, htype, hcode, StackType.popAll_pushAll]

/-- The bounds of the memory are in order and no larger than a memory can be. -/
def Bounded (t : Trampoline) : Prop := ∀ m ∈ t.memory, m.min ≤ m.max ∧ m.max.toNat ≤ maxPages

/-- The names that things are exported under. -/
def exportNames (t : Trampoline) : List String :=
  t.memory.toList.map (·.name) ++ t.funcs.map (·.exportName)

theorem exported_names (t : Trampoline) : t.exported.map (·.name) = t.exportNames := by
  simp only [exported, exportNames, List.map_append, List.map_map, map_mapIdx]
  congr 1
  apply List.ext_getElem <;> simp

theorem importedMemories_meaning (t : Trampoline) : t.meaning.importedMemories = [] := by
  rw [Module.importedMemories, List.filterMap_eq_nil_iff]
  intro i hi
  obtain ⟨n, hn, rfl⟩ := List.mem_mapIdx.1 hi
  rfl

theorem validMemory_memoryLimits {m : SharedMemory} {limit : Nat} :
    (memoryLimits m).validMemory limit = true ↔
      m.min.toNat ≤ limit ∧ m.min ≤ m.max ∧ m.max.toNat ≤ maxPages := by
  have hmin : m.min.toUInt64 ≤ m.max.toUInt64 ↔ m.min ≤ m.max := by
    simp [UInt64.le_iff_toNat_le, UInt32.le_iff_toNat_le]
  simp [memoryLimits, Limits.ofPages, Limits.validMemory, hmin, and_comm]

theorem validExport_exported (hfits : t.Fits) {e : Export} (he : e ∈ t.exported) :
    t.meaning.validExport e = true := by
  rcases List.mem_append.1 he with he | he
  · obtain ⟨m, hm, rfl⟩ := List.mem_map.1 he
    simp [Module.validExport, meaning, Option.mem_toList.1 hm]
  · obtain ⟨i, hi, rfl⟩ := List.mem_mapIdx.1 he
    simp only [Module.validExport, importedFuncs_meaning hfits]
    simpa [meaning] using hi

/-- Under any page limit, the bounds of the memory and the names of the exports decide. -/
theorem valid_meaning_iff (hfits : t.Fits) {limit : Nat} : t.meaning.valid limit = true ↔
    (∀ m ∈ t.memory, m.min.toNat ≤ limit ∧ m.min ≤ m.max ∧ m.max.toNat ≤ maxPages) ∧
      t.exportNames.Nodup := by
  have hbounds : (∀ l ∈ t.meaning.memories, l.validMemory limit = true) ↔
      ∀ m ∈ t.memory, m.min.toNat ≤ limit ∧ m.min ≤ m.max ∧ m.max.toNat ≤ maxPages := by
    simp [meaning, validMemory_memoryLimits]
  have hnames : Module.distinct (t.meaning.exports.map (·.name)) = true ↔ t.exportNames.Nodup := by
    rw [Module.distinct_iff_nodup, ← exported_names]
    rfl
  simp only [Module.valid, Bool.and_eq_true, importedMemories_meaning, importedFuncs_meaning hfits,
    List.nil_append, List.all_eq_true, hbounds, hnames]
  constructor
  · rintro ⟨⟨⟨⟨⟨⟨⟨-, -⟩, hmemory⟩, -⟩, hdistinct⟩, -⟩, -⟩, -⟩
    exact ⟨hmemory, hdistinct⟩
  · rintro ⟨hmemory, hdistinct⟩
    refine ⟨⟨⟨⟨⟨⟨⟨?_, ?_⟩, hmemory⟩, nofun⟩, hdistinct⟩, ?_⟩, rfl⟩, ?_⟩
    · simp [meaning]
    · cases hm : t.memory <;> simp [meaning, hm]
    · exact fun e he => validExport_exported hfits he
    · intro f hf
      obtain ⟨i, hi, rfl⟩ := List.mem_mapIdx.1 hf
      exact validFunc_forwarder hfits (List.getElem?_eq_getElem hi)

theorem meaning_valid (hbounded : t.Bounded) (hnames : t.exportNames.Nodup) (hfits : t.Fits) :
    t.meaning.valid maxPages = true := by
  refine (valid_meaning_iff hfits).2 ⟨fun m hm => ?_, hnames⟩
  obtain ⟨hle, hmax⟩ := hbounded m hm
  exact ⟨Nat.le_trans (UInt32.le_iff_toNat_le.1 hle) hmax, hle, hmax⟩

end Meaning

/-! ## Execution -/

end Trampoline

/-- The code of an instance: its module, and what its functions are. -/
def Store.code? (s : Store) (inst : Nat) : Option (Module × List Callee) :=
  (s.instances[inst]?).map fun x => (x.module, x.callees.toList)

namespace Trampoline

/-- How a thread goes on once its innermost call has put a question to the host: the answer goes to
the calls that wait for it, and a trap ends them all. -/
def passOn {σ : Type} (host : Host σ) (function : HostFunc) (args : List UInt64) (steps : Nat)
    (calls : List Call) (waiting : List Frame) (state : σ) (s : Store) : Ending × σ × Store :=
  match host function args (state, s) with
  | (.ok results, state', s') =>
    match waiting with
    | [] => (.finished results, state', s')
    | _ :: _ => run host steps state' s' (handBack results.reverse waiting)
  | (.error reason, state', s') => (.trapped reason calls, state', s')

/-- A function of the host gives as many results as its type says, whenever it gives any. -/
def Answers {σ : Type} (host : Host σ) (function : HostFunc) : Prop :=
  ∀ args before results after, host function args before = (.ok results, after) →
    results.length = function.type.results.length

/-- The call of an export, about to start. -/
def callOf (t : Trampoline) (inst i : Nat) (f : Func) (args : List UInt64) : Frame where
  inst := inst
  index := t.funcs.length + i
  type := f.type
  body := ({ locals := args, code := forwarder i f } : Activation)

/-- What the functions of an instance are: the imports, and the instance's own. -/
def calleesOf (t : Trampoline) (functions : List HostFunc) (inst : Nat) : List Callee :=
  functions.map .host ++
    (List.range t.funcs.length).map fun k => .code inst (functions.length + k)

/-- An instance of the trampoline is in the store. -/
def Stands (t : Trampoline) (functions : List HostFunc) (s : Store) (inst : Nat) : Prop :=
  s.code? inst = some (t.meaning, t.calleesOf functions inst)

theorem Stands.instance {t : Trampoline} {functions : List HostFunc} {s : Store} {inst : Nat}
    (h : t.Stands functions s inst) : ∃ x, s.instances[inst]? = some x ∧ x.module = t.meaning ∧
      x.callees.toList = t.calleesOf functions inst := by
  obtain ⟨x, hx, hcode⟩ := Option.map_eq_some_iff.1 h
  obtain ⟨hmodule, hcallees⟩ := Prod.mk.injEq _ _ _ _ ▸ hcode
  exact ⟨x, hx, hmodule, hcallees⟩

/-- The arguments are values of the given types. -/
def Fitting (types : List ValType) (args : List UInt64) : Prop :=
  List.Forall₂ (fun t v => ValType.clip t v = v) types args

theorem Fitting.zipWith_clip {types : List ValType} {args : List UInt64} (h : Fitting types args) :
    List.zipWith ValType.clip types args = args := by
  induction h with
  | nil => rfl
  | cons hv _ ih => rw [List.zipWith_cons_cons, hv, ih]

section Execution

variable {t : Trampoline} {functions : List HostFunc} {s : Store} {inst i : Nat} {f : Func}
  {args : List UInt64}

theorem start?_meaning (hfits : t.Fits) (hf : t.funcs[i]? = some f) (args : List UInt64) :
    Activation.start? t.meaning (t.funcs.length + i) args = some
      { locals := List.zipWith ValType.clip f.type.params args, code := forwarder i f } := by
  have hfunc : t.meaning.funcs[i]? = some { typeIndex := i, code := forwarder i f } := by
    simp [meaning, hf]
  have htype : t.meaning.types[i]? = some f.type := by simp [meaning, hf]
  simp [Activation.start?, importedFuncs_meaning hfits, hfunc, htype]

theorem enter?_clips (h : t.Stands functions s inst) (hfits : t.Fits) (hf : t.funcs[i]? = some f)
    (args : List UInt64) : s.enter? inst (t.funcs.length + i) args =
      some (t.callOf inst i f (List.zipWith ValType.clip f.type.params args)) := by
  obtain ⟨x, hx, hmodule, -⟩ := h.instance
  have henter : Machine.enter? t.meaning (t.funcs.length + i) args = some _ :=
    start?_meaning hfits hf args
  simp [Store.enter?, hx, hmodule, funcType?_export hfits hf, henter, callOf]

theorem enter?_export (h : t.Stands functions s inst) (hfits : t.Fits) (hf : t.funcs[i]? = some f)
    (hargs : Fitting f.type.params args) :
    s.enter? inst (t.funcs.length + i) args = some (t.callOf inst i f args) := by
  rw [enter?_clips h hfits hf, hargs.zipWith_clip]

theorem step_forwarder_call (h : t.Stands functions s inst) (hfits : t.Fits)
    (hf : t.funcs[i]? = some f) {function : HostFunc} (hfunction : functions[i]? = some function)
    (hargs : args.length = f.type.params.length) (rest : List Frame) :
    step s ((t.callOf inst i f args).reach [.call i.toUInt32] args.reverse :: rest) =
      .asked function args ((t.callOf inst i f args).reach [] [] :: rest) := by
  obtain ⟨x, hx, hmodule, hcallees⟩ := h.instance
  have hi := (List.getElem?_eq_some_iff.1 hf).1
  have hcount := hfits.funcs_lt
  have hindex : i.toUInt32.toNat = i := UInt32.toNat_ofNat_of_lt (by omega)
  have hcallee : x.callees[i.toUInt32.toNat]? = some (.host function) := by
    have hlt := (List.getElem?_eq_some_iff.1 hfunction).1
    rw [hindex, ← Array.getElem?_toList, hcallees, calleesOf,
      List.getElem?_append_left (by simpa using hlt), List.getElem?_map, hfunction]
    rfl
  have htype : x.module.funcType? i.toUInt32.toNat = some f.type := by
    rw [hindex, hmodule, funcType?_import hfits hf]
  have htake : args.reverse.take f.type.params.length = args.reverse :=
    List.take_of_length_le (by rw [List.length_reverse, hargs])
  have hstack : f.type.params.length ≤ args.reverse.length := by rw [List.length_reverse, hargs]
  have hstep := step_call_host (f := (t.callOf inst i f args).reach [.call i.toUInt32] args.reverse)
    rest rfl hx hcallee htype hstack
  change step s _ = .asked function (args.reverse.take f.type.params.length).reverse
    ((t.callOf inst i f args).reach [] (args.reverse.drop f.type.params.length) :: rest) at hstep
  rw [hstep, htake, List.reverse_reverse,
    List.drop_of_length_le (by rw [List.length_reverse, hargs])]

/-- A call of an export is a question to the host. -/
theorem run_export {σ : Type} {host : Host σ} {function : HostFunc} (h : t.Stands functions s inst)
    (hfits : t.Fits) (hf : t.funcs[i]? = some f) (hfunction : functions[i]? = some function)
    (htype : function.type = f.type) (hhost : Answers host function)
    (hargs : Fitting f.type.params args) (steps : Nat) (rest : List Frame) (state : σ) :
    run host (f.type.params.length + (steps + 2)) state s (t.callOf inst i f args :: rest) =
      passOn host function args steps (activeCalls (t.callOf inst i f args :: rest)) rest state
        s := by
  have hlength : args.length = f.type.params.length := hargs.length_eq.symm
  have hsize := hfits.params_lt (List.mem_of_getElem? hf)
  have hgets : run host ((firstLocals args.length).length + (steps + 2)) state s
        (t.callOf inst i f args :: rest) =
      run host (steps + 2) state s
        ((t.callOf inst i f args).reach [.call i.toUInt32] (args.reverse ++ []) :: rest) := by
    refine run_localGets _ (forall₂_firstLocals (by omega)) rfl ?_
    rw [hlength]
    rfl
  have hcall := step_forwarder_call h hfits hf hfunction hlength rest
  rw [show (firstLocals args.length).length = f.type.params.length by simp [firstLocals, hlength],
    List.append_nil] at hgets
  rw [hgets, passOn]
  rcases hanswer : host function args (state, s) with ⟨reason | results, state', s'⟩
  · rw [run_refused _ hcall hanswer]
    rfl
  · have hresults : results.reverse.take f.type.results.length = results.reverse :=
      List.take_of_length_le (by rw [List.length_reverse, hhost _ _ _ _ hanswer, htype])
    rw [run_answered _ hcall hanswer]
    cases rest with
    | nil =>
      refine (run_finished _ (step_return (move_end rfl))).trans ?_
      change (Ending.finished (List.take f.type.results.length (results.reverse ++ [])).reverse,
        _, _) = _
      rw [List.append_nil, hresults, List.reverse_reverse]
    | cons caller rest =>
      refine (run_running _ (step_handBack (move_end rfl))).trans ?_
      change run host steps state' s'
        (handBack ((results.reverse ++ []).take f.type.results.length) (caller :: rest)) = _
      rw [List.append_nil, hresults]

end Execution

/-! ## Linking -/

/-- The functions that the imports are bound to, if the host module exports `functions`. -/
def Provides (functions : List HostFunc) (t : Trampoline) (found : List HostFunc) : Prop :=
  List.Forall₂ (fun f h => functions.find? (·.name = f.importName) = some h ∧ h.type = f.type)
    t.funcs found

section Linking

variable {t : Trampoline} {functions found : List HostFunc} {modules : List (String × Provider)}

theorem resolve_import (hfits : t.Fits) (hmodules : modules.lookup t.host = some (.host functions))
    {i : Nat} {f : Func} {h : HostFunc} (hf : t.funcs[i]? = some f)
    (hfind : functions.find? (·.name = f.importName) = some h) (htype : h.type = f.type)
    (s : Store) (pageLimit : Nat) :
    resolve s modules pageLimit t.meaning
        { module := t.host, name := f.importName, desc := .func i.toUInt32 } =
      .ok (.func (.host h)) := by
  have hi := (List.getElem?_eq_some_iff.1 hf).1
  have hcount := hfits.funcs_lt
  have hindex : i.toUInt32.toNat = i := UInt32.toNat_ofNat_of_lt (by omega)
  have hwanted : t.meaning.types[i.toUInt32.toNat]? = some f.type := by
    rw [hindex]
    simp [meaning, hf]
  simp only [resolve, hmodules, hfind, bindFunc, hwanted, Option.getD_some, htype, if_true]

theorem instantiate_stands (hfits : t.Fits)
    (hmodules : modules.lookup t.host = some (.host functions))
    (hfound : Provides functions t found) (s : Store) (pageLimit : Nat) :
    ∃ s', s.instantiate modules pageLimit t.meaning = .ok (s.instances.size, s') ∧
      t.Stands found s' s.instances.size := by
  have hbindings : t.meaning.imports.mapM (resolve s modules pageLimit t.meaning) =
      .ok (found.map fun h => .func (.host h)) := by
    refine mapM_eq_ok_iff.2 ?_
    rw [List.forall₂_iff_get]
    refine ⟨by simp [meaning, imports, hfound.length_eq], fun i hi hi' => ?_⟩
    have hlt : i < t.funcs.length := by simpa [meaning, imports] using hi
    obtain ⟨hfind, htype⟩ := hfound.get hlt (by simpa using hi')
    have hresolve :=
      resolve_import hfits hmodules (List.getElem?_eq_getElem hlt) hfind htype s pageLimit
    simpa [meaning, imports] using hresolve
  refine ⟨_, by rw [Store.instantiate, hbindings]; rfl, ?_⟩
  simp [Stands, Store.code?, calleesOf, meaning, List.filterMap_map]

end Linking

/-! ## The whole -/

/-- What is asked of a trampoline: it exports something, with numeric types, under distinct names,
and its memory can exist. -/
structure WellFormed (t : Trampoline) : Prop where
  wanted : t.funcs ≠ [] ∨ t.memory.isSome
  numeric : t.Numeric
  names : t.exportNames.Nodup
  bounded : t.Bounded

/-- A valid module that imports, defines and exports what the trampoline says and nothing else. -/
structure Reexports (t : Trampoline) (m : Module) : Prop where
  valid : m.valid maxPages = true
  imports : m.imports.map (fun i => (i.module, i.name)) =
    t.funcs.map fun f => (t.host, f.importName)
  importedFuncs : m.importedFuncs.length = t.funcs.length
  importType : ∀ i f, t.funcs[i]? = some f → m.funcType? i = some f.type
  memories : m.memories = t.memory.toList.map fun mem =>
    { min := mem.min.toUInt64, max := some mem.max.toUInt64, shared := true }
  exportNames : m.exports.map (·.name) = t.exportNames
  memoryExport : ∀ mem ∈ t.memory,
    m.export? mem.name = some { name := mem.name, kind := .memory, index := 0 }
  funcExport : ∀ i f, t.funcs[i]? = some f →
    m.export? f.exportName =
        some { name := f.exportName, kind := .func, index := t.funcs.length + i } ∧
      m.funcType? (t.funcs.length + i) = some f.type

theorem meaning_reexports {t : Trampoline} (h : t.WellFormed) (hfits : t.Fits) :
    t.Reexports t.meaning where
  valid := meaning_valid h.bounded h.names hfits
  imports := by
    apply List.ext_getElem <;> simp [meaning, Trampoline.imports]
  importedFuncs := by rw [importedFuncs_meaning hfits, List.length_range]
  importType _ _ hf := funcType?_import hfits hf
  memories := rfl
  exportNames := exported_names t
  memoryExport mem hmem := by
    refine Module.export?_of_mem (exported_names t ▸ h.names) (e := ⟨mem.name, .memory, 0⟩) ?_
    simp [meaning, exported, Option.mem_def.1 hmem]
  funcExport i f hf := by
    refine ⟨?_, funcType?_export hfits hf⟩
    obtain ⟨hi, rfl⟩ := List.getElem?_eq_some_iff.1 hf
    refine Module.export?_of_mem (exported_names t ▸ h.names) (e := ⟨_, .func, _⟩) ?_
    exact List.mem_append_right _ (List.mem_mapIdx.2 ⟨i, hi, rfl⟩)

/-- Function `index` of an instance passes every call on to a function of the host. -/
def Forwards (function : HostFunc) (s : Store) (inst index : Nat) : Prop :=
  ∀ (σ : Type) (host : Host σ), Answers host function →
    ∀ args, Fitting function.type.params args → ∃ frame, s.enter? inst index args = some frame ∧
      ∀ steps rest state,
        run host (function.type.params.length + (steps + 2)) state s (frame :: rest) =
          passOn host function args steps (activeCalls (frame :: rest)) rest state s

theorem Stands.forwards {t : Trampoline} {functions found : List HostFunc} {s : Store}
    {inst i : Nat} {function : HostFunc} (h : t.Stands found s inst) (hfits : t.Fits)
    (hfound : Provides functions t found) (hfunction : found[i]? = some function) :
    Forwards function s inst (t.funcs.length + i) := by
  obtain ⟨hi, rfl⟩ := List.getElem?_eq_some_iff.1 hfunction
  have hlt : i < t.funcs.length := hfound.length_eq ▸ hi
  have hf := List.getElem?_eq_getElem hlt
  have htype : found[i].type = t.funcs[i].type := (hfound.get hlt hi).2
  intro σ host hhost args hargs
  rw [htype] at hargs ⊢
  exact ⟨_, enter?_export h hfits hf hargs,
    run_export h hfits hf hfunction htype hhost hargs⟩

/-- The module can be linked to a host that provides its imports. Whatever happens in the store
later on, as long as the code stays, every export passes its calls on to its import. -/
def Links (t : Trampoline) (m : Module) : Prop :=
  ∀ (modules : List (String × Provider)) (functions found : List HostFunc),
    modules.lookup t.host = some (.host functions) → Provides functions t found →
    ∀ (s : Store) (pageLimit : Nat), ∃ s',
      s.instantiate modules pageLimit m = .ok (s.instances.size, s') ∧
      ∀ later : Store, later.code? s.instances.size = s'.code? s.instances.size →
        ∀ i function, found[i]? = some function →
          Forwards function later s.instances.size (t.funcs.length + i)

/-- The binary of a trampoline has its sections in order and is a valid module that imports and
exports what was asked for. A call of an export asks the host once, with the same arguments, and
hands its answer or its trap on as it is. -/
theorem encode_forwards_calls {t : Trampoline} (h : t.WellFormed) (hfits : t.Fits) :
    ∃ bytes m, t.encode = some bytes ∧ Module.InOrder bytes ∧ Module.decode? bytes = some m ∧
      t.Reexports m ∧ t.Links m := by
  obtain ⟨bytes, hencode, hdecode⟩ := decode?_encode h.wanted h.numeric hfits
  refine ⟨bytes, t.meaning, hencode, inOrder_of_encode hfits hencode, hdecode,
    meaning_reexports h hfits, ?_⟩
  intro modules functions found hmodules hfound s pageLimit
  obtain ⟨s', hs', hstands⟩ := instantiate_stands hfits hmodules hfound s pageLimit
  refine ⟨s', hs', fun later hlater i function hfunction => ?_⟩
  have hlater : t.Stands found later s.instances.size := hlater.trans hstands
  exact hlater.forwards hfits hfound hfunction

def clock : HostFunc := { name := "now", type := { results := [.i64] } }

def adder : HostFunc where
  name := "add"
  type := { params := [.i64, .f32, .i32], results := [.i32, .f64] }

/-- Two functions and the largest memory there is. -/
def envModule : Trampoline where
  host := "host"
  memory := some { name := "memory", min := 1, max := 65536 }
  funcs :=
    [{ importName := "now", exportName := "time", type := clock.type },
      { importName := "add", exportName := "sum", type := adder.type }]

theorem envModule_forwards_calls : ∃ bytes m s', envModule.encode = some bytes ∧
    Module.InOrder bytes ∧ Module.decode? bytes = some m ∧ envModule.Reexports m ∧
    Store.instantiate {} [("host", .host [adder, clock])] maxPages m = .ok (0, s') ∧
    Forwards clock s' 0 2 ∧ Forwards adder s' 0 3 := by
  have hwell : envModule.WellFormed :=
    ⟨.inr rfl, by decide, by decide, by rintro m ⟨⟩; decide⟩
  obtain ⟨bytes, m, hencode, horder, hdecode, hreexports, hlinks⟩ :=
    encode_forwards_calls hwell (by constructor <;> decide +kernel)
  have hfound : Provides [adder, clock] envModule [clock, adder] :=
    .cons ⟨rfl, rfl⟩ (.cons ⟨rfl, rfl⟩ .nil)
  obtain ⟨s', hs', hforwards⟩ :=
    hlinks [("host", .host [adder, clock])] [adder, clock] [clock, adder] rfl hfound {} maxPages
  exact ⟨bytes, m, s', hencode, horder, hdecode, hreexports, hs', hforwards s' rfl 0 clock rfl,
    hforwards s' rfl 1 adder rfl⟩

end Trampoline

end GuestThreads.Wasm
