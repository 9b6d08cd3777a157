import GuestThreads.Proofs.Wasm.Decoding
import GuestThreads.Wasm.Assembly
import Mathlib.Data.List.Forall2
import Mathlib.Data.List.Induction

/-!
# Assembled modules are read back as declared

The binary of an assembly decodes to the module that was declared: the functions with their types
and code, the memory, the globals and the exports. The indices that declarations get are the places
of the functions and globals in the decoded module.
-/

namespace GuestThreads.Wasm

/-- A function of a module: an import, or code with its locals. -/
inductive Function where
  | imported (module name : String) (type : FuncType)
  | defined (type : FuncType) (locals : List ValType) (code : List Instr)

/-- The function that an import asks for, as far as it has a type. -/
def Import.function? (types : List FuncType) (i : Import) : Option (Option Function) :=
  match i.desc with
  | .func index => some ((types[index.toNat]?).map (.imported i.module i.name))
  | _ => none

/-- The functions of a module in order of their indices, as far as they have a type. -/
def Module.functions (m : Module) : List (Option Function) :=
  m.imports.filterMap (Import.function? m.types) ++
    m.funcs.map fun f => (m.types[f.typeIndex]?).map (.defined · f.locals f.code)

namespace Assembly

/-! ## Decoding -/

/-- The global that a declared one stands for. -/
def Global.meaning (g : Global) : Wasm.Global where
  type := { type := g.type, mutable := g.mutable }
  init := match g.type with
    | .i64 => .i64 g.init
    | _ => .i32 g.init.toInt32

def ExportKind.meaning : ExportKind → Wasm.ExportKind
  | .func => .func
  | .global => .global

def Export.meaning (e : Export) : Wasm.Export where
  name := e.name
  kind := e.kind.meaning
  index := e.index.toNat

/-- The type indices of the local functions. -/
def typeIndices (a : Assembly) : List Nat :=
  (List.range a.funcs.length).map (a.imports.length + ·)

/-- The module that an assembly stands for. -/
def meaning (a : Assembly) : Module where
  types := a.types
  imports := a.entries
  funcs := a.funcs.mapIdx fun i f => { typeIndex := a.imports.length + i, code := f.code }
  globals := a.globals.map Global.meaning
  exports := a.exports.map Export.meaning

/-- The sections of an assembly are shorter than 4 GiB each, and so is all that is in them. -/
structure Fits (a : Assembly) : Prop where
  types : (vector FuncType.encode a.types).length < UInt32.size
  imports : (vector Import.encode a.entries).length < UInt32.size
  funcs : (vector Leb128.unsigned a.typeIndices).length < UInt32.size
  globals : (vector Global.encode a.globals).length < UInt32.size
  exports : (vector Export.encode a.exports).length < UInt32.size
  bodies : (vector Func.encode a.funcs).length < UInt32.size

/-- All types are numeric, and those of globals are types of integers. -/
structure Numeric (a : Assembly) : Prop where
  types : ∀ t ∈ a.types, t.Numeric
  globals : ∀ g ∈ a.globals, g.type = .i32 ∨ g.type = .i64

/-- A section that holds a list, left out where there is nothing to say. -/
theorem listSection_adds {α β : Type} {s : Sections} {item : β → Bytes} {items : List β}
    {d : Decoder (List α)} {xs : List α} (id : UInt8) (f : List α → Sections)
    (hadd : ∀ content, s.add id content = (d.whole content).bind fun ys => some (f ys))
    (hwhole : d.whole (vector item items) = some xs) (hempty : items = [] → f xs = s)
    (hsize : (vector item items).length < UInt32.size) :
    s.Adds (listSection id item items) (f xs) := by
  unfold listSection
  cases items with
  | nil =>
    rw [hempty rfl]
    exact .nil s
  | cons b items => exact Sections.adds_whole f hadd hwhole hsize

theorem globalType_decodes {t : ValType} (h : t.numeric = true) (isMutable : Bool) :
    Decodes Decoder.globalType [t.code, if isMutable then 1 else 0]
      { type := t, mutable := isMutable } := by
  have hmutability : ∀ b : UInt8, b ≤ 1 → Decodes Decoder.mutability [b] b := by
    intro b hb
    refine (Decoder.byte_decodes b).andThen ?_
    rw [if_pos hb]
    exact .value b
  refine (Decoder.valType_decodes h).bind (?_ : Decodes _ [_] _)
  cases isMutable <;> exact (hmutability _ (by decide)).andThen (.value _)

theorem global_decodes {g : Global} (h : g.type = .i32 ∨ g.type = .i64) :
    Decodes Decoder.global g.encode g.meaning := by
  obtain ⟨type, isMutable, init⟩ := g
  rw [Global.encode, List.append_assoc]
  dsimp only at h
  obtain rfl | rfl := h
  · refine (globalType_decodes rfl isMutable).bind (Decodes.yield ?_ (Wasm.Global.mk _))
    refine (Decoder.byte_decodes 0x41).bind (?_ : Decodes _ (_ ++ _) _)
    refine ((Decoder.s32_decodes init.toInt32).map Constant.i32).bind ?_
    exact (Decoder.expect_decodes 0x0b).andThen (.value _)
  · refine (globalType_decodes rfl isMutable).bind (Decodes.yield ?_ (Wasm.Global.mk _))
    refine (Decoder.byte_decodes 0x42).bind (?_ : Decodes _ (_ ++ _) _)
    refine ((Decoder.s64_decodes init).map Constant.i64).bind ?_
    exact (Decoder.expect_decodes 0x0b).andThen (.value _)

theorem export_decodes {e : Export} (h : e.encode.length < UInt32.size) :
    Decodes Decoder.exportEntry e.encode e.meaning := by
  simp only [Export.encode, List.length_append] at h
  have hkind : Decodes Decoder.exportKind [e.kind.code] e.kind.meaning := by
    cases e.kind <;> exact (Decoder.byte_decodes _).andThen (.value _)
  exact Decoder.exportEntry_decodes hkind e.index.toNat_lt (by omega)

theorem func_decodes {f : Func} (h : f.encode.length < UInt32.size) :
    Decodes Decoder.body f.encode ([], f.code) := by
  rw [Func.encode, List.length_append] at h
  exact Decoder.body_decodes rfl (Nat.lt_of_le_of_lt (Nat.le_add_left _ _) h)

/-- Assemblies import functions, and a memory that states its maximum. -/
theorem entries_plain {a : Assembly} {i : Import} (h : i ∈ a.entries) : Decoder.Plain i.desc := by
  rcases List.mem_append.1 h with h | h
  · obtain ⟨n, hn, rfl⟩ := List.mem_mapIdx.1 h
    exact .func _
  · obtain ⟨m, -, rfl⟩ := List.mem_map.1 h
    exact .memory m.min m.max m.shared

/-- There are less than 2 ^ 32 functions, as each has a type of its own. -/
theorem Fits.types_lt {a : Assembly} (h : a.Fits) :
    a.imports.length + a.funcs.length < UInt32.size := by
  have hcount : a.types.length ≤ (vector FuncType.encode a.types).length :=
    length_le_vector fun t _ => List.cons_ne_nil _ _
  simp only [Assembly.types, List.length_append, List.length_map] at hcount
  exact Nat.lt_of_le_of_lt hcount h.types

theorem Fits.globals_lt {a : Assembly} (h : a.Fits) : a.globals.length < UInt32.size :=
  Nat.lt_of_le_of_lt (length_le_vector fun g _ => by simp [Global.encode]) h.globals

theorem typeIndices_lt {a : Assembly} (hfits : a.Fits) {n : Nat} (h : n ∈ a.typeIndices) :
    n < UInt32.size := by
  have hcount := hfits.types_lt
  obtain ⟨i, hi, rfl⟩ := List.mem_map.1 h
  rw [List.mem_range] at hi
  omega

section Sections

variable {a : Assembly} {s : Sections}

theorem types_adds (hnumeric : a.Numeric) (hfits : a.Fits) (hs : s.module.types = []) :
    s.Adds (listSection 1 FuncType.encode a.types)
      { s with module := { s.module with types := a.types } } := by
  have hwhole := vector_whole (g := id) hfits.types (fun t _ => List.cons_ne_nil _ _)
    fun t ht hsize => Decoder.funcType_decodes (hnumeric.types t ht) hsize
  rw [List.map_id] at hwhole
  refine listSection_adds 1 (fun types => { s with module := { s.module with types := types } })
    (fun _ => rfl) hwhole (fun h => ?_) hfits.types
  rw [h, ← hs]

theorem imports_adds (hfits : a.Fits) (hs : s.module.imports = []) :
    s.Adds (listSection 2 Import.encode a.entries)
      { s with module := { s.module with imports := a.entries } } := by
  have hwhole := vector_whole (g := id) hfits.imports (fun i _ => by simp [Import.encode])
    fun i hi hsize => Decoder.importEntry_decodes (entries_plain hi) hsize
  rw [List.map_id] at hwhole
  refine listSection_adds 2
    (fun imports => { s with module := { s.module with imports := imports } })
    (fun _ => rfl) hwhole (fun h => ?_) hfits.imports
  rw [h, ← hs]

theorem typeIndices_adds (hfits : a.Fits) (hs : s.typeIndices = []) :
    s.Adds (listSection 3 Leb128.unsigned a.typeIndices)
      { s with typeIndices := a.typeIndices } := by
  have hwhole := vector_whole (g := id) hfits.funcs (fun n _ => unsigned_ne_nil n)
    fun n hn _ => Decoder.index_decodes (typeIndices_lt hfits hn)
  rw [List.map_id] at hwhole
  refine listSection_adds 3 (fun indices => { s with typeIndices := indices })
    (fun _ => rfl) hwhole (fun h => ?_) hfits.funcs
  rw [h, ← hs]

theorem globals_adds (hnumeric : a.Numeric) (hfits : a.Fits) (hs : s.module.globals = []) :
    s.Adds (listSection 6 Global.encode a.globals)
      { s with module := { s.module with globals := a.globals.map Global.meaning } } := by
  have hwhole := vector_whole hfits.globals (fun g _ => by simp [Global.encode])
    fun g hg _ => global_decodes (hnumeric.globals g hg)
  refine listSection_adds 6
    (fun globals => { s with module := { s.module with globals := globals } })
    (fun _ => rfl) hwhole (fun h => ?_) hfits.globals
  rw [h, List.map_nil, ← hs]

theorem exports_adds (hfits : a.Fits) (hs : s.module.exports = []) :
    s.Adds (listSection 7 Export.encode a.exports)
      { s with module := { s.module with exports := a.exports.map Export.meaning } } := by
  have hwhole := vector_whole hfits.exports (fun e _ => by simp [Export.encode])
    fun e _ hsize => export_decodes hsize
  refine listSection_adds 7
    (fun exports => { s with module := { s.module with exports := exports } })
    (fun _ => rfl) hwhole (fun h => ?_) hfits.exports
  rw [h, List.map_nil, ← hs]

theorem bodies_adds (hfits : a.Fits) (hs : s.bodies = []) :
    s.Adds (listSection 10 Func.encode a.funcs)
      { s with bodies := a.funcs.map fun f => ([], f.code) } := by
  have hwhole := vector_whole hfits.bodies (fun f _ => by simp [Func.encode])
    fun f _ hsize => func_decodes hsize
  refine listSection_adds 10 (fun bodies => { s with bodies := bodies })
    (fun _ => rfl) hwhole (fun h => ?_) hfits.bodies
  rw [h, List.map_nil, ← hs]

end Sections

/-- The local functions, put together from their section of types and their section of bodies. -/
theorem zipWith_bodies (a : Assembly) :
    List.zipWith (fun t (b : List ValType × List Instr) =>
        ({ typeIndex := t, locals := b.1, code := b.2 } : Wasm.Func))
      a.typeIndices (a.funcs.map fun f => ([], f.code)) = a.meaning.funcs := by
  apply List.ext_getElem
  · simp [typeIndices, meaning]
  · intro i hi hi'
    simp [typeIndices, meaning]

theorem decode?_encode {a : Assembly} (hnumeric : a.Numeric) (hfits : a.Fits) :
    Module.decode? a.encode = some a.meaning := by
  simp only [encode, List.append_assoc]
  refine Module.decode?_of_adds ((types_adds hnumeric hfits rfl).append <|
    (imports_adds hfits rfl).append <| (typeIndices_adds hfits rfl).append <|
    (globals_adds hnumeric hfits rfl).append <| (exports_adds hfits rfl).append <|
    bodies_adds hfits rfl) ?_
  rw [Sections.toModule?, if_pos (by simp [typeIndices]), zipWith_bodies]
  rfl

/-! ## What the decoded module holds -/

def FuncImport.function (i : FuncImport) : Function := .imported i.module i.name i.type

def Func.function (f : Func) : Function := .defined f.type [] f.code

/-- The entry of the import section that asks for a memory. -/
def MemoryImport.entry (m : MemoryImport) : Import where
  module := m.module
  name := m.name
  desc := .memory
    { min := m.min.toUInt64, max := some m.max.toUInt64, shared := m.shared, memory64 := false }

/-- The entry of the import section that asks for function `i`, which has type `i`. -/
def FuncImport.entry (i : Nat) (f : FuncImport) : Import where
  module := f.module
  name := f.name
  desc := .func i.toUInt32

theorem entries_eq (a : Assembly) :
    a.entries = a.imports.mapIdx FuncImport.entry ++ a.memory.toList.map MemoryImport.entry :=
  rfl

theorem imported_meaning {a : Assembly} (hfits : a.Fits) :
    a.entries.filterMap (Import.function? a.types) =
      (a.imports.map FuncImport.function).map some := by
  have hfuncs : (a.imports.mapIdx FuncImport.entry).filterMap (Import.function? a.types) =
      a.imports.mapIdx fun _ f => some f.function := by
    refine filterMap_mapIdx fun i f hf => ?_
    obtain ⟨hi, rfl⟩ := List.getElem?_eq_some_iff.1 hf
    have hcount := hfits.types_lt
    have hindex : i.toUInt32.toNat = i := UInt32.toNat_ofNat_of_lt (by omega)
    have htype : a.types[i]? = some a.imports[i].type := by
      simp [types, List.getElem?_append_left, hi]
    simp [Import.function?, FuncImport.entry, hindex, htype, FuncImport.function]
  have hmemory :
      (a.memory.toList.map MemoryImport.entry).filterMap (Import.function? a.types) = [] := by
    cases a.memory <;> rfl
  rw [entries_eq, List.filterMap_append, hfuncs, hmemory, List.append_nil]
  apply List.ext_getElem <;> simp

theorem defined_meaning (a : Assembly) :
    a.meaning.funcs.map (fun f => (a.types[f.typeIndex]?).map (.defined · f.locals f.code)) =
      (a.funcs.map Func.function).map some := by
  apply List.ext_getElem
  · simp [meaning]
  · intro i hi hi'
    have hlt : i < a.funcs.length := by simpa using hi'
    have htype : a.types[a.imports.length + i]? = some a.funcs[i].type := by simp [types, hlt]
    simp [meaning, htype, Func.function]

theorem functions_meaning {a : Assembly} (hfits : a.Fits) :
    a.meaning.functions =
      (a.imports.map FuncImport.function ++ a.funcs.map Func.function).map some := by
  rw [List.map_append, ← imported_meaning hfits, ← defined_meaning]
  rfl

theorem others_meaning (a : Assembly) :
    a.meaning.imports.filter (·.desc.kind ≠ 0) = a.memory.toList.map MemoryImport.entry := by
  have hfuncs : (a.imports.mapIdx FuncImport.entry).filter (·.desc.kind ≠ 0) = [] := by
    simp only [List.filter_eq_nil_iff, List.mem_mapIdx]
    rintro _ ⟨i, hi, rfl⟩
    simp [FuncImport.entry, Import.Desc.kind]
  rw [show a.meaning.imports = a.entries from rfl, entries_eq, List.filter_append, hfuncs]
  cases a.memory <;> rfl

/-! ## Declarations -/

namespace Declaration

@[simp]
def import? : Declaration → Option FuncImport
  | .importFunc i => some i
  | _ => none

@[simp]
def memory? : Declaration → Option MemoryImport
  | .importMemory m => some m
  | _ => none

@[simp]
def global? : Declaration → Option Global
  | .global g => some g
  | _ => none

@[simp]
def func? : Declaration → Option Func
  | .func f => some f
  | _ => none

@[simp]
def export? : Declaration → Option Export
  | .exportFunc name index => some { kind := .func, name := name, index := index }
  | .exportGlobal name index => some { kind := .global, name := name, index := index }
  | _ => none

/-- The function that is declared, be it imported or not. -/
def function? (d : Declaration) : Option Function :=
  (d.import?.map FuncImport.function).or (d.func?.map Func.function)

end Declaration

/-- What a declaration that is taken in does to an assembly. -/
structure Grows (a : Assembly) (d : Declaration) (index : Option UInt32) (a' : Assembly) :
    Prop where
  imports : a'.imports = a.imports ++ d.import?.toList
  memory : a'.memory = d.memory?.or a.memory
  globals : a'.globals = a.globals ++ d.global?.toList
  funcs : a'.funcs = a.funcs ++ d.func?.toList
  exports : a'.exports = a.exports ++ d.export?.toList
  early : d.import?.isSome → a.funcs = []
  function : d.function?.isSome → index = some (a.imports.length + a.funcs.length).toUInt32
  global : d.global?.isSome → index = some a.globals.length.toUInt32
  other : d.function? = none → d.global? = none → index = none

theorem declare_grows {a a' : Assembly} {d : Declaration} {index : Option UInt32}
    (h : a.declare d = .ok (index, a')) : a.Grows d index a' := by
  cases d with
  | importFunc i =>
    by_cases hearly : a.funcs = []
    · have hok : a.declare (.importFunc i) =
          .ok (some a.imports.length.toUInt32, { a with imports := a.imports ++ [i] }) := by
        simp [declare, hearly]
      cases hok.symm.trans h
      constructor <;> simp [hearly, Declaration.function?]
    · simp [declare, hearly] at h
  | importMemory _ | global _ | func _ | exportFunc _ _ | exportGlobal _ _ =>
    cases h
    constructor <;> simp [Declaration.function?]

/-- What was declared so far is what the assembly lists. -/
structure Lists (a : Assembly) (ds : List Declaration) : Prop where
  imports : a.imports = ds.filterMap Declaration.import?
  memory : a.memory = (ds.filterMap Declaration.memory?).getLast?
  globals : a.globals = ds.filterMap Declaration.global?
  funcs : a.funcs = ds.filterMap Declaration.func?
  exports : a.exports = ds.filterMap Declaration.export?

theorem filterMap_concat {α β : Type} (f : α → Option β) (as : List α) (a : α) :
    (as ++ [a]).filterMap f = as.filterMap f ++ (f a).toList := by
  cases h : f a <;> simp [h]

theorem Lists.grow {a a' : Assembly} {ds : List Declaration} {d : Declaration}
    {index : Option UInt32} (h : a.Lists ds) (hd : a.Grows d index a') : a'.Lists (ds ++ [d]) where
  imports := by rw [hd.imports, h.imports, filterMap_concat]
  memory := by
    rw [hd.memory, h.memory, filterMap_concat, List.getLast?_append]
    cases d.memory? <;> rfl
  globals := by rw [hd.globals, h.globals, filterMap_concat]
  funcs := by rw [hd.funcs, h.funcs, filterMap_concat]
  exports := by rw [hd.exports, h.exports, filterMap_concat]

/-- What the declarations yield under `f`, each with the number of its declaration. -/
def numbered {α : Type} (f : Declaration → Option α) (ds : List Declaration) : List (α × Nat) :=
  ds.zipIdx.filterMap fun e => (f e.1).map (·, e.2)

theorem numbered_concat {α : Type} (f : Declaration → Option α) (ds : List Declaration)
    (d : Declaration) :
    numbered f (ds ++ [d]) = numbered f ds ++ ((f d).map (·, ds.length)).toList := by
  rw [numbered, List.zipIdx_append, List.zipIdx_singleton, filterMap_concat, Nat.zero_add]
  rfl

theorem map_fst_numbered {α : Type} (f : Declaration → Option α) (ds : List Declaration) :
    (numbered f ds).map Prod.fst = ds.filterMap f := by
  induction ds using List.reverseRecOn with
  | nil => rfl
  | append_singleton ds d ih =>
    rw [numbered_concat, List.map_append, ih, filterMap_concat]
    cases f d <;> rfl

/-- The declared functions in order of their indices: the imports come first. -/
def functionsOf (ds : List Declaration) : List (Function × Nat) :=
  (numbered Declaration.import? ds).map (Prod.map FuncImport.function id) ++
    (numbered Declaration.func? ds).map (Prod.map Func.function id)

def globalsOf (ds : List Declaration) : List (Wasm.Global × Nat) :=
  (numbered Declaration.global? ds).map (Prod.map Global.meaning id)

theorem functionsOf_concat {ds : List Declaration} {d : Declaration}
    (h : d.import?.isSome → ds.filterMap Declaration.func? = []) :
    functionsOf (ds ++ [d]) = functionsOf ds ++ (d.function?.map (·, ds.length)).toList := by
  simp only [functionsOf, numbered_concat, List.map_append]
  cases d with
  | importFunc i =>
    have hfuncs : numbered Declaration.func? ds = [] := by
      rw [← List.map_eq_nil_iff, map_fst_numbered, h rfl]
    simp [hfuncs, Declaration.function?]
  | func _ | importMemory _ | global _ | exportFunc _ _ | exportGlobal _ _ =>
    simp [Declaration.function?]

theorem globalsOf_concat (ds : List Declaration) (d : Declaration) :
    globalsOf (ds ++ [d]) =
      globalsOf ds ++ (d.global?.map fun g => (g.meaning, ds.length)).toList := by
  rw [globalsOf, numbered_concat, List.map_append]
  cases d.global? <;> rfl

theorem map_fst_functionsOf (ds : List Declaration) :
    (functionsOf ds).map Prod.fst = (ds.filterMap Declaration.import?).map FuncImport.function ++
      (ds.filterMap Declaration.func?).map Func.function := by
  rw [← map_fst_numbered, ← map_fst_numbered, functionsOf]
  simp only [List.map_append, List.map_map]
  rfl

theorem map_fst_globalsOf (ds : List Declaration) :
    (globalsOf ds).map Prod.fst = (ds.filterMap Declaration.global?).map Global.meaning := by
  rw [← map_fst_numbered, globalsOf]
  simp

theorem Lists.functionsOf_length {a : Assembly} {ds : List Declaration} (h : a.Lists ds) :
    (functionsOf ds).length = a.imports.length + a.funcs.length := by
  rw [← List.length_map Prod.fst, map_fst_functionsOf, ← h.imports, ← h.funcs]
  simp

theorem Lists.globalsOf_length {a : Assembly} {ds : List Declaration} (h : a.Lists ds) :
    (globalsOf ds).length = a.globals.length := by
  rw [← List.length_map Prod.fst, map_fst_globalsOf, ← h.globals, List.length_map]

/-- The index, as a number of 32 bits, of the entry that comes from declaration `p`. -/
def Places {α : Type} (entries : List (α × Nat)) (p : Nat) (index : Option UInt32) : Prop :=
  ∃ n : Nat, ∃ a, entries[n]? = some (a, p) ∧ index = some n.toUInt32

theorem Places.append {α : Type} {entries : List (α × Nat)} {p : Nat} {index : Option UInt32}
    (h : Places entries p index) (more : List (α × Nat)) : Places (entries ++ more) p index := by
  obtain ⟨n, a, hn, hindex⟩ := h
  refine ⟨n, a, ?_, hindex⟩
  rw [List.getElem?_append_left (List.getElem?_eq_some_iff.1 hn).1, hn]

theorem places_last {α : Type} (entries : List (α × Nat)) (a : α) (p : Nat) :
    Places (entries ++ [(a, p)]) p (some entries.length.toUInt32) :=
  ⟨entries.length, a, List.getElem?_concat_length, rfl⟩

/-- What the index of a declaration stands for after the declarations `ds`. -/
structure Indexed (ds : List Declaration) (d : Declaration × Nat) (index : Option UInt32) :
    Prop where
  function : d.1.function?.isSome → Places (functionsOf ds) d.2 index
  global : d.1.global?.isSome → Places (globalsOf ds) d.2 index
  other : d.1.function? = none → d.1.global? = none → index = none

theorem Lists.indexed {a a' : Assembly} {ds : List Declaration} {d : Declaration}
    {index : Option UInt32} (h : a.Lists ds) (hd : a.Grows d index a') :
    Indexed (ds ++ [d]) (d, ds.length) index where
  function hfunction := by
    obtain ⟨f, hf⟩ := Option.isSome_iff_exists.1 hfunction
    rw [functionsOf_concat (fun hi => h.funcs ▸ hd.early hi), hf, hd.function hfunction,
      ← h.functionsOf_length]
    exact places_last _ f _
  global hglobal := by
    obtain ⟨g, hg⟩ := Option.isSome_iff_exists.1 hglobal
    rw [globalsOf_concat, hg, hd.global hglobal, ← h.globalsOf_length]
    exact places_last _ g.meaning _
  other := hd.other

theorem Indexed.grow {a a' : Assembly} {ds : List Declaration} {d : Declaration}
    {e : Declaration × Nat} {index index' : Option UInt32} (he : Indexed ds e index')
    (h : a.Lists ds) (hd : a.Grows d index a') : Indexed (ds ++ [d]) e index' where
  function hfunction := by
    rw [functionsOf_concat fun hi => h.funcs ▸ hd.early hi]
    exact (he.function hfunction).append _
  global hglobal := by
    rw [globalsOf_concat]
    exact (he.global hglobal).append _
  other := he.other

/-- The indices given so far, and the declarations they belong to. -/
def AllIndexed (ds : List Declaration) (indices : List (Option UInt32)) : Prop :=
  List.Forall₂ (Indexed ds) ds.zipIdx indices

theorem AllIndexed.grow {a a' : Assembly} {ds : List Declaration} {d : Declaration}
    {index : Option UInt32} {indices : List (Option UInt32)} (hi : AllIndexed ds indices)
    (h : a.Lists ds) (hd : a.Grows d index a') : AllIndexed (ds ++ [d]) (indices ++ [index]) := by
  rw [AllIndexed, List.zipIdx_append, List.zipIdx_singleton, Nat.zero_add]
  refine List.rel_append (hi.imp fun _ _ he => he.grow h hd) (.cons (h.indexed hd) .nil)

theorem declareAll_cons {a a' : Assembly} {d : Declaration} {ds : List Declaration}
    {indices : List (Option UInt32)} (h : a.declareAll (d :: ds) = .ok (indices, a')) :
    ∃ index indices' a₁, a.declare d = .ok (index, a₁) ∧
      a₁.declareAll ds = .ok (indices', a') ∧ indices = index :: indices' := by
  rw [declareAll] at h
  cases hd : a.declare d with
  | error e =>
    rw [hd] at h
    cases h
  | ok r =>
    obtain ⟨index, a₁⟩ := r
    cases hrest : a₁.declareAll ds with
    | error e => simp [hd, hrest, bind, Except.bind] at h
    | ok r =>
      obtain ⟨indices', a₂⟩ := r
      simp only [hd, hrest, bind, Except.bind, pure, Except.pure, Except.ok.injEq,
        Prod.mk.injEq] at h
      obtain ⟨rfl, rfl⟩ := h
      exact ⟨index, indices', a₁, rfl, hrest, rfl⟩

theorem declareAll_lists {a a' : Assembly} {ds ds' : List Declaration}
    {indices indices' : List (Option UInt32)} (h : a.Lists ds) (hi : AllIndexed ds indices)
    (hok : a.declareAll ds' = .ok (indices', a')) :
    a'.Lists (ds ++ ds') ∧ AllIndexed (ds ++ ds') (indices ++ indices') := by
  induction ds' generalizing a ds indices indices' with
  | nil =>
    cases hok
    simpa using ⟨h, hi⟩
  | cons d ds' ih =>
    obtain ⟨index, indices₁, a₁, hd, hrest, rfl⟩ := declareAll_cons hok
    have hgrows := declare_grows hd
    simpa using ih (h.grow hgrows) (hi.grow h hgrows) hrest

/-- The index stands for the entry that comes from declaration `p`. -/
def Denotes {α : Type} (entries : List (α × Nat)) (p : Nat) (index : Option UInt32) : Prop :=
  ∃ i a, index = some i ∧ entries[i.toNat]? = some (a, p)

theorem Places.denotes {α : Type} {entries : List (α × Nat)} {p : Nat} {index : Option UInt32}
    (h : Places entries p index) (hsize : entries.length < UInt32.size) :
    Denotes entries p index := by
  obtain ⟨n, a, hn, hindex⟩ := h
  refine ⟨n.toUInt32, a, hindex, ?_⟩
  have hlt := (List.getElem?_eq_some_iff.1 hn).1
  rw [← hn, show n.toUInt32.toNat = n from UInt32.toNat_ofNat_of_lt (by omega)]

/-- Function types are numeric, and globals hold integers. -/
def Declaration.Numeric : Declaration → Prop
  | .importFunc i => i.type.Numeric
  | .func f => f.type.Numeric
  | .global g => g.type = .i32 ∨ g.type = .i64
  | _ => True

theorem Lists.numeric {a : Assembly} {ds : List Declaration} (h : a.Lists ds)
    (hnumeric : ∀ d ∈ ds, d.Numeric) : a.Numeric where
  types t ht := by
    rw [types, h.imports, h.funcs] at ht
    simp only [List.mem_append, List.mem_map, List.mem_filterMap] at ht
    obtain ⟨i, ⟨d, hd, hi⟩, rfl⟩ | ⟨f, ⟨d, hd, hf⟩, rfl⟩ := ht
    · cases d with
      | importFunc i' =>
        cases hi
        exact hnumeric _ hd
      | _ => cases hi
    · cases d with
      | func f' =>
        cases hf
        exact hnumeric _ hd
      | _ => cases hf
  globals g hg := by
    rw [h.globals] at hg
    obtain ⟨d, hd, hg⟩ := List.mem_filterMap.1 hg
    cases d with
    | global g' =>
      cases hg
      exact hnumeric _ hd
    | _ => cases hg

/-- What the index that a declaration gets stands for: the very function or global it declared. -/
structure Denoted (ds : List Declaration) (d : Declaration × Nat) (index : Option UInt32) :
    Prop where
  function : d.1.function?.isSome → Denotes (functionsOf ds) d.2 index
  global : d.1.global?.isSome → Denotes (globalsOf ds) d.2 index
  other : d.1.function? = none → d.1.global? = none → index = none

/-- A module is what the declarations say, no more and no less, and the indices are its own. -/
structure Declared (ds : List Declaration) (indices : List (Option UInt32)) (m : Module) :
    Prop where
  functions : m.functions = (functionsOf ds).map fun f => some f.1
  memory : m.imports.filter (·.desc.kind ≠ 0) =
    (ds.filterMap Declaration.memory?).getLast?.toList.map MemoryImport.entry
  globals : m.globals = (globalsOf ds).map Prod.fst
  exports : m.exports = (ds.filterMap Declaration.export?).map Export.meaning
  tables : m.tables = []
  memories : m.memories = []
  start : m.start = none
  indices : List.Forall₂ (Denoted ds) ds.zipIdx indices

theorem Lists.declared {a : Assembly} {ds : List Declaration} {indices : List (Option UInt32)}
    (h : a.Lists ds) (hfits : a.Fits) (hindices : AllIndexed ds indices) :
    Declared ds indices a.meaning where
  functions := by
    rw [functions_meaning hfits, h.imports, h.funcs, ← map_fst_functionsOf, List.map_map]
    rfl
  memory := by rw [others_meaning, h.memory]
  globals := by rw [map_fst_globalsOf, ← h.globals]; rfl
  exports := by rw [← h.exports]; rfl
  tables := rfl
  memories := rfl
  start := rfl
  indices := by
    have hfunctions := hfits.types_lt
    have hglobals := hfits.globals_lt
    rw [← h.functionsOf_length] at hfunctions
    rw [← h.globalsOf_length] at hglobals
    refine hindices.imp fun e index he => ⟨fun hf => ?_, fun hg => ?_, he.other⟩
    · exact (he.function hf).denotes hfunctions
    · exact (he.global hg).denotes hglobals

theorem listSection_laidOut {β : Type} {item : β → Bytes} {items : List β} (id : UInt8)
    (hsize : (vector item items).length < UInt32.size) :
    LaidOutAmong [id] (listSection id item items) := by
  unfold listSection
  split
  · exact laidOutAmong_nil _
  · exact laidOutAmong_section id hsize

theorem encode_inOrder {a : Assembly} (hfits : a.Fits) : Module.InOrder a.encode := by
  rw [encode]
  simp only [List.append_assoc]
  refine LaidOutAmong.inOrder ((listSection_laidOut 1 hfits.types).append <|
    (listSection_laidOut 2 hfits.imports).append <| (listSection_laidOut 3 hfits.funcs).append <|
    (listSection_laidOut 6 hfits.globals).append <| (listSection_laidOut 7 hfits.exports).append <|
    listSection_laidOut 10 hfits.bodies) (by decide)

/-- The binary of an assembled module has its sections in order. It decodes to just what was
declared, and the index that a function or a global got denotes it in the decoded module. -/
theorem encode_decodes_to_declared {ds : List Declaration} {indices : List (Option UInt32)}
    {a : Assembly} (h : declareAll {} ds = .ok (indices, a)) (hnumeric : ∀ d ∈ ds, d.Numeric)
    (hfits : a.Fits) :
    Module.InOrder a.encode ∧ ∃ m, Module.decode? a.encode = some m ∧ Declared ds indices m := by
  have hempty : Assembly.Lists {} [] := ⟨rfl, rfl, rfl, rfl, rfl⟩
  obtain ⟨hlists, hindices⟩ := declareAll_lists hempty .nil h
  exact ⟨encode_inOrder hfits, a.meaning, decode?_encode (hlists.numeric hnumeric) hfits,
    hlists.declared hfits hindices⟩

/-- A guest that imports a function, asks for its memory twice, and counts in a global whose initial
value is cut to 32 bits. -/
def counter : List Declaration :=
  [.importFunc { module := "env", name := "post", type := { params := [.i32, .i64] } },
    .importMemory { module := "env", name := "memory", min := 1, max := 2, shared := false },
    .global { type := .i32, mutable := true, init := 0x1fffffff0 },
    .importMemory { module := "env", name := "memory", min := 2, max := 16, shared := true },
    .func { type := { results := [.i32] }, code := [.i32Const (-70), .globalGet 0, .i32Add] },
    .func { type := {}, code := [.call 1, .globalSet 0] },
    .exportFunc "count" 2,
    .exportGlobal "counter" 0]

theorem counter_reads_back :
    ∃ a, declareAll {} counter =
        .ok ([some 0, none, some 0, none, some 1, some 2, none, none], a) ∧
      Module.InOrder a.encode ∧ ∃ m, Module.decode? a.encode = some m ∧
        Declared counter [some 0, none, some 0, none, some 1, some 2, none, none] m := by
  refine ⟨_, rfl, encode_decodes_to_declared rfl ?_ ?_⟩
  · simp [counter, Declaration.Numeric, FuncType.Numeric, ValType.numeric]
  · constructor <;> decide +kernel

end Assembly

end GuestThreads.Wasm
