import GuestThreads.Proofs.Reading
import GuestThreads.Wasm.Decoder

/-!
# What decoders make of bytes

`Decodes d bs a` says that `d` takes just `bs` off the front of any bytes and makes `a` of them.
Decoders in a row decode bytes in a row. What the encoders write is decoded to what was written, as
long as its sizes fit in 32 bits.
-/

namespace GuestThreads.Wasm

variable {α β : Type}

/-- With `bs` in front, `d` yields `a` and leaves what follows. -/
def Decodes (d : Decoder α) (bs : Bytes) (a : α) : Prop := ∀ rest, d (bs ++ rest) = some (a, rest)

namespace Decodes

variable {d : Decoder α} {f : α → Decoder β} {bs bs' : Bytes} {a : α} {b : β}

theorem value (a : α) : Decodes (pure a) [] a := fun _ => rfl

theorem bind (hd : Decodes d bs a) (hf : Decodes (f a) bs' b) :
    Decodes (d >>= f) (bs ++ bs') b := by
  intro rest
  change (d (bs ++ bs' ++ rest)).bind (fun p => f p.1 p.2) = _
  rw [List.append_assoc, hd (bs' ++ rest)]
  exact hf rest

/-- What is done with the value at once takes nothing. -/
theorem andThen (hd : Decodes d bs a) (hf : Decodes (f a) [] b) : Decodes (d >>= f) bs b := by
  have h := hd.bind hf
  rwa [List.append_nil] at h

theorem yield (hd : Decodes d bs a) (g : α → β) : Decodes (do return g (← d)) bs (g a) :=
  hd.andThen (value _)

theorem map (hd : Decodes d bs a) (g : α → β) : Decodes (g <$> d) bs (g a) := by
  intro rest
  change (d (bs ++ rest)).bind (fun p => some (g p.1, p.2)) = _
  rw [hd rest]
  rfl

theorem whole (hd : Decodes d bs a) : d.whole bs = some a := by
  have h := hd []
  rw [List.append_nil] at h
  rw [Decoder.whole, h]

end Decodes

/-- Small numbers take a single byte. -/
theorem unsigned_of_lt {n : Nat} (h : n < 128) : Leb128.unsigned n = [n.toUInt8] := by
  rw [Leb128.unsigned, if_pos h]

theorem unsigned_ne_nil (n : Nat) : Leb128.unsigned n ≠ [] := by
  rw [Leb128.unsigned]
  split <;> exact List.cons_ne_nil _ _

namespace Decoder

/-! ## Primitives -/

theorem byte_decodes (b : UInt8) : Decodes byte [b] b := fun _ => rfl

theorem expect_decodes (b : UInt8) : Decodes (expect b) [b] () := by
  refine (byte_decodes b).andThen ?_
  rw [if_pos rfl]
  exact .value ()

theorem take_decodes (bs : Bytes) : Decodes (take bs.length) bs bs := by
  intro rest
  have hroom : ¬(bs ++ rest).length < bs.length := by
    rw [List.length_append]
    omega
  rw [take, if_neg hroom, List.take_left, List.drop_left]

theorem unsigned_decodes {groups n : Nat} {bs : Bytes} (h : Leb128.Spelled groups n bs) :
    Decodes (unsigned groups) bs n := by
  induction h with
  | last b h =>
    refine (byte_decodes b).andThen ?_
    rw [if_pos h]
    exact .value _
  | @more groups n bs b h _ ih =>
    refine (byte_decodes b).bind (?_ : Decodes _ bs _)
    rw [if_neg (by omega)]
    exact ih.andThen (.value _)

theorem u32_decodes {n : Nat} {bs : Bytes} (h : Leb128.Spelled32 n bs) :
    Decodes u32 bs n.toUInt32 := by
  refine (unsigned_decodes h.spelled).andThen ?_
  rw [if_pos h.lt]
  exact .value _

theorem ofUInt32_decodes (v : UInt32) : Decodes u32 (Leb128.ofUInt32 v) v := by
  have h := u32_decodes (Leb128.spelled32_unsigned v.toNat_lt)
  rwa [Nat.toUInt32, UInt32.ofNat_toNat] at h

theorem index_decodes {n : Nat} (h : n < UInt32.size) : Decodes index (Leb128.unsigned n) n := by
  have hn := (u32_decodes (Leb128.spelled32_unsigned h)).yield UInt32.toNat
  rwa [show n.toUInt32.toNat = n from UInt32.toNat_ofNat_of_lt h] at hn

/-- The last group of a signed number carries its sign. -/
theorem signed_decodes_last {groups : Nat} {v : Int} (hlow : -64 ≤ v) (hhigh : v < 64) :
    Decodes (signed (groups + 1)) [(v % 128).toNat.toUInt8] v := by
  have hbyte : (v % 128).toNat.toUInt8.toNat = (v % 128).toNat := by simp; omega
  refine (byte_decodes _).andThen ?_
  rw [hbyte]
  by_cases hsign : 0 ≤ v
  · rw [if_pos (by omega), show ((v % 128).toNat : Int) = v by omega]
    exact .value v
  · rw [if_neg (by omega), if_pos (by omega), show ((v % 128).toNat : Int) - 128 = v by omega]
    exact .value v

theorem signed_decodes {groups : Nat} {v : Int} (hlow : -(64 * 128 ^ groups) ≤ v)
    (hhigh : v < 64 * 128 ^ groups) : Decodes (signed (groups + 1)) (Leb128.signed v) v := by
  induction groups generalizing v with
  | zero =>
    rw [Leb128.signed, if_pos (by omega)]
    exact signed_decodes_last (by omega) (by omega)
  | succ groups ih =>
    rw [Leb128.signed]
    split
    · exact signed_decodes_last (by omega) (by omega)
    · have hbyte : (v % 128 + 128).toNat.toUInt8.toNat = (v % 128 + 128).toNat := by simp; omega
      rw [pow_succ] at hlow hhigh
      have hrest : Decodes (signed (groups + 1)) (Leb128.signed (v / 128)) (v / 128) :=
        ih (by omega) (by omega)
      refine (byte_decodes _).bind (?_ : Decodes _ (Leb128.signed (v / 128)) v)
      rw [hbyte, if_neg (by omega), if_neg (by omega)]
      have hv : ((v % 128 + 128).toNat : Int) - 128 + 128 * (v / 128) = v := by omega
      have hsum := hrest.yield fun high => ((v % 128 + 128).toNat : Int) - 128 + 128 * high
      rwa [hv] at hsum

theorem s32_decodes (v : Int32) : Decodes s32 (Leb128.ofInt32 v) v := by
  have hlow : -0x80000000 ≤ v.toInt := v.le_toInt
  have hhigh : v.toInt < 0x80000000 := v.toInt_lt
  have hsigned : Decodes (signed (4 + 1)) (Leb128.signed v.toInt) v.toInt :=
    signed_decodes (by omega) (by omega)
  refine hsigned.andThen ?_
  rw [if_pos (by omega), Int32.ofInt_toInt]
  exact .value v

theorem s64_decodes (v : Int64) : Decodes s64 (Leb128.ofInt64 v) v := by
  have hlow : -0x8000000000000000 ≤ v.toInt := v.le_toInt
  have hhigh : v.toInt < 0x8000000000000000 := v.toInt_lt
  have hsigned : Decodes (signed (9 + 1)) (Leb128.signed v.toInt) v.toInt :=
    signed_decodes (by omega) (by omega)
  refine hsigned.andThen ?_
  rw [if_pos (by omega), Int64.ofInt_toInt]
  exact .value v

theorem name_decodes {s : String} (h : (Bytes.ofString s).length < UInt32.size) :
    Decodes name (encodeName s) s := by
  refine (index_decodes h).bind ?_
  refine (take_decodes (Bytes.ofString s)).andThen ?_
  rw [Cursor.toString?_ofString]
  exact .value s

/-! ## Lists -/

variable {d : Decoder α} {item : β → Bytes} {g : β → α} {items : List β}

theorem repeated_decodes (h : ∀ b ∈ items, Decodes d (item b) (g b)) :
    Decodes (repeated d items.length) (items.flatMap item) (items.map g) := by
  induction items with
  | nil => exact .value []
  | cons b items ih =>
    rw [List.flatMap_cons]
    refine (h b (by simp)).bind ?_
    exact (ih fun c hc => h c (by simp [hc])).yield (g b :: ·)

theorem vector_decodes (hcount : items.length < UInt32.size)
    (h : ∀ b ∈ items, Decodes d (item b) (g b)) :
    Decodes (vector d) (Wasm.vector item items) (items.map g) :=
  (index_decodes hcount).bind (repeated_decodes h)

/-- Items that take up a byte at least are read until the bytes end. -/
theorem exhaust_flatMap (h : ∀ b ∈ items, Decodes d (item b) (g b))
    (hpos : ∀ b ∈ items, item b ≠ [])
    {limit : Nat} (hlimit : (items.flatMap item).length ≤ limit) :
    exhaust d limit (items.flatMap item) = some (items.map g) := by
  induction items generalizing limit with
  | nil => cases limit <;> rfl
  | cons b items ih =>
    obtain ⟨first, others, hb⟩ := List.exists_cons_of_ne_nil (hpos b (by simp))
    have hrest := h b (by simp) (items.flatMap item)
    rw [List.flatMap_cons, hb] at hlimit ⊢
    rw [hb] at hrest
    cases limit with
    | zero => simp at hlimit
    | succ limit =>
      have hshorter : (items.flatMap item).length ≤ limit := by
        simp only [List.length_append, List.length_cons] at hlimit
        omega
      have hothers := ih (fun c hc => h c (by simp [hc])) (fun c hc => hpos c (by simp [hc]))
        hshorter
      change ((d (first :: others ++ _)).bind fun p => (exhaust d limit p.2).bind fun as =>
        some (p.1 :: as)) = _
      rw [hrest, Option.bind_some, hothers]
      rfl

end Decoder

/-! ## Sizes -/

/-- What is written of a list is as long as its items are at least. -/
theorem mul_length_le_vector {item : β → Bytes} {items : List β} {k : Nat}
    (h : ∀ b ∈ items, k ≤ (item b).length) : k * items.length ≤ (vector item items).length := by
  have hflat : k * items.length ≤ (items.flatMap item).length := by
    induction items with
    | nil => exact Nat.le_refl _
    | cons b items ih =>
      have hb := h b (by simp)
      have hrest := ih fun c hc => h c (by simp [hc])
      simp only [List.flatMap_cons, List.length_append, List.length_cons, Nat.mul_succ]
      omega
  rw [vector, List.length_append]
  omega

theorem length_le_vector {item : β → Bytes} {items : List β} (h : ∀ b ∈ items, item b ≠ []) :
    items.length ≤ (vector item items).length := by
  have hpos := mul_length_le_vector (k := 1) fun b hb => List.length_pos_iff.2 (h b hb)
  rwa [Nat.one_mul] at hpos

/-- Every item is part of what is written of the list. -/
theorem length_item_le_vector (item : β → Bytes) {items : List β} {b : β} (h : b ∈ items) :
    (item b).length ≤ (vector item items).length := by
  have hpart := (List.sublist_flatten_of_mem
    (List.mem_map_of_mem h : item b ∈ items.map item)).length_le
  rw [vector, List.length_append, List.flatMap_def]
  omega

/-- What is decoded of a list that fits in a section. -/
theorem vector_whole {d : Decoder α} {item : β → Bytes} {g : β → α} {items : List β}
    (hsize : (vector item items).length < UInt32.size) (hpos : ∀ b ∈ items, item b ≠ [])
    (h : ∀ b ∈ items, (item b).length < UInt32.size → Decodes d (item b) (g b)) :
    (Decoder.vector d).whole (vector item items) = some (items.map g) := by
  have hcount := Nat.lt_of_le_of_lt (length_le_vector hpos) hsize
  refine (Decoder.vector_decodes hcount fun b hb => h b hb ?_).whole
  exact Nat.lt_of_le_of_lt (length_item_le_vector item hb) hsize

/-! ## Types -/

/-- The types that the encoders have a byte of their own for. -/
def ValType.numeric : ValType → Bool
  | .i32 | .i64 | .f32 | .f64 => true
  | .v128 | .funcref | .externref => false

def FuncType.Numeric (t : FuncType) : Prop := ∀ v ∈ t.params ++ t.results, v.numeric = true

instance : DecidablePred FuncType.Numeric := fun t =>
  inferInstanceAs (Decidable (∀ v ∈ t.params ++ t.results, v.numeric = true))

namespace Decoder

theorem valType_decodes {v : ValType} (h : v.numeric = true) : Decodes valType [v.code] v := by
  cases v with
  | i32 | i64 | f32 | f64 => exact (byte_decodes _).andThen (.value _)
  | v128 | funcref | externref => cases h

theorem valTypes_decodes {vs : List ValType} (h : ∀ v ∈ vs, v.numeric = true)
    (hsize : (Wasm.vector (fun v : ValType => [v.code]) vs).length < UInt32.size) :
    Decodes (vector valType) (Wasm.vector (fun v => [v.code]) vs) vs := by
  have hcount := Nat.lt_of_le_of_lt (length_le_vector fun v _ => List.cons_ne_nil v.code []) hsize
  have hvector := vector_decodes (g := id) hcount fun v hv => valType_decodes (h v hv)
  rwa [List.map_id] at hvector

theorem funcType_decodes {t : FuncType} (h : t.Numeric) (hsize : t.encode.length < UInt32.size) :
    Decodes funcType t.encode t := by
  simp only [FuncType.encode, List.length_cons, List.length_append] at hsize
  refine (expect_decodes 0x60).bind (?_ : Decodes _ (_ ++ _) _)
  refine (valTypes_decodes (fun v hv => h v (by simp [hv])) (by omega)).bind ?_
  exact (valTypes_decodes (fun v hv => h v (by simp [hv])) (by omega)).yield (FuncType.mk t.params)

theorem ofUInt64_decodes (v : UInt32) : Decodes u32 (Leb128.ofUInt64 v.toUInt64) v := by
  rw [Leb128.ofUInt64, UInt32.toNat_toUInt64]
  exact ofUInt32_decodes v

/-- The limits of a memory that states its maximum. -/
theorem limits_decodes (min max : UInt32) (shared : Bool) :
    Decodes limits (Limits.ofPages min max true shared).encode (.ofPages min max true shared) := by
  cases shared <;>
  · refine (byte_decodes _).bind (?_ : Decodes _ (_ ++ _) _)
    refine (ofUInt64_decodes min).bind ?_
    exact ((ofUInt64_decodes max).map some).andThen (.value _)

/-! ## Entries -/

/-- The imports that assemblers write: functions, and memories that state their maximum. -/
inductive Plain : Import.Desc → Prop
  | func (index : UInt32) : Plain (.func index)
  | memory (min max : UInt32) (shared : Bool) : Plain (.memory (.ofPages min max true shared))

theorem importDesc_decodes {desc : Import.Desc} (h : Plain desc) :
    Decodes importDesc (desc.kind :: desc.encode) desc := by
  cases h with
  | func index => exact (byte_decodes 0).bind ((ofUInt32_decodes index).yield Import.Desc.func)
  | memory min max shared =>
    exact (byte_decodes 2).bind ((limits_decodes min max shared).yield Import.Desc.memory)

theorem importEntry_decodes {i : Import} (h : Plain i.desc)
    (hsize : i.encode.length < UInt32.size) :
    Decodes importEntry i.encode i := by
  simp only [Import.encode, encodeName, encodeBytes, List.length_append] at hsize
  rw [Import.encode, List.append_assoc]
  refine (name_decodes (by omega)).bind ?_
  refine (name_decodes (by omega)).bind ?_
  exact (importDesc_decodes h).yield (Import.mk i.module i.name)

theorem exportEntry_decodes {name : String} {code : UInt8} {kind : ExportKind} {n : Nat}
    (hkind : Decodes exportKind [code] kind) (hn : n < UInt32.size)
    (hname : (encodeName name).length < UInt32.size) :
    Decodes exportEntry (encodeName name ++ code :: Leb128.unsigned n)
      { name := name, kind := kind, index := n } := by
  simp only [encodeName, encodeBytes, List.length_append] at hname
  refine (name_decodes (by omega)).bind ?_
  exact hkind.bind ((index_decodes hn).yield (Export.mk name kind))

theorem instr_decodes (i : Instr) : Decodes instr i.encode i := by
  have hoffset (aligned : Bool) (v : UInt32) :
      Decodes (offset aligned) (0x02 :: Leb128.ofUInt32 v) v := by
    have halignment : Decodes u32 [0x02] 2 := by
      rw [← show Leb128.ofUInt32 2 = [0x02] from unsigned_of_lt (by decide)]
      exact ofUInt32_decodes 2
    refine halignment.bind ?_
    rw [if_pos (.inl rfl)]
    exact ofUInt32_decodes v
  cases i with
  | localGet n => exact (byte_decodes 0x20).bind ((ofUInt32_decodes n).yield Instr.localGet)
  | globalGet n => exact (byte_decodes 0x23).bind ((ofUInt32_decodes n).yield Instr.globalGet)
  | globalSet n => exact (byte_decodes 0x24).bind ((ofUInt32_decodes n).yield Instr.globalSet)
  | call n => exact (byte_decodes 0x10).bind ((ofUInt32_decodes n).yield Instr.call)
  | i32Const v => exact (byte_decodes 0x41).bind ((s32_decodes v).yield Instr.i32Const)
  | i32Add => exact (byte_decodes 0x6a).andThen (.value _)
  | drop => exact (byte_decodes 0x1a).andThen (.value _)
  | unreachable => exact (byte_decodes 0x00).andThen (.value _)
  | i32Load v => exact (byte_decodes 0x28).bind ((hoffset false v).yield Instr.i32Load)
  | i32Store v => exact (byte_decodes 0x36).bind ((hoffset false v).yield Instr.i32Store)
  | i32AtomicRmwAdd v =>
    refine (byte_decodes 0xfe).bind (?_ : Decodes _ (0x1e :: 0x02 :: _) _)
    exact (expect_decodes 0x1e).bind ((hoffset true v).yield Instr.i32AtomicRmwAdd)
  | memorySize => exact (byte_decodes 0x3f).bind ((expect_decodes 0x00).andThen (.value _))
  | memoryGrow => exact (byte_decodes 0x40).bind ((expect_decodes 0x00).andThen (.value _))

theorem instr_encode_ne_nil (i : Instr) : i.encode ≠ [] := by
  cases i <;> exact List.cons_ne_nil _ _

/-- A function without locals, between its size and the end mark. -/
theorem body_decodes {code : List Instr} {bytes : Bytes}
    (hbytes : bytes = 0x00 :: (code.flatMap Instr.encode ++ [0x0b]))
    (hsize : bytes.length < UInt32.size) :
    Decodes body (Leb128.unsigned bytes.length ++ bytes) ([], code) := by
  refine (index_decodes hsize).bind ((take_decodes bytes).andThen ?_)
  have hlocals : vector localGroup bytes = some ([], code.flatMap Instr.encode ++ [0x0b]) := by
    have hcount : Decodes index [0x00] 0 := by
      rw [← show Leb128.unsigned 0 = [0x00] from unsigned_of_lt (by decide)]
      exact index_decodes (by decide)
    rw [hbytes]
    exact (hcount.andThen (.value _) : Decodes (vector localGroup) [0x00] []) _
  have hcode := exhaust_flatMap (g := id) (fun i (_ : i ∈ code) => instr_decodes i)
    (fun i _ => instr_encode_ne_nil i) (Nat.le_succ (code.flatMap Instr.encode).length)
  rw [List.map_id] at hcode
  simp only [hlocals, List.foldl_nil, List.getLast?_append, List.getLast?_singleton,
    List.dropLast_concat, List.length_append, List.length_singleton, hcode]
  exact .value _

end Decoder

/-- Entries that are all of the wanted kind, one for each item of a list. -/
theorem filterMap_mapIdx {γ : Type} {entry : Nat → α → β} {g : β → Option γ} {h : Nat → α → γ}
    {items : List α}
    (hg : ∀ i a, items[i]? = some a → g (entry i a) = some (h i a)) :
    (items.mapIdx entry).filterMap g = items.mapIdx h := by
  induction items generalizing entry h with
  | nil => rfl
  | cons a items ih =>
    have hrest := ih fun i b hb => hg (i + 1) b hb
    rw [List.mapIdx_cons, List.mapIdx_cons, List.filterMap_cons_some (hg 0 a rfl), hrest]

/-! ## Sections -/

namespace Sections

/-- Taking in the sections `bs` turns `s` into `s'`, whatever sections follow. -/
def Adds (s : Sections) (bs : Bytes) (s' : Sections) : Prop :=
  ∀ rest limit, (bs ++ rest).length ≤ limit →
    ∃ limit', rest.length ≤ limit' ∧ addAll limit s (bs ++ rest) = addAll limit' s' rest

theorem Adds.nil (s : Sections) : Adds s [] s := fun _ limit h => ⟨limit, h, rfl⟩

theorem Adds.append {s s' s'' : Sections} {bs bs' : Bytes} (h : Adds s bs s')
    (h' : Adds s' bs' s'') :
    Adds s (bs ++ bs') s'' := by
  intro rest limit hlimit
  rw [List.append_assoc] at hlimit ⊢
  obtain ⟨limit', hlimit', hadd⟩ := h (bs' ++ rest) limit hlimit
  obtain ⟨limit'', hlimit'', hadd'⟩ := h' rest limit' hlimit'
  exact ⟨limit'', hlimit'', hadd.trans hadd'⟩

theorem adds_section {s s' : Sections} {id : UInt8} {body : Bytes} (h : s.add id body = some s')
    (hsize : body.length < UInt32.size) : Adds s (encodeSection id body) s' := by
  intro rest limit hlimit
  simp only [encodeSection, List.length_append, List.length_cons] at hlimit
  cases limit with
  | zero => omega
  | succ limit =>
    refine ⟨limit, by omega, ?_⟩
    have hindex := Decoder.index_decodes hsize (body ++ rest)
    have hbody := Decoder.take_decodes body rest
    rw [encodeSection, List.cons_append, List.append_assoc]
    change ((Decoder.index (Leb128.unsigned body.length ++ (body ++ rest))).bind fun p =>
      (Decoder.take p.1 p.2).bind fun q => (s.add id q.1).bind fun s' => addAll limit s' q.2) = _
    rw [hindex, Option.bind_some, hbody, Option.bind_some, h]
    rfl

/-- A section that is read as a whole, where `f` says what becomes of its content. -/
theorem adds_whole {s : Sections} {d : Decoder α} {id : UInt8} {body : Bytes} {a : α}
    (f : α → Sections)
    (hadd : ∀ content, s.add id content = (d.whole content).bind fun b => some (f b))
    (hwhole : d.whole body = some a) (hsize : body.length < UInt32.size) :
    s.Adds (encodeSection id body) (f a) := by
  refine adds_section ?_ hsize
  rw [hadd, hwhole]
  rfl

end Sections

/-- A module is decoded once all of its sections are taken in. -/
theorem Module.decode?_of_adds {bs : Bytes} {s : Sections} {m : Module}
    (h : Sections.Adds {} bs s) (hm : s.toModule? = some m) :
    Module.decode? (header ++ bs) = some m := by
  obtain ⟨limit, -, hadd⟩ := h [] (header ++ bs).length (by simp)
  have hlimit : Sections.addAll limit s [] = some s := by cases limit <;> rfl
  rw [List.append_nil, hlimit] at hadd
  rw [Module.decode?, if_pos List.take_left, List.drop_left, hadd]
  exact hm

/-! ## The order of sections -/

/-- Sections in a row, by their ids. After its id a section has its size and then its content. -/
inductive LaidOut : Bytes → List UInt8 → Prop where
  | none : LaidOut [] []
  | next {size content rest : Bytes} {ids : List UInt8} (id : UInt8)
      (hsize : Leb128.Spelled32 content.length size) (hrest : LaidOut rest ids) :
      LaidOut (id :: (size ++ (content ++ rest))) (id :: ids)

theorem LaidOut.append {bs bs' : Bytes} {ids ids' : List UInt8} (h : LaidOut bs ids)
    (h' : LaidOut bs' ids') : LaidOut (bs ++ bs') (ids ++ ids') := by
  induction h with
  | none => exact h'
  | next id hsize _ ih =>
    rw [List.cons_append, List.append_assoc, List.append_assoc]
    exact .next id hsize ih

/-- The sections have some of the given ids, in that order. -/
def LaidOutAmong (allowed : List UInt8) (bs : Bytes) : Prop :=
  ∃ ids, LaidOut bs ids ∧ ids.Sublist allowed

theorem LaidOutAmong.append {allowed allowed' : List UInt8} {bs bs' : Bytes}
    (h : LaidOutAmong allowed bs) (h' : LaidOutAmong allowed' bs') :
    LaidOutAmong (allowed ++ allowed') (bs ++ bs') := by
  obtain ⟨ids, hids, hsub⟩ := h
  obtain ⟨ids', hids', hsub'⟩ := h'
  exact ⟨ids ++ ids', hids.append hids', hsub.append hsub'⟩

theorem laidOutAmong_nil (allowed : List UInt8) : LaidOutAmong allowed [] :=
  ⟨[], .none, List.nil_sublist _⟩

theorem laidOutAmong_section (id : UInt8) {body : Bytes} (hsize : body.length < UInt32.size) :
    LaidOutAmong [id] (encodeSection id body) := by
  have hsection := LaidOut.next id (Leb128.spelled32_unsigned hsize) .none
  rw [List.append_nil] at hsection
  exact ⟨[id], hsection, List.Sublist.refl _⟩

/-- The sections of a binary have the order that the format gives them, each at most once. Custom
sections, whose id is zero, may stand anywhere. -/
def Module.InOrder (bytes : Bytes) : Prop :=
  ∃ sections ids, bytes = header ++ sections ∧ LaidOut sections ids ∧
    (ids.filter (· ≠ 0)).Pairwise (· < ·)

theorem LaidOutAmong.inOrder {allowed : List UInt8} {bs : Bytes} (h : LaidOutAmong allowed bs)
    (hallowed : allowed.Pairwise (· < ·)) : Module.InOrder (header ++ bs) := by
  obtain ⟨ids, hids, hsub⟩ := h
  exact ⟨bs, ids, rfl, hids, hallowed.sublist (List.filter_sublist.trans hsub)⟩

end GuestThreads.Wasm
