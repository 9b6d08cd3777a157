import GuestThreads.Proofs.Reading
import GuestThreads.Wasm.Import

/-!
# The imports that a scan finds

The `Spelled` relations say how import entries are written, with any LEB128 spelling of the numbers
in them. A scan reads the entries back as they were written, up to the first whose limits have a
minimum above their maximum.
-/

namespace GuestThreads.Wasm

open Leb128 (Spelled32 Spelled64)

/-! ## Written forms -/

/-- A text, preceded by its length. -/
inductive NameSpelled (s : String) : Bytes → Prop
  | mk {length : Bytes} (h : Spelled32 (Bytes.ofString s).length length) :
      NameSpelled s (length ++ Bytes.ofString s)

/-- A bound of limits takes 64 bits in a 64-bit memory and 32 bits elsewhere. -/
def BoundSpelled (memory64 : Bool) (v : UInt64) (bs : Bytes) : Prop :=
  if memory64 then Spelled64 v.toNat bs else Spelled32 v.toNat bs

inductive Limits.Spelled (l : Limits) : Bytes → Prop
  | unbounded {min : Bytes} (hmax : l.max = none) (hmin : BoundSpelled l.memory64 l.min min) :
      l.Spelled (l.flags :: min)
  | bounded {m : UInt64} {min max : Bytes} (hm : l.max = some m)
      (hmin : BoundSpelled l.memory64 l.min min) (hmax : BoundSpelled l.memory64 m max) :
      l.Spelled (l.flags :: (min ++ max))

namespace Import

inductive Desc.Spelled : Desc → Bytes → Prop
  | func {index : UInt32} {bs : Bytes} (h : Spelled32 index.toNat bs) : Spelled (.func index) bs
  | table {reftype : UInt8} {l : Limits} {bs : Bytes} (h : l.Spelled bs) :
      Spelled (.table reftype l) (reftype :: bs)
  | memory {l : Limits} {bs : Bytes} (h : l.Spelled bs) : Spelled (.memory l) bs
  | global {valtype mutability : UInt8} : Spelled (.global valtype mutability) [valtype, mutability]
  | tag {kind : UInt8} {index : UInt32} {bs : Bytes} (h : Spelled32 index.toNat bs) :
      Spelled (.tag kind index) (kind :: bs)

inductive Spelled (i : Import) : Bytes → Prop
  | mk {module name desc : Bytes} (hmodule : NameSpelled i.module module)
      (hname : NameSpelled i.name name) (hdesc : i.desc.Spelled desc) :
      i.Spelled (module ++ (name ++ i.desc.kind :: desc))

/-- Entries one after the other. -/
inductive EntriesSpelled : List Import → Bytes → Prop
  | nil : EntriesSpelled [] []
  | cons {i : Import} {is : List Import} {bs rest : Bytes} (h : i.Spelled bs)
      (hrest : EntriesSpelled is rest) : EntriesSpelled (i :: is) (bs ++ rest)

inductive SectionSpelled (id : UInt8) (body : Bytes) : Bytes → Prop
  | mk {size : Bytes} (h : Spelled32 body.length size) :
      SectionSpelled id body (id :: (size ++ body))

/-- Any sections in a row that are not import sections. -/
inductive OtherSections : Bytes → Prop
  | nil : OtherSections []
  | cons {id : UInt8} {body bs rest : Bytes} (hid : id ≠ 2) (h : SectionSpelled id body bs)
      (hrest : OtherSections rest) : OtherSections (bs ++ rest)

/-- A module with the given entries in its first import section. What follows the last entry and
what follows the section is left open. -/
inductive ModuleSpelled (entries : List Import) : Bytes → Prop
  | mk {version before count items extra imports after : Bytes} (hversion : version.length = 4)
      (hbefore : OtherSections before) (hcount : Spelled32 entries.length count)
      (hitems : EntriesSpelled entries items)
      (himports : SectionSpelled 2 (count ++ (items ++ extra)) imports) :
      ModuleSpelled entries (header.take 4 ++ version ++ (before ++ (imports ++ after)))

end Import

/-! ## Limits -/

/-- The bounds of limits whose minimum is above their maximum. -/
def Limits.inverted? (l : Limits) : Option (UInt64 × UInt64) :=
  match l.max with
  | some max => if max < l.min then some (l.min, max) else none
  | none => none

theorem Limits.flags_hasMax (l : Limits) : (l.flags &&& 1 != 0) = l.max.isSome := by
  unfold flags
  cases l.max.isSome <;> cases l.shared <;> cases l.memory64 <;> rfl

theorem Limits.flags_shared (l : Limits) : (l.flags &&& 2 != 0) = l.shared := by
  unfold flags
  cases l.max.isSome <;> cases l.shared <;> cases l.memory64 <;> rfl

theorem Limits.flags_memory64 (l : Limits) : (l.flags &&& 4 != 0) = l.memory64 := by
  unfold flags
  cases l.max.isSome <;> cases l.shared <;> cases l.memory64 <;> rfl

namespace Import

/-- The limits in an entry, of a table or a memory. -/
def Desc.limits? : Desc → Option Limits
  | .table _ l => some l
  | .memory l => some l
  | _ => none

/-- The bounds that a scan refuses an entry for. -/
def inverted? (i : Import) : Option (UInt64 × UInt64) := i.desc.limits?.bind Limits.inverted?

/-- The value, unless some bounds are inverted. -/
def verdict {α : Type} (a : α) : Option (UInt64 × UInt64) → Except ScanError α
  | none => .ok a
  | some (min, max) => .error (.limits min max)

theorem read_answers {α : Type} {r : Cursor.Read α} {bs : Bytes} {a : α}
    (h : Answers r bs (.ok a)) (wrap : Cursor.Failure → ScanError) :
    Answers (read r wrap) bs (.ok a) := by
  intro rest pos
  rw [read, h rest pos]

theorem scanBound_answers {memory64 : Bool} {v : UInt64} {bs : Bytes}
    (h : BoundSpelled memory64 v bs) : Answers (scanBound memory64) bs (.ok v) := by
  cases memory64 with
  | true =>
    have hread := read_answers (Cursor.u64_answers h) .unreadable
    rwa [Nat.toUInt64, UInt64.ofNat_toNat] at hread
  | false =>
    have hv : v.toNat.toUInt32.toUInt64 = v := by
      apply UInt64.toNat_inj.1
      rw [UInt32.toNat_toUInt64]
      exact UInt32.toNat_ofNat_of_lt h.lt
    refine (read_answers (Cursor.u32_answers h) .unreadable).andThen ?_
    rw [hv]
    exact Answers.value v

theorem scanLimits_answers {l : Limits} {bs : Bytes} (h : l.Spelled bs) :
    Answers scanLimits bs (verdict l l.inverted?) := by
  obtain ⟨lmin, lmax, shared, memory64⟩ := l
  cases h with
  | @unbounded min hmax hmin =>
    refine (read_answers (Cursor.byte_answers _) .unreadable).bind (?_ : Answers _ min _)
    simp only [Limits.flags_hasMax, Limits.flags_shared, Limits.flags_memory64]
    dsimp only at hmax
    subst hmax
    exact (scanBound_answers hmin).andThen (Answers.value _)
  | @bounded m min max hm hmin hmax =>
    refine (read_answers (Cursor.byte_answers _) .unreadable).bind (?_ : Answers _ (min ++ max) _)
    simp only [Limits.flags_hasMax, Limits.flags_shared, Limits.flags_memory64]
    dsimp only at hm
    subst hm
    refine (scanBound_answers hmin).bind ((scanBound_answers hmax).andThen ?_)
    by_cases hlt : m < lmin
    · simp only [Limits.inverted?, if_pos hlt, verdict]
      exact Answers.refusal _
    · simp only [Limits.inverted?, if_neg hlt, verdict]
      exact Answers.value _

/-! ## Entries -/

/-- What becomes of a value that is built from one under a verdict. -/
theorem verdict_andThen {α β : Type} {p : Scan α} {bs : Bytes} {a : α}
    {inverted : Option (UInt64 × UInt64)} (g : α → β) (h : Answers p bs (verdict a inverted)) :
    Answers (p >>= fun a => pure (g a)) bs (verdict (g a) inverted) := by
  cases inverted with
  | none => exact h.andThen (Answers.value _)
  | some bounds => exact h.andThen_error

theorem index_answers {index : UInt32} {bs : Bytes} (h : Spelled32 index.toNat bs) :
    Answers (read Cursor.u32) bs (.ok index) := by
  have hread := read_answers (Cursor.u32_answers h) .unreadable
  rwa [Nat.toUInt32, UInt32.ofNat_toNat] at hread

theorem scanDesc_answers (module name : String) {d : Desc} {bs : Bytes} (h : d.Spelled bs) :
    Answers (scanDesc module name) (d.kind :: bs)
      (verdict d (d.limits?.bind Limits.inverted?)) := by
  refine (read_answers (Cursor.byte_answers d.kind) .unreadable).bind (?_ : Answers _ bs _)
  cases h with
  | func h => exact (index_answers h).andThen (Answers.value _)
  | table h =>
    refine (read_answers (Cursor.byte_answers _) .unreadable).bind (?_ : Answers _ _ _)
    exact verdict_andThen (Desc.table _) (scanLimits_answers h)
  | memory h => exact verdict_andThen Desc.memory (scanLimits_answers h)
  | global =>
    exact (read_answers (Cursor.take_answers [_, _]) .unreadable).andThen (Answers.value _)
  | tag h =>
    refine (read_answers (Cursor.byte_answers _) .unreadable).bind (?_ : Answers _ _ _)
    exact (index_answers h).andThen (Answers.value _)

theorem scanEntry_answers {i : Import} {bs : Bytes} (h : i.Spelled bs) :
    Answers scanEntry bs (verdict i i.inverted?) := by
  obtain ⟨⟨hmodule⟩, ⟨hname⟩, hdesc⟩ := h
  refine (read_answers (Cursor.name_answers hmodule) .unreadable).bind ?_
  refine (read_answers (Cursor.name_answers hname) .unreadable).bind ?_
  exact verdict_andThen (fun d => Import.mk i.module i.name d)
    (scanDesc_answers i.module i.name hdesc)

theorem scanEntries_answers {is : List Import} {bs : Bytes} (h : EntriesSpelled is bs) :
    Answers (scanEntries is.length) bs (verdict is (is.findSome? inverted?)) := by
  induction h with
  | nil => exact Answers.value []
  | @cons i is bs rest h _ ih =>
    have hentry := scanEntry_answers h
    rw [List.findSome?_cons]
    cases hi : i.inverted? with
    | some bounds =>
      rw [hi] at hentry
      exact Answers.bind_error hentry
    | none =>
      rw [hi] at hentry
      exact Answers.bind hentry (verdict_andThen (i :: ·) ih)

/-! ## Sections -/

theorem scanSection_spelled {entries : List Import} {count items : Bytes}
    (hcount : Spelled32 entries.length count) (hitems : EntriesSpelled entries items)
    (extra : Bytes) :
    scanSection (count ++ (items ++ extra)) = verdict entries (entries.findSome? inverted?) := by
  have hlength : entries.length.toUInt32.toNat = entries.length :=
    UInt32.toNat_ofNat_of_lt hcount.lt
  have hentries := scanEntries_answers hitems
  rw [← hlength] at hentries
  have hall :
      Answers (read Cursor.u32 >>= fun count => scanEntries count.toNat) (count ++ items) _ :=
    (read_answers (Cursor.u32_answers hcount) .unreadable).bind hentries
  rw [← List.append_assoc]
  exact hall.outcome extra 0

/-- The rest of a section whose size is known. -/
def sectionBody (id : UInt8) (size : UInt32) : Scan (UInt8 × Bytes) := fun c =>
  if c.remaining < size.toNat then (.error (.sectionOverrun id size c.remaining), c)
  else (.ok (id, c.rest.take size.toNat), ⟨c.rest.drop size.toNat, c.position + size.toNat⟩)

theorem nextSection_eq : nextSection = (do
    let id ← read Cursor.byte
    let size ← read Cursor.u32 (.sectionHeader id)
    sectionBody id size) := by
  unfold nextSection
  congr 1
  funext id
  congr 1
  funext size c
  rw [sectionBody, read_run]
  by_cases hroom : c.remaining < size.toNat
  · rw [if_pos hroom, if_pos hroom]
    rfl
  · rw [if_neg hroom, if_neg hroom, bind_run, read, Cursor.take_run (Nat.le_of_not_lt hroom)]
    rfl

section

variable {id : UInt8} {body bs : Bytes}

theorem sectionBody_answers {size : UInt32} (h : size.toNat = body.length) :
    Answers (sectionBody id size) body (.ok (id, body)) := by
  intro rest pos
  rw [sectionBody, if_neg (by simp [Cursor.remaining, h])]
  simp [h]

/-- A section is read whose size is read as the length of its body. -/
theorem nextSection_answers {size : Bytes} {n : UInt32} (hsize : Answers Cursor.u32 size (.ok n))
    (hbody : n.toNat = body.length) :
    Answers nextSection (id :: (size ++ body)) (.ok (id, body)) := by
  rw [nextSection_eq]
  refine (read_answers (Cursor.byte_answers id) .unreadable).bind (?_ : Answers _ (size ++ body) _)
  exact (read_answers hsize (.sectionHeader id)).bind (sectionBody_answers hbody)

theorem SectionSpelled.answers (h : SectionSpelled id body bs) :
    Answers nextSection bs (.ok (id, body)) := by
  obtain ⟨hsize⟩ := h
  exact nextSection_answers (Cursor.u32_answers hsize) (UInt32.toNat_ofNat_of_lt hsize.lt)

theorem SectionSpelled.length_pos (h : SectionSpelled id body bs) : 0 < bs.length := by
  cases h
  simp

/-- One section is looked at. -/
theorem scanSections_step (h : Answers nextSection bs (.ok (id, body))) (sections : Nat)
    (rest : Bytes) (pos : Nat) :
    scanSections (sections + 1) ⟨bs ++ rest, pos⟩ =
      if id = 2 then scanSection body else scanSections sections ⟨rest, pos + bs.length⟩ := by
  have hfull : (bs ++ rest).isEmpty = false := by
    cases bs with
    | nil => cases h [] pos
    | cons b bs => rfl
  rw [scanSections, h rest pos]
  simp only [hfull]
  rfl

end

/-- The sections in front of the import section are passed over, whatever is in them. -/
theorem scanSections_spelled {before imports body : Bytes} (hbefore : OtherSections before)
    (himports : SectionSpelled 2 body imports) (after : Bytes) {sections : Nat}
    (hsections : before.length < sections) (pos : Nat) :
    scanSections sections ⟨before ++ (imports ++ after), pos⟩ = scanSection body := by
  induction hbefore generalizing sections pos with
  | nil =>
    obtain ⟨sections, rfl⟩ := Nat.exists_eq_add_of_lt hsections
    rw [List.nil_append, scanSections_step himports.answers, if_pos rfl]
  | @cons id other bs rest hid h _ ih =>
    have hpos := h.length_pos
    rw [List.length_append] at hsections
    obtain ⟨sections, rfl⟩ := Nat.exists_eq_add_of_lt hsections
    rw [List.append_assoc, scanSections_step h.answers, if_neg hid]
    exact ih (by omega) _

/-- Only the magic number counts in a header. -/
theorem scan_header {version : Bytes} (h : version.length = 4) (body : Bytes) :
    scan (header.take 4 ++ version ++ body) = scanSections (body.length + 8) { rest := body } := by
  match version, h with
  | [_, _, _, _], _ =>
    rw [scan, if_neg (by simp [header])]
    rfl

theorem scan_spelled {entries : List Import} {wasm : Bytes} (h : ModuleSpelled entries wasm) :
    scan wasm = verdict entries (entries.findSome? inverted?) := by
  obtain ⟨hversion, hbefore, hcount, hitems, himports⟩ := h
  rw [scan_header hversion, scanSections_spelled hbefore himports,
    scanSection_spelled hcount hitems]
  rw [List.length_append]
  omega

end Import

/-! ## Encoders -/

theorem nameSpelled_encodeName {s : String} (h : (Bytes.ofString s).length < UInt32.size) :
    NameSpelled s (encodeName s) :=
  ⟨Leb128.spelled32_unsigned h⟩

theorem boundSpelled_ofUInt64 {memory64 : Bool} {v : UInt64}
    (h : memory64 = false → v.toNat < UInt32.size) :
    BoundSpelled memory64 v (Leb128.ofUInt64 v) := by
  cases memory64 with
  | true => exact Leb128.spelled64_unsigned v.toNat_lt
  | false => exact Leb128.spelled32_unsigned (h rfl)

/-- Limits can be written if those of a 32-bit memory or table have 32-bit bounds. -/
structure Limits.Encodable (l : Limits) : Prop where
  min : l.memory64 = false → l.min.toNat < UInt32.size
  max : l.memory64 = false → ∀ m ∈ l.max, m.toNat < UInt32.size

theorem Limits.Encodable.spelled {l : Limits} (h : l.Encodable) : l.Spelled l.encode := by
  unfold encode
  cases hm : l.max with
  | none =>
    rw [Option.map_none, Option.getD_none, List.append_nil]
    exact .unbounded hm (boundSpelled_ofUInt64 h.min)
  | some m =>
    rw [Option.map_some, Option.getD_some]
    exact .bounded hm (boundSpelled_ofUInt64 h.min)
      (boundSpelled_ofUInt64 fun hwide => h.max hwide m hm)

namespace Import

structure Encodable (i : Import) : Prop where
  module : (Bytes.ofString i.module).length < UInt32.size
  name : (Bytes.ofString i.name).length < UInt32.size
  limits : ∀ l ∈ i.desc.limits?, l.Encodable

theorem Desc.spelled_encode {d : Desc} (h : ∀ l ∈ d.limits?, l.Encodable) : d.Spelled d.encode := by
  cases d with
  | func index => exact .func (Leb128.spelled32_unsigned index.toNat_lt)
  | table reftype l => exact .table (h l rfl).spelled
  | memory l => exact .memory (h l rfl).spelled
  | global valtype mutability => exact .global
  | tag kind index => exact .tag (Leb128.spelled32_unsigned index.toNat_lt)

theorem Encodable.spelled {i : Import} (h : i.Encodable) : i.Spelled i.encode := by
  rw [encode, List.append_assoc]
  exact ⟨nameSpelled_encodeName h.module, nameSpelled_encodeName h.name,
    Desc.spelled_encode h.limits⟩

theorem entriesSpelled_encode {entries : List Import} (h : ∀ i ∈ entries, i.Encodable) :
    EntriesSpelled entries (entries.flatMap encode) := by
  induction entries with
  | nil => exact .nil
  | cons i is ih =>
    rw [List.flatMap_cons]
    exact .cons (h i (by simp)).spelled (ih fun j hj => h j (by simp [hj]))

theorem sectionSpelled_encode {body : Bytes} (id : UInt8) (h : body.length < UInt32.size) :
    SectionSpelled id body (encodeSection id body) :=
  ⟨Leb128.spelled32_unsigned h⟩

theorem otherSections_encode {sections : List (UInt8 × Bytes)}
    (h : ∀ s ∈ sections, s.1 ≠ 2 ∧ s.2.length < UInt32.size) :
    OtherSections (sections.flatMap fun s => encodeSection s.1 s.2) := by
  induction sections with
  | nil => exact .nil
  | cons s rest ih =>
    obtain ⟨hid, hsize⟩ := h s (by simp)
    rw [List.flatMap_cons]
    exact .cons hid (sectionSpelled_encode s.1 hsize) (ih fun t ht => h t (by simp [ht]))

/-- A module put together by the encoders: sections with their ids and bodies, then the entries. -/
def encodeModule (version : Bytes) (sections : List (UInt8 × Bytes)) (entries : List Import)
    (extra after : Bytes) : Bytes :=
  header.take 4 ++ version ++ ((sections.flatMap fun s => encodeSection s.1 s.2) ++
    (encodeSection 2 (vector encode entries ++ extra) ++ after))

/-- What a caller of the encoders has to see to. -/
structure EncodableModule (version : Bytes) (sections : List (UInt8 × Bytes))
    (entries : List Import) (extra : Bytes) : Prop where
  fourBytes : version.length = 4
  others : ∀ s ∈ sections, s.1 ≠ 2 ∧ s.2.length < UInt32.size
  encodable : ∀ i ∈ entries, i.Encodable
  count : entries.length < UInt32.size
  size : (vector encode entries ++ extra).length < UInt32.size

theorem EncodableModule.spelled {version extra : Bytes} {sections : List (UInt8 × Bytes)}
    {entries : List Import} (h : EncodableModule version sections entries extra) (after : Bytes) :
    ModuleSpelled entries (encodeModule version sections entries extra after) := by
  have hbody : vector encode entries ++ extra =
      Leb128.unsigned entries.length ++ (entries.flatMap encode ++ extra) := List.append_assoc ..
  have himports := sectionSpelled_encode 2 h.size
  rw [hbody] at himports
  rw [encodeModule, hbody]
  exact .mk h.fourBytes (otherSections_encode h.others) (Leb128.spelled32_unsigned h.count)
    (entriesSpelled_encode h.encodable) himports

/-- A scan reads back the entries of every module that is written in some LEB128 spelling, unless
some limits are inverted, and the encoders write one. -/
theorem scan_reads_entries_back :
    (∀ (entries : List Import) (wasm : Bytes), ModuleSpelled entries wasm →
      scan wasm = match entries.findSome? inverted? with
        | none => .ok entries
        | some (min, max) => .error (.limits min max)) ∧
    ∀ (version extra after : Bytes) (sections : List (UInt8 × Bytes)) (entries : List Import),
      EncodableModule version sections entries extra →
      ModuleSpelled entries (encodeModule version sections entries extra after) := by
  constructor
  · intro entries wasm h
    rw [scan_spelled h]
    cases entries.findSome? inverted? <;> rfl
  · intro version extra after sections entries h
    exact h.spelled after

/-- A 64-bit shared memory behind a custom section, with bytes left over at both ends. -/
theorem scan_reads_wide_memory_back :
    let entries : List Import := [
      { module := "env", name := "μ", desc := .memory
          { min := 1, max := some 0x100000000, shared := true, memory64 := true } },
      { module := "", name := "tick", desc := .func 300 }]
    let wasm := encodeModule [7, 7, 7, 7] [(0, [1, 2, 3])] entries [9] [2, 0]
    EncodableModule [7, 7, 7, 7] [(0, [1, 2, 3])] entries [9] ∧ scan wasm = .ok entries := by
  intro entries wasm
  have hencodable : EncodableModule [7, 7, 7, 7] [(0, [1, 2, 3])] entries [9] := by
    refine ⟨rfl, by decide, ?_, by decide, by decide +kernel⟩
    simp only [entries, List.forall_mem_cons]
    refine ⟨⟨by decide, by decide, ?_⟩, ⟨by decide, by decide, by simp [Desc.limits?]⟩, by simp⟩
    rintro l ⟨⟩
    exact ⟨by simp, by simp⟩
  have hspelled := scan_reads_entries_back.2 _ _ [2, 0] _ _ hencodable
  exact ⟨hencodable, scan_reads_entries_back.1 entries wasm hspelled⟩

end Import

end GuestThreads.Wasm
