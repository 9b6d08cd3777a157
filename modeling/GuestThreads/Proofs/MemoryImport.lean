import GuestThreads.Engine
import GuestThreads.Proofs.Wasm.Assembly
import GuestThreads.Proofs.Wasm.ImportScan

/-!
# Which guests can share a memory

A scan finds in an assembled guest what the guest imports, whatever its other sections are. The
check of its memory import therefore tells whether the shared memory satisfies the import: it goes
by the right name, it is large enough now, and it will never be too large.
-/

namespace GuestThreads

namespace Wasm

namespace Import

theorem OtherSections.append {bs cs : Bytes} (h : OtherSections bs) (h' : OtherSections cs) :
    OtherSections (bs ++ cs) := by
  induction h with
  | nil => exact h'
  | cons hid hsection _ ih =>
    rw [List.append_assoc]
    exact .cons hid hsection ih

/-- A module without an import section imports nothing. -/
theorem scanSections_others {bs : Bytes} (h : OtherSections bs) {sections : Nat}
    (hsections : bs.length < sections) (pos : Nat) : scanSections sections ⟨bs, pos⟩ = .ok [] := by
  induction h generalizing sections pos with
  | nil =>
    obtain ⟨sections, rfl⟩ := Nat.exists_eq_add_of_lt hsections
    rfl
  | @cons id body bs rest hid hsection _ ih =>
    have hpos := hsection.length_pos
    rw [List.length_append] at hsections
    obtain ⟨sections, rfl⟩ := Nat.exists_eq_add_of_lt hsections
    rw [scanSections_step hsection.answers, if_neg hid]
    exact ih (by omega) _

end Import

namespace Assembly

open Import (OtherSections ModuleSpelled inverted? verdict)

/-! ## What a scan finds -/

theorem listSection_others {α : Type} {id : UInt8} (hid : id ≠ 2) {item : α → Bytes}
    {items : List α} (hsize : (vector item items).length < UInt32.size) :
    OtherSections (listSection id item items) := by
  unfold listSection
  split
  · exact .nil
  · have hsection := OtherSections.cons hid (Import.sectionSpelled_encode id hsize) .nil
    rwa [List.append_nil] at hsection

/-- The sections that follow the imports. -/
def trailing (a : Assembly) : Bytes :=
  listSection 3 Leb128.unsigned a.typeIndices ++ (listSection 6 Global.encode a.globals ++
    (listSection 7 Export.encode a.exports ++ listSection 10 Func.encode a.funcs))

theorem encode_eq (a : Assembly) :
    a.encode = header.take 4 ++ header.drop 4 ++ (listSection 1 FuncType.encode a.types ++
      (listSection 2 Import.encode a.entries ++ a.trailing)) := by
  simp only [encode, trailing, typeIndices, List.take_append_drop, List.append_assoc]

theorem Fits.trailing_others {a : Assembly} (h : a.Fits) : OtherSections a.trailing :=
  (listSection_others (by decide) h.funcs).append <|
    (listSection_others (by decide) h.globals).append <|
    (listSection_others (by decide) h.exports).append <| listSection_others (by decide) h.bodies

theorem Fits.encodable {a : Assembly} (h : a.Fits) {i : Import} (hi : i ∈ a.entries) :
    i.Encodable := by
  have hsize := Nat.lt_of_le_of_lt (length_item_le_vector Import.encode hi) h.imports
  simp only [Import.encode, encodeName, encodeBytes, List.length_append] at hsize
  refine ⟨by omega, by omega, fun l hl => ?_⟩
  obtain ⟨f, hf⟩ | ⟨m, hm⟩ :
      (∃ f, i.desc = .func f) ∨ ∃ m : MemoryImport, i.desc = m.entry.desc := by
    rw [entries_eq, List.mem_append] at hi
    obtain hi | hi := hi
    · obtain ⟨n, hn, rfl⟩ := List.mem_mapIdx.1 hi
      exact .inl ⟨_, rfl⟩
    · obtain ⟨m, -, rfl⟩ := List.mem_map.1 hi
      exact .inr ⟨m, rfl⟩
  · rw [hf] at hl
    cases hl
  · rw [hm] at hl
    cases hl
    exact ⟨fun _ => m.min.toNat_lt, by simp [m.max.toNat_lt]⟩

/-- A scan finds the entries of a guest in order, unless the bounds of its memory are inverted. -/
theorem scan_encode {a : Assembly} (h : a.Fits) :
    Import.scan a.encode = verdict a.entries (a.entries.findSome? inverted?) := by
  have hbefore := listSection_others (by decide : (1 : UInt8) ≠ 2) h.types
  cases hentries : a.entries with
  | nil =>
    rw [encode_eq, hentries, Import.scan_header rfl]
    exact Import.scanSections_others (hbefore.append h.trailing_others)
      (Nat.lt_add_of_pos_right (by decide)) 0
  | cons i is =>
    have hspelled : ModuleSpelled a.entries a.encode := by
      have hcount := Nat.lt_of_le_of_lt
        (length_le_vector fun (i : Import) (_ : i ∈ a.entries) => by simp [Import.encode]) h.imports
      have hsection : listSection 2 Import.encode a.entries = encodeSection 2
          (Leb128.unsigned a.entries.length ++ (a.entries.flatMap Import.encode ++ [])) := by
        rw [listSection, hentries, List.append_nil]
        rfl
      have hsize : (Leb128.unsigned a.entries.length ++
          (a.entries.flatMap Import.encode ++ [])).length < UInt32.size := by
        rw [List.append_nil]
        exact h.imports
      rw [encode_eq, hsection]
      exact .mk rfl hbefore (Leb128.spelled32_unsigned hcount)
        (Import.entriesSpelled_encode fun _ => h.encodable)
        (Import.sectionSpelled_encode 2 hsize)
    rw [← hentries]
    exact Import.scan_spelled hspelled

/-- The bounds of the memory that a guest imports, where the minimum is above the maximum. -/
def MemoryImport.inverted? (m : MemoryImport) : Option (UInt64 × UInt64) :=
  if m.max < m.min then some (m.min.toUInt64, m.max.toUInt64) else none

theorem MemoryImport.inverted?_entry (m : MemoryImport) : m.entry.inverted? = m.inverted? := by
  simp [Import.inverted?, entry, Import.Desc.limits?, Limits.inverted?, inverted?,
    UInt64.lt_iff_toNat_lt, UInt32.lt_iff_toNat_lt]

/-- Only the memory that a guest imports has bounds. -/
theorem findSome?_inverted? (a : Assembly) :
    a.entries.findSome? inverted? = a.memory.bind MemoryImport.inverted? := by
  have hfuncs : (a.imports.mapIdx FuncImport.entry).findSome? inverted? = none := by
    refine List.findSome?_eq_none_iff.2 fun i hi => ?_
    obtain ⟨n, hn, rfl⟩ := List.mem_mapIdx.1 hi
    rfl
  rw [entries_eq, List.findSome?_append, hfuncs, Option.none_or]
  cases a.memory with
  | none => rfl
  | some m => simp [MemoryImport.inverted?_entry]

/-- The limits of the memory that a guest imports. -/
def MemoryImport.limits (m : MemoryImport) : Limits where
  min := m.min.toUInt64
  max := some m.max.toUInt64
  shared := m.shared

/-- The memory that a guest imports is the first one among its entries. -/
theorem findSome?_memory? (a : Assembly) :
    (a.entries.findSome? fun i => i.memory?.map fun l => (i, l)) =
      a.memory.map fun m => (m.entry, m.limits) := by
  have hfuncs : ((a.imports.mapIdx FuncImport.entry).findSome? fun i =>
      i.memory?.map fun l => (i, l)) = none := by
    refine List.findSome?_eq_none_iff.2 fun i hi => ?_
    obtain ⟨n, hn, rfl⟩ := List.mem_mapIdx.1 hi
    rfl
  rw [entries_eq, List.findSome?_append, hfuncs, Option.none_or]
  cases a.memory <;> rfl

/-! ## What a memory has to be like -/

/-- A shared memory that has `pages` pages now and may grow to `maxPages` satisfies the import. -/
structure MemoryImport.SatisfiedBy (m : MemoryImport) (wanted : Config.ImportName)
    (pages maxPages : UInt32) : Prop where
  module : m.module = wanted.module
  name : m.name = wanted.name
  shared : m.shared = true
  min : m.min ≤ pages
  max : maxPages ≤ m.max

end Assembly

end Wasm

open Wasm (Assembly)
open Wasm.Assembly (MemoryImport)

/-- The fault of a guest that does not import the memory it should. -/
def missingMemory (wanted : Config.ImportName) : Fault :=
  .missingImports [{ module := wanted.module, name := wanted.name, kind := "memory" }]

/-- The fault of a guest that imports another type of memory. -/
def memoryMismatch (wanted : Config.ImportName) (detail : String) : Fault :=
  .report { phase := .instantiate, kind := .typeMismatch,
            name := wanted.module ++ "." ++ wanted.name, detail := detail }

/-! ## Modules of any kind -/

/-- The first memory among the imports of a module. -/
def Wasm.Import.firstMemory? (imports : List Wasm.Import) : Option (Wasm.Import × Wasm.Limits) :=
  imports.findSome? fun i => i.memory?.map fun l => (i, l)

/-- The first memory that a module imports goes by the wanted name and has these limits. -/
def Wasm.Import.Asks (bytes : Bytes) (wanted : Config.ImportName) (l : Wasm.Limits) : Prop :=
  ∃ imports i, scan bytes = .ok imports ∧ firstMemory? imports = some (i, l) ∧
    i.module = wanted.module ∧ i.name = wanted.name

/-- The limits leave room for a shared memory that has `pages` pages and may grow to `maxPages`. -/
structure Wasm.Limits.Admits (l : Wasm.Limits) (pages maxPages : UInt32) : Prop where
  narrow : l.memory64 = false
  shared : l.shared = true
  min : l.min ≤ pages.toUInt64
  max : ∀ max ∈ l.max, maxPages.toUInt64 ≤ max

section

variable {wanted : Config.ImportName} {pages maxPages : UInt32} {bytes : Bytes}
  {imports : List Wasm.Import} {l l' : Wasm.Limits}

theorem Wasm.Import.Asks.unique (h : Asks bytes wanted l) (h' : Asks bytes wanted l') : l = l' := by
  obtain ⟨imports, i, hscan, hfirst, -⟩ := h
  obtain ⟨imports', i', hscan', hfirst', -⟩ := h'
  cases hscan.symm.trans hscan'
  cases hfirst.symm.trans hfirst'
  rfl

theorem checkMemoryImport_unreadable {s : Wasm.Import.ScanError}
    (hscan : Wasm.Import.scan bytes = .error s) :
    checkMemoryImport wanted pages maxPages bytes = .error (.unreadableImports s) := by
  rw [checkMemoryImport, hscan]

theorem checkMemoryImport_missing (hscan : Wasm.Import.scan bytes = .ok imports)
    (h : ∀ l, ¬Wasm.Import.Asks bytes wanted l) :
    checkMemoryImport wanted pages maxPages bytes = .error (missingMemory wanted) := by
  rw [checkMemoryImport, hscan]
  dsimp only
  cases hfirst : imports.findSome? fun i => i.memory?.map fun l => (i, l) with
  | none => rfl
  | some found =>
    have hother : ¬(found.1.module = wanted.module ∧ found.1.name = wanted.name) :=
      fun hnamed => h found.2 ⟨imports, found.1, hscan, hfirst, hnamed⟩
    dsimp only
    rw [if_pos (by grind)]
    rfl

/-- What the check comes to for a memory of the right name. -/
theorem checkMemoryImport_of_asks (h : Wasm.Import.Asks bytes wanted l) :
    (l.Admits pages maxPages → checkMemoryImport wanted pages maxPages bytes = .ok ()) ∧
      (¬l.Admits pages maxPages → ∃ detail, checkMemoryImport wanted pages maxPages bytes =
        .error (memoryMismatch wanted detail)) := by
  obtain ⟨imports, i, hscan, hfirst, hmodule, hname⟩ := h
  rw [Wasm.Import.firstMemory?] at hfirst
  rw [checkMemoryImport, hscan]
  dsimp only
  rw [hfirst]
  dsimp only
  rw [if_neg (by simp [hmodule, hname])]
  constructor
  · intro h
    rw [h.narrow, h.shared, if_neg (by decide), if_neg (by decide), if_neg (UInt64.not_lt.2 h.min)]
    cases hmax : l.max with
    | none => rfl
    | some max => exact if_neg (UInt64.not_lt.2 (h.max max hmax))
  · intro h
    split
    · exact ⟨_, rfl⟩
    split
    · exact ⟨_, rfl⟩
    split
    · exact ⟨_, rfl⟩
    next hnarrow hshared hmin =>
    -- Only the maximum is left to blame.
    obtain ⟨max, hmax, hlt⟩ : ∃ max, l.max = some max ∧ max < maxPages.toUInt64 := by
      by_contra hfits
      refine h ⟨by simpa using hnarrow, by simpa using hshared, UInt64.not_lt.1 hmin, ?_⟩
      exact fun max hmax => UInt64.not_lt.1 fun hlt => hfits ⟨max, hmax, hlt⟩
    rw [hmax]
    dsimp only
    rw [if_pos hlt]
    exact ⟨_, rfl⟩

end

/-! ## Assembled guests -/

section

variable {a : Assembly} {m : MemoryImport} {wanted : Config.ImportName} {pages maxPages : UInt32}

/-- A guest whose bounds are in order is read in full. -/
theorem scan_encode_of_ordered (hfits : a.Fits) (hbounds : ∀ m ∈ a.memory, m.min ≤ m.max) :
    Wasm.Import.scan a.encode = .ok a.entries := by
  have hnone : a.memory.bind MemoryImport.inverted? = none :=
    Option.bind_eq_none_iff.2 fun m hm => if_neg (UInt32.not_lt.2 (hbounds m hm))
  rw [Assembly.scan_encode hfits, Assembly.findSome?_inverted?, hnone]
  rfl

theorem checkMemoryImport_of_none (hfits : a.Fits) (hm : a.memory = none) :
    checkMemoryImport wanted pages maxPages a.encode = .error (missingMemory wanted) := by
  have hscan := scan_encode_of_ordered hfits (by simp [hm])
  simp only [checkMemoryImport, hscan, Assembly.findSome?_memory?, hm, Option.map_none]
  rfl

/-- The scan refuses bounds that are inverted. -/
theorem checkMemoryImport_of_inverted (hfits : a.Fits) (hm : a.memory = some m)
    (hbounds : m.max < m.min) :
    checkMemoryImport wanted pages maxPages a.encode =
      .error (.unreadableImports (.limits m.min.toUInt64 m.max.toUInt64)) := by
  have hsome : m.inverted? = some (m.min.toUInt64, m.max.toUInt64) := if_pos hbounds
  rw [checkMemoryImport, Assembly.scan_encode hfits, Assembly.findSome?_inverted?, hm,
    Option.bind_some, hsome]
  rfl

/-- What the check comes to once the bounds are in order. -/
theorem checkMemoryImport_of_some (hfits : a.Fits) (hm : a.memory = some m)
    (hbounds : m.min ≤ m.max) :
    checkMemoryImport wanted pages maxPages a.encode =
      if m.module ≠ wanted.module ∨ m.name ≠ wanted.name then .error (missingMemory wanted)
      else if m.shared = false then
        .error (memoryMismatch wanted "want shared memory, got unshared memory")
      else if pages < m.min then .error (memoryMismatch wanted
        s!"module needs at least {m.min.toNat} pages, shared memory has {pages.toNat}")
      else if m.max < maxPages then .error (memoryMismatch wanted
        s!"module allows at most {m.max.toNat} pages, shared memory may grow to {maxPages.toNat}")
      else .ok () := by
  have hscan := scan_encode_of_ordered hfits (by simpa [hm] using hbounds)
  have hmin : pages.toUInt64 < m.min.toUInt64 ↔ pages < m.min := by
    simp [UInt64.lt_iff_toNat_lt, UInt32.lt_iff_toNat_lt]
  have hmax : m.max.toUInt64 < maxPages.toUInt64 ↔ m.max < maxPages := by
    simp [UInt64.lt_iff_toNat_lt, UInt32.lt_iff_toNat_lt]
  simp only [checkMemoryImport, hscan, Assembly.findSome?_memory?, hm, Option.map_some,
    Assembly.MemoryImport.limits, hmin, hmax]
  cases m.shared <;>
    simp [missingMemory, memoryMismatch, Assembly.MemoryImport.entry, Fault.typeMismatch]

theorem checkMemoryImport_ok_iff (hfits : a.Fits) (hpages : pages ≤ maxPages) :
    checkMemoryImport wanted pages maxPages a.encode = .ok () ↔
      ∃ m ∈ a.memory, m.SatisfiedBy wanted pages maxPages := by
  cases hm : a.memory with
  | none => simp [checkMemoryImport_of_none hfits hm]
  | some m =>
    simp only [Option.mem_some_iff, exists_eq_left']
    by_cases hbounds : m.min ≤ m.max
    · rw [checkMemoryImport_of_some hfits hm hbounds]
      constructor
      · intro h
        split at h
        · cases h
        · grind [Assembly.MemoryImport.SatisfiedBy]
      · intro h
        rw [if_neg (by simp [h.module, h.name]), if_neg (by simp [h.shared]),
          if_neg (UInt32.not_lt.2 h.min), if_neg (UInt32.not_lt.2 h.max)]
    · -- No memory fits into bounds that are inverted.
      rw [checkMemoryImport_of_inverted hfits hm (UInt32.not_le.1 hbounds)]
      exact iff_of_false nofun fun h =>
        hbounds (UInt32.le_trans h.min (UInt32.le_trans hpages h.max))

/-- Under the right name and with its bounds in order, a memory that is refused is of another
type. -/
theorem checkMemoryImport_of_named (hfits : a.Fits) (hm : a.memory = some m)
    (hbounds : m.min ≤ m.max) (hmodule : m.module = wanted.module) (hname : m.name = wanted.name)
    (hrefused : ¬m.SatisfiedBy wanted pages maxPages) :
    ∃ detail, checkMemoryImport wanted pages maxPages a.encode =
      .error (memoryMismatch wanted detail) := by
  rw [checkMemoryImport_of_some hfits hm hbounds, if_neg (by simp [hmodule, hname])]
  split
  · exact ⟨_, rfl⟩
  split
  · exact ⟨_, rfl⟩
  split
  · exact ⟨_, rfl⟩
  next hshared hmin hmax =>
  exact absurd ⟨hmodule, hname, by simpa using hshared, UInt32.not_lt.1 hmin,
    UInt32.not_lt.1 hmax⟩ hrefused

/-- The check accepts a guest just when the shared memory satisfies its memory import. A guest that
imports no memory, or one of another name, lacks the import; one of the right name imports another
type of memory. -/
theorem checkMemoryImport_decides_satisfaction (hfits : a.Fits) (hpages : pages ≤ maxPages) :
    (checkMemoryImport wanted pages maxPages a.encode = .ok () ↔
        ∃ m ∈ a.memory, m.SatisfiedBy wanted pages maxPages) ∧
      (a.memory = none →
        checkMemoryImport wanted pages maxPages a.encode = .error (missingMemory wanted)) ∧
      ∀ m ∈ a.memory, m.min ≤ m.max →
        (¬(m.module = wanted.module ∧ m.name = wanted.name) →
          checkMemoryImport wanted pages maxPages a.encode = .error (missingMemory wanted)) ∧
        (m.module = wanted.module → m.name = wanted.name → ¬m.SatisfiedBy wanted pages maxPages →
          ∃ detail, checkMemoryImport wanted pages maxPages a.encode =
            .error (memoryMismatch wanted detail)) := by
  refine ⟨checkMemoryImport_ok_iff hfits hpages, checkMemoryImport_of_none hfits,
    fun m hm hbounds => ⟨fun hother => ?_, checkMemoryImport_of_named hfits hm hbounds⟩⟩
  rw [checkMemoryImport_of_some hfits hm hbounds, if_pos (by grind)]

end

/-- A guest that imports a function before its memory of three to six pages. -/
def spacious : Assembly where
  imports := [{ module := "env", name := "post", type := { params := [.i32, .i32] } }]
  memory := some { module := "env", name := "memory", min := 3, max := 6, shared := true }

theorem spacious_fits : spacious.Fits := by constructor <;> decide +kernel

/-- A memory of four pages that may grow to five is in between, one of two pages is too small and
one that may grow to seven is too large. -/
theorem checkMemoryImport_of_spacious :
    checkMemoryImport ⟨"env", "memory"⟩ 4 5 spacious.encode = .ok () ∧
      (∃ detail, checkMemoryImport ⟨"env", "memory"⟩ 2 5 spacious.encode =
        .error (memoryMismatch ⟨"env", "memory"⟩ detail)) ∧
      (∃ detail, checkMemoryImport ⟨"env", "memory"⟩ 4 7 spacious.encode =
        .error (memoryMismatch ⟨"env", "memory"⟩ detail)) ∧
      checkMemoryImport ⟨"env", "heap"⟩ 4 5 spacious.encode =
        .error (missingMemory ⟨"env", "heap"⟩) := by
  refine ⟨?_, ?_, ?_, ?_⟩
  · exact (checkMemoryImport_decides_satisfaction spacious_fits (by decide)).1.2
      ⟨_, rfl, by constructor <;> decide⟩
  · exact ((checkMemoryImport_decides_satisfaction spacious_fits (by decide)).2.2 _ rfl
      (by decide)).2 rfl rfl fun h => absurd h.min (by decide)
  · exact ((checkMemoryImport_decides_satisfaction spacious_fits (by decide)).2.2 _ rfl
      (by decide)).2 rfl rfl fun h => absurd h.max (by decide)
  · exact ((checkMemoryImport_decides_satisfaction spacious_fits (by decide)).2.2 _ rfl
      (by decide)).1 (by decide)

end GuestThreads
