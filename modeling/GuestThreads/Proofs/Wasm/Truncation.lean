import GuestThreads.Proofs.Leb128.Canonical
import GuestThreads.Proofs.Wasm.ImportScan

/-!
# Modules that are cut short

A scan reads whole sections. No section begins another one, so a module that breaks off inside a
section is refused, and one that breaks off between two sections has no imports if those were still
to come: `truncation_yields_no_partial_imports`. What follows the import section is not looked at.
-/

namespace GuestThreads

variable {ε α : Type}

/-- A read that yields a value has consumed bytes that yield this value anywhere. -/
def Exact (p : ExceptT ε (StateM Cursor) α) : Prop :=
  ∀ {c c' : Cursor} {a : α}, p c = (.ok a, c') →
    ∃ bs, c.rest = bs ++ c'.rest ∧ Answers p bs (.ok a)

/-- An exact read fails if some of the bytes that it would consume are missing. -/
theorem Exact.truncated {p : ExceptT ε (StateM Cursor) α} {bs : Bytes} {a : α} (hp : Exact p)
    (h : Answers p bs (.ok a)) {k : Nat} (hk : k < bs.length) (pos : Nat) :
    ∃ e, (p ⟨bs.take k, pos⟩).1 = .error e := by
  rcases hrun : p ⟨bs.take k, pos⟩ with ⟨e | a', c'⟩
  · exact ⟨e, rfl⟩
  · -- Otherwise the read would stop at two places, at the end of `bs` and within `bs.take k`.
    obtain ⟨bs', hrest, h'⟩ := hp hrun
    replace hrest : bs.take k = bs' ++ c'.rest := hrest
    have hbytes : bs' ++ (c'.rest ++ bs.drop k) = bs ++ [] := by
      rw [← List.append_assoc, ← hrest, List.take_append_drop, List.append_nil]
    have hlate := h [] pos
    rw [← hbytes, h' _ pos] at hlate
    have hstop : pos + bs'.length = pos + bs.length := by
      injection hlate with _ hcursor
      injection hcursor
    have hshort := congrArg List.length hrest
    rw [List.length_take, List.length_append] at hshort
    omega

namespace Cursor

theorem rest_of_byte {c c' : Cursor} {b : UInt8} (h : byte c = (.ok b, c')) :
    c.rest = b :: c'.rest := by
  obtain ⟨_ | ⟨b', rest⟩, pos⟩ := c
  · cases h
  · cases h
    rfl

end Cursor

namespace Wasm.Import

open Leb128 (Number value)

/-! ## Sections -/

/-- A section as it is read. Its size takes up to five groups, of which the low 32 bits count. -/
inductive Framed (id : UInt8) (body : Bytes) : Bytes → Prop
  | mk {size : Bytes} (hnumber : Number size) (hlength : size.length ≤ 5)
      (hsize : value size % 2 ^ 32 = body.length) : Framed id body (id :: (size ++ body))

/-- A section that is not an import section. -/
def Other (bs : Bytes) : Prop := ∃ id body, id ≠ 2 ∧ Framed id body bs

section

variable {id : UInt8} {body bs : Bytes}

theorem Framed.length_pos (h : Framed id body bs) : 0 < bs.length := by
  cases h
  simp

theorem Framed.answers (h : Framed id body bs) : Answers nextSection bs (.ok (id, body)) := by
  obtain ⟨hnumber, hlength, hsize⟩ := h
  rename_i size
  have hword : Answers Cursor.u32 size (.ok (value size).toUInt32) :=
    (Cursor.leb128_answers (hnumber.spelled hlength)).andThen (Answers.value _)
  exact nextSection_answers hword hsize

theorem read_ok {r : Cursor.Read α} {wrap : Cursor.Failure → ScanError} {c c' : Cursor} {a : α}
    (h : read r wrap c = (.ok a, c')) : r c = (.ok a, c') := by
  rw [read] at h
  rcases hrun : r c with ⟨e | a', t⟩
  · rw [hrun] at h
    cases h
  · rw [hrun] at h
    cases h
    rfl

theorem framed_of_nextSection {c c' : Cursor} (h : nextSection c = (.ok (id, body), c')) :
    ∃ bs, c.rest = bs ++ c'.rest ∧ Framed id body bs := by
  rw [nextSection_eq] at h
  obtain ⟨id', c₁, hid, h⟩ := bind_ok h
  obtain ⟨size, c₂, hsize, h⟩ := bind_ok h
  obtain ⟨front, last, hrest₁, -, hfront, hlast, hlength, hvalue, -⟩ :=
    (Cursor.readsWord_u32 c₁).word (read_ok hsize)
  have hrest : c.rest = id' :: c₁.rest := by
    exact Cursor.rest_of_byte (read_ok hid)
  by_cases hroom : c₂.remaining < size.toNat
  · rw [sectionBody, if_pos hroom] at h
    cases h
  · rw [sectionBody, if_neg hroom] at h
    cases h
    refine ⟨_, ?_, .mk ⟨front, last, rfl, hfront, hlast⟩ hlength ?_⟩
    · simp [hrest, hrest₁]
    · rw [← hvalue, List.length_take_of_le (Nat.le_of_not_lt hroom)]

theorem nextSection_exact : Exact nextSection := by
  rintro c c' ⟨id, body⟩ h
  obtain ⟨bs, hrest, hframed⟩ := framed_of_nextSection h
  exact ⟨bs, hrest, hframed.answers⟩

theorem Framed.truncated (h : Framed id body bs) {k : Nat} (hk : k < bs.length) (pos : Nat) :
    ∃ e, (nextSection ⟨bs.take k, pos⟩).1 = .error e :=
  nextSection_exact.truncated h.answers hk pos

/-! ## Sections in a row -/

theorem scanSections_nil (sections pos : Nat) : scanSections sections ⟨[], pos⟩ = .ok [] := by
  cases sections <;> rfl

/-- A scan fails where a section breaks off. -/
theorem scanSections_truncated (h : Framed id body bs) {k : Nat} (hpos : 0 < k)
    (hk : k < bs.length) (sections pos : Nat) :
    ∃ e, scanSections (sections + 1) ⟨bs.take k, pos⟩ = .error e := by
  obtain ⟨e, he⟩ := h.truncated hk pos
  have hfull : (bs.take k).isEmpty = false := by
    rw [List.isEmpty_eq_false_iff, ← List.length_pos_iff, List.length_take]
    omega
  refine ⟨e, ?_⟩
  rw [scanSections]
  simp only [hfull]
  rcases hrun : nextSection ⟨bs.take k, pos⟩ with ⟨e' | found, c⟩
  · rw [hrun] at he
    cases he
    rfl
  · rw [hrun] at he
    cases he

variable {before : List Bytes} {sections : Nat}

/-- Sections without the imports are passed over. -/
theorem scanSections_passes (hbefore : ∀ s ∈ before, Other s) (rest : Bytes)
    (hsections : before.flatten.length < sections) (pos : Nat) :
    ∃ sections' pos', 0 < sections' ∧
      scanSections sections ⟨before.flatten ++ rest, pos⟩ =
        scanSections sections' ⟨rest, pos'⟩ := by
  induction before generalizing sections pos with
  | nil => exact ⟨sections, pos, hsections, rfl⟩
  | cons s before ih =>
    obtain ⟨id, body, hid, hs⟩ := hbefore s (by simp)
    have hpos := hs.length_pos
    rw [List.flatten_cons, List.length_append] at hsections
    obtain ⟨sections, rfl⟩ : ∃ n, sections = n + 1 := ⟨sections - 1, by omega⟩
    rw [List.flatten_cons, List.append_assoc, scanSections_step hs.answers, if_neg hid]
    exact ih (fun t ht => hbefore t (by simp [ht])) (by omega) _

/-- Bytes that are scanned without a failure are whole sections, at least up to the imports. -/
theorem sections_of_scanSections {rest : Bytes} {pos : Nat} {imports : List Import}
    (h : scanSections sections ⟨rest, pos⟩ = .ok imports) (hsections : rest.length < sections) :
    ∃ before : List Bytes, (∀ s ∈ before, Other s) ∧
      (rest = before.flatten ∧ imports = [] ∨
        ∃ bs body after, Framed 2 body bs ∧ rest = before.flatten ++ (bs ++ after)) := by
  induction sections generalizing rest pos with
  | zero => omega
  | succ sections ih =>
    rw [scanSections] at h
    cases rest with
    | nil =>
      cases h
      exact ⟨[], by simp, .inl ⟨rfl, rfl⟩⟩
    | cons b rest =>
      rcases hrun : nextSection ⟨b :: rest, pos⟩ with ⟨e | ⟨id, body⟩, c⟩
      · rw [hrun] at h
        cases h
      · obtain ⟨bs, hbytes, hframed⟩ := framed_of_nextSection hrun
        replace hbytes : b :: rest = bs ++ c.rest := hbytes
        rw [hrun] at h
        replace h : (if id = 2 then scanSection body else scanSections sections c) =
          .ok imports := h
        by_cases hid : id = 2
        · subst hid
          exact ⟨[], by simp, .inr ⟨bs, body, c.rest, hframed, hbytes⟩⟩
        · rw [if_neg hid] at h
          have hlength := congrArg List.length hbytes
          have hpos := hframed.length_pos
          rw [List.length_append] at hlength
          obtain ⟨before, hbefore, hcase⟩ := ih h (by omega)
          have hall : ∀ s ∈ bs :: before, Other s := by
            rw [List.forall_mem_cons]
            exact ⟨⟨id, body, hid, hframed⟩, hbefore⟩
          refine ⟨bs :: before, hall, ?_⟩
          rw [hbytes, List.flatten_cons]
          rcases hcase with ⟨hrest, himports⟩ | ⟨bs', body', after, hframed', hrest⟩
          · exact .inl ⟨by rw [hrest], himports⟩
          · exact .inr ⟨bs', body', after, hframed', by rw [hrest, List.append_assoc]⟩

/-- Where a row of sections is cut: behind some of them, or within one. -/
theorem take_sections {P : Bytes → Prop} (hbefore : ∀ s ∈ before, P s) (hbs : P bs) (after : Bytes)
    {k : Nat} (hk : k < before.flatten.length + bs.length) :
    ∃ front s j, front <+: before ∧ P s ∧ j < s.length ∧ k = front.flatten.length + j ∧
      (before.flatten ++ (bs ++ after)).take k = front.flatten ++ s.take j := by
  induction before generalizing k with
  | nil =>
    have hk' : k < bs.length := by simpa using hk
    refine ⟨[], bs, k, List.nil_prefix, hbs, hk', by simp, ?_⟩
    simp [List.take_append_of_le_length hk'.le]
  | cons s before ih =>
    rw [List.flatten_cons, List.length_append] at hk
    rw [List.flatten_cons]
    by_cases hs : k < s.length
    · refine ⟨[], s, k, List.nil_prefix, hbefore s (by simp), hs, by simp, ?_⟩
      simp [List.take_append_of_le_length hs.le]
    · obtain ⟨front, t, j, hfront, ht, hj, hk', htake⟩ :=
        @ih (fun t ht => hbefore t (by simp [ht])) (k - s.length) (by omega)
      refine ⟨s :: front, t, j, List.cons_prefix_cons.2 ⟨rfl, hfront⟩, ht, hj, ?_, ?_⟩
      · rw [List.flatten_cons, List.length_append]
        omega
      · rw [List.append_assoc, List.take_append, List.take_of_length_le (by omega), htake,
          List.flatten_cons, List.append_assoc]

/-! ## Modules -/

/-- The first import section of a module, behind the sections `before`, ends at `finish`. -/
inductive ImportsEndAt : (wasm : Bytes) → (before : List Bytes) → (finish : Nat) → Prop
  | mk {version bs body after : Bytes} {before : List Bytes} (hversion : version.length = 4)
      (hbefore : ∀ s ∈ before, Other s) (himports : Framed 2 body bs) :
      ImportsEndAt (header.take 4 ++ version ++ (before.flatten ++ (bs ++ after))) before
        (8 + before.flatten.length + bs.length)

/-- A module without an import section. -/
inductive WithoutImports : Bytes → Prop
  | mk {version : Bytes} {before : List Bytes} (hversion : version.length = 4)
      (hbefore : ∀ s ∈ before, Other s) :
      WithoutImports (header.take 4 ++ version ++ before.flatten)

theorem WithoutImports.scan_eq {wasm : Bytes} (h : WithoutImports wasm) : scan wasm = .ok [] := by
  obtain ⟨hversion, hbefore⟩ := h
  rename_i version before
  obtain ⟨sections, pos, -, hscan⟩ := scanSections_passes hbefore []
    (by omega : before.flatten.length < before.flatten.length + 8) 0
  rw [List.append_nil, scanSections_nil] at hscan
  rw [scan_header hversion, hscan]

theorem scan_sections {version : Bytes} (hversion : version.length = 4)
    (hbefore : ∀ s ∈ before, Other s) (himports : Framed 2 body bs) (after : Bytes) :
    scan (header.take 4 ++ version ++ (before.flatten ++ (bs ++ after))) = scanSection body := by
  obtain ⟨sections, pos, hpos, hscan⟩ := scanSections_passes hbefore (bs ++ after)
    (by rw [List.length_append]; omega :
      before.flatten.length < (before.flatten ++ (bs ++ after)).length + 8) 0
  obtain ⟨sections, rfl⟩ : ∃ n, sections = n + 1 := ⟨sections - 1, by omega⟩
  rw [scan_header hversion, hscan, scanSections_step himports.answers,
    if_pos rfl]

theorem header_of_scan {wasm : Bytes} {imports : List Import} (h : scan wasm = .ok imports) :
    ∃ version rest, version.length = 4 ∧ wasm = header.take 4 ++ version ++ rest := by
  by_cases hheader : wasm.length < header.length ∨ wasm.take 4 ≠ header.take 4
  · rw [scan, if_pos hheader] at h
    cases h
  · obtain ⟨hlength, hmagic⟩ := not_or.1 hheader
    have hversion : ((wasm.drop 4).take 4).length = 4 := by
      simp [header] at hlength ⊢
      omega
    refine ⟨_, (wasm.drop 4).drop 4, hversion, ?_⟩
    rw [← not_not.1 hmagic, List.append_assoc, List.take_append_drop, List.take_append_drop]

/-- What a scan accepts has the form of a module, as far as it is looked at. -/
theorem module_of_scan {wasm : Bytes} {imports : List Import} (h : scan wasm = .ok imports) :
    (∃ before finish, ImportsEndAt wasm before finish) ∨ imports = [] ∧ WithoutImports wasm := by
  obtain ⟨version, rest, hversion, rfl⟩ := header_of_scan h
  rw [scan_header hversion] at h
  obtain ⟨before, hbefore, ⟨rfl, himports⟩ | ⟨bs, body, after, hframed, rfl⟩⟩ :=
    sections_of_scanSections h (by omega)
  · exact .inr ⟨himports, .mk hversion hbefore⟩
  · exact .inl ⟨before, _, .mk hversion hbefore hframed⟩

theorem scan_take_header (wasm : Bytes) {k : Nat} (hk : k < 8) :
    scan (wasm.take k) = .error .notWasm := by
  refine if_pos (.inl ?_)
  rw [List.length_take]
  exact Nat.lt_of_le_of_lt (Nat.min_le_left ..) hk

theorem take_module {version : Bytes} (hversion : version.length = 4) (rest : Bytes) {k : Nat}
    (hk : 8 ≤ k) :
    (header.take 4 ++ version ++ rest).take k = header.take 4 ++ version ++ rest.take (k - 8) := by
  have hlength : (header.take 4 ++ version).length = 8 := by simp [header, hversion]
  rw [List.take_append, List.take_of_length_le (by omega), hlength]

namespace ImportsEndAt

variable {wasm : Bytes} {finish : Nat}

/-- A module that ends with some of the sections before the imports has none. -/
theorem withoutImports (h : ImportsEndAt wasm before finish) {front : List Bytes}
    (hfront : front <+: before) : WithoutImports (wasm.take (8 + front.flatten.length)) := by
  obtain ⟨hversion, hbefore, -⟩ := h
  obtain ⟨others, rfl⟩ := hfront
  rw [take_module hversion _ (by omega), Nat.add_sub_cancel_left, List.flatten_append,
    List.append_assoc front.flatten, List.take_left]
  exact .mk hversion fun s hs => hbefore s (by simp [hs])

/-- A module that breaks off before the end of the imports is refused, unless it ends with a section
in front of them. -/
theorem scan_take (h : ImportsEndAt wasm before finish) {k : Nat} (hk : k < finish) :
    (∃ e, scan (wasm.take k) = .error e) ∨
      ∃ front, front <+: before ∧ k = 8 + front.flatten.length := by
  obtain ⟨hversion, hbefore, himports⟩ := h
  rename_i version bs body after
  by_cases hheader : k < 8
  · exact .inl ⟨_, scan_take_header _ hheader⟩
  · have hframed : ∀ s ∈ before, ∃ id body, Framed id body s := by
      intro s hs
      obtain ⟨id, body, -, h⟩ := hbefore s hs
      exact ⟨id, body, h⟩
    obtain ⟨front, s, j, hfront, ⟨id, body', hs⟩, hj, hcut, htake⟩ :=
      take_sections hframed ⟨2, body, himports⟩ after
        (by omega : k - 8 < before.flatten.length + bs.length)
    rcases Nat.eq_zero_or_pos j with rfl | hpos
    · exact .inr ⟨front, hfront, by omega⟩
    · have hothers : ∀ t ∈ front, Other t := fun t ht => hbefore t (hfront.subset ht)
      obtain ⟨sections, pos, hsections, hscan⟩ := scanSections_passes hothers (s.take j)
        (by rw [List.length_append]; omega :
          front.flatten.length < (front.flatten ++ s.take j).length + 8) 0
      obtain ⟨sections, rfl⟩ : ∃ n, sections = n + 1 := ⟨sections - 1, by omega⟩
      rw [take_module hversion _ (by omega), htake, scan_header hversion, hscan]
      exact .inl (scanSections_truncated hs hpos hj sections pos)

/-- What follows the imports does not matter. -/
theorem scan_append (h : ImportsEndAt wasm before finish) (more : Bytes) :
    scan (wasm ++ more) = scan wasm := by
  obtain ⟨hversion, hbefore, himports⟩ := h
  rename_i version bs body after
  have hwasm : header.take 4 ++ version ++ (before.flatten ++ (bs ++ after)) ++ more =
      header.take 4 ++ version ++ (before.flatten ++ (bs ++ (after ++ more))) := by
    simp only [List.append_assoc]
  rw [hwasm, scan_sections hversion hbefore himports, scan_sections hversion hbefore himports]

end ImportsEndAt

/-- A scan never yields a part of the imports. If it accepts a module with an import section, then
it accepts what the module begins with, up to the end of that section, only where a section in front
of the imports ends, and then there are no imports. Whatever is added to the module, the imports
stay the same. A module without an import section has no imports. -/
theorem truncation_yields_no_partial_imports {wasm : Bytes} {imports : List Import}
    (h : scan wasm = .ok imports) :
    ((∃ before finish, ImportsEndAt wasm before finish) ∨ imports = [] ∧ WithoutImports wasm) ∧
    ∀ before finish, ImportsEndAt wasm before finish →
      (∀ k < finish, ∀ found, scan (wasm.take k) = .ok found ↔
        found = [] ∧ ∃ front, front <+: before ∧ k = 8 + front.flatten.length) ∧
      ∀ more, scan (wasm ++ more) = .ok imports := by
  refine ⟨module_of_scan h, fun before finish hends => ⟨fun k hk found => ?_, fun more => ?_⟩⟩
  · constructor
    · intro hfound
      rcases hends.scan_take hk with ⟨e, he⟩ | ⟨front, hfront, rfl⟩
      · rw [he] at hfound
        cases hfound
      · rw [(hends.withoutImports hfront).scan_eq] at hfound
        cases hfound
        exact ⟨rfl, front, hfront, rfl⟩
    · rintro ⟨rfl, front, hfront, rfl⟩
      exact (hends.withoutImports hfront).scan_eq
  · rw [hends.scan_append, h]

/-- A module with a custom section whose size takes one group more than it needs, an import section
and a byte that belongs to neither. -/
theorem truncation_of_one_memory :
    let custom : Bytes := [0, 0x82, 0x00, 7, 7]
    let imports : Bytes := [2, 7, 1, 1, 0x61, 0, 2, 0, 3]
    let wasm := header ++ custom ++ imports ++ [9]
    let found : List Import := [{ module := "a", name := "", desc := .memory { min := 3 } }]
    scan wasm = .ok found ∧ ImportsEndAt wasm [custom] 22 ∧
      (∀ k < 22, ∀ part, scan (wasm.take k) = .ok part ↔ part = [] ∧ (k = 8 ∨ k = 13)) ∧
      scan (wasm ++ [2, 0]) = .ok found := by
  intro custom imports wasm found
  have hscan : scan wasm = .ok found := by decide +kernel
  have hends : ImportsEndAt wasm [custom] 22 := by
    have hcustom : Framed 0 [7, 7] custom :=
      @Framed.mk 0 [7, 7] [0x82, 0x00] ⟨[0x82], 0x00, rfl, by decide +kernel, by decide⟩
        (by decide) (by decide)
    have himports : Framed 2 [1, 1, 0x61, 0, 2, 0, 3] imports :=
      @Framed.mk 2 [1, 1, 0x61, 0, 2, 0, 3] [7] ⟨[], 7, rfl, by decide +kernel, by decide⟩
        (by decide) (by decide)
    refine @ImportsEndAt.mk [1, 0, 0, 0] imports _ [9] [custom] rfl ?_ himports
    intro s hs
    cases List.mem_singleton.1 hs
    exact ⟨0, _, by decide, hcustom⟩
  obtain ⟨hcuts, hmore⟩ := (truncation_yields_no_partial_imports hscan).2 [custom] 22 hends
  refine ⟨hscan, hends, fun k hk part => (hcuts k hk part).trans ?_, hmore [2, 0]⟩
  have hfronts (front : List Bytes) : front <+: [custom] ↔ front = [] ∨ front = [custom] := by
    simp [List.prefix_cons_iff]
  simp only [hfronts, or_and_right, exists_or, exists_eq_left]
  rfl

end

end Wasm.Import

end GuestThreads
