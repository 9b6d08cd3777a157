import GuestThreads.Text.Blank
import GuestThreads.Text.Literal
import Mathlib.Data.Nat.Digits.Defs
import Mathlib.Tactic.IntervalCases

/-!
# The grammar of integer literals

`Literal cs n` says that `cs` is an unsigned literal for `n`. A literal begins with a mark that
tells its base, or it is decimal and does not begin with a zero. Digits may be set apart by
underscores, one between two digits or after the mark. Reading a literal follows this grammar, up to
a limit on the number: `parseUnsigned_eq_ok_iff`.
-/

namespace GuestThreads.Text

/-! ## The grammar -/

/-- The character stands for the digit, in lower or in upper case. -/
def Digit (base : Nat) (c : Char) (d : Nat) : Prop :=
  d < base ∧ (c = d.digitChar ∨ c = d.digitChar.toUpper)

/-- Digits, the most significant first, with an underscore between two of them here and there. -/
inductive Numeral (base : Nat) : List Char → List Nat → Prop
  | last {c : Char} {d : Nat} (h : Digit base c d) : Numeral base [c] [d]
  | next {c : Char} {d : Nat} {cs : List Char} {ds : List Nat} (h : Digit base c d)
      (hrest : Numeral base cs ds) : Numeral base (c :: cs) (d :: ds)
  | separated {c : Char} {d : Nat} {cs : List Char} {ds : List Nat} (h : Digit base c d)
      (hrest : Numeral base cs ds) : Numeral base (c :: '_' :: cs) (d :: ds)

/-- The beginnings of literals that are not decimal, with the bases that they tell. -/
def baseMarks : List (List Char × Nat) :=
  [(['0'], 8), (['0', 'b'], 2), (['0', 'B'], 2), (['0', 'o'], 8), (['0', 'O'], 8), (['0', 'x'], 16),
    (['0', 'X'], 16)]

/-- An unsigned literal and its number. -/
inductive Literal : List Char → Nat → Prop
  | zero : Literal ['0'] 0
  | decimal {cs : List Char} {ds : List Nat} (h : Numeral 10 cs ds) (hfirst : cs.head? ≠ some '0') :
      Literal cs (Nat.ofDigits 10 ds.reverse)
  | marked {mark separator cs : List Char} {base : Nat} {ds : List Nat}
      (hmark : (mark, base) ∈ baseMarks) (hseparator : separator = [] ∨ separator = ['_'])
      (h : Numeral base cs ds) : Literal (mark ++ separator ++ cs) (Nat.ofDigits base ds.reverse)

theorem base_bounds {mark : List Char} {base : Nat} (h : (mark, base) ∈ baseMarks) :
    1 < base ∧ base ≤ 16 ∧ base ≠ 10 := by
  have hall : ∀ p ∈ baseMarks, 1 < p.2 ∧ p.2 ≤ 16 ∧ p.2 ≠ 10 := by decide
  exact hall _ h

/-! ## Digits -/

/-- The places of the digits among the characters. -/
theorem digitValue?_eq_some {c : Char} {d : Nat} (h : digitValue? c = some d) :
    c.toNat = d + 48 ∧ d < 10 ∨ c.toNat = d + 87 ∧ 10 ≤ d ∨ c.toNat = d + 55 ∧ 10 ≤ d := by
  simp only [digitValue?, Char.le_def, UInt32.le_iff_toNat_le] at h
  change (if 48 ≤ c.toNat ∧ c.toNat ≤ 57 then some (c.toNat - 48) else
    if 97 ≤ c.toNat ∧ c.toNat ≤ 122 then some (c.toNat - 97 + 10) else
    if 65 ≤ c.toNat ∧ c.toNat ≤ 90 then some (c.toNat - 65 + 10) else none) = some d at h
  grind

theorem digitValue?_eq_some_iff {base : Nat} (hbase : base ≤ 16) {c : Char} {d : Nat} :
    digitValue? c = some d ∧ d < base ↔ Digit base c d := by
  unfold Digit
  rw [and_comm]
  refine and_congr_right fun hd => ⟨fun h => ?_, fun h => ?_⟩
  · have hchar {n : Nat} (hn : c.toNat = n) : c = Char.ofNat n := by rw [← hn, Char.ofNat_toNat]
    have hd' : d < 16 := by omega
    rcases digitValue?_eq_some h with ⟨hcode, hlow⟩ | ⟨hcode, hhigh⟩ | ⟨hcode, hhigh⟩ <;>
      rw [hchar hcode] <;> interval_cases d <;> decide
  · have hd' : d < 16 := by omega
    interval_cases d <;> rcases h with rfl | rfl <;> decide

theorem Digit.ne_underscore {base : Nat} (hbase : base ≤ 16) {c : Char} {d : Nat}
    (h : Digit base c d) : c ≠ '_' := by
  rintro rfl
  cases ((digitValue?_eq_some_iff hbase).2 h).1

/-- Digits with underscores anywhere. -/
inductive Scattered (base : Nat) : List Char → List Nat → Prop
  | nil : Scattered base [] []
  | digit {c : Char} {d : Nat} {cs : List Char} {ds : List Nat} (h : Digit base c d)
      (hrest : Scattered base cs ds) : Scattered base (c :: cs) (d :: ds)
  | underscore {cs : List Char} {ds : List Nat} (hrest : Scattered base cs ds) :
      Scattered base ('_' :: cs) ds

theorem Numeral.scattered {base : Nat} {cs : List Char} {ds : List Nat} (h : Numeral base cs ds) :
    Scattered base cs ds := by
  induction h with
  | last h => exact .digit h .nil
  | next h _ ih => exact .digit h ih
  | separated h _ ih => exact .digit h (.underscore ih)

/-- The number that digits come to when they are read after another number. -/
def appended (base value : Nat) (ds : List Nat) : Nat := ds.foldl (fun v d => v * base + d) value

theorem appended_zero (base : Nat) (ds : List Nat) :
    appended base 0 ds = Nat.ofDigits base ds.reverse := by
  rw [Nat.ofDigits_eq_foldr, List.foldr_reverse, appended]
  congr 1
  funext v d
  simp [Nat.mul_comm, Nat.add_comm]

theorem le_appended {base : Nat} (hbase : 1 < base) (value : Nat) (ds : List Nat) :
    value ≤ appended base value ds := by
  induction ds generalizing value with
  | nil => exact Nat.le_refl value
  | cons d ds ih =>
    calc value ≤ value * base := Nat.le_mul_of_pos_right value (by omega)
      _ ≤ value * base + d := Nat.le_add_right _ _
      _ ≤ appended base value (d :: ds) := ih _

theorem scattered_cons_iff {base : Nat} {c : Char} (hc : c ≠ '_') {cs : List Char} {ds : List Nat} :
    Scattered base (c :: cs) ds ↔
      ∃ d ds', ds = d :: ds' ∧ Digit base c d ∧ Scattered base cs ds' := by
  constructor
  · intro h
    cases h with
    | digit h hrest => exact ⟨_, _, rfl, h, hrest⟩
    | underscore hrest => exact absurd rfl hc
  · rintro ⟨d, ds', rfl, h, hrest⟩
    exact .digit h hrest

theorem scattered_underscore_iff {base : Nat} (hbase : base ≤ 16) {cs : List Char} {ds : List Nat} :
    Scattered base ('_' :: cs) ds ↔ Scattered base cs ds := by
  refine ⟨fun h => ?_, .underscore⟩
  cases h with
  | digit h hrest => exact absurd rfl (h.ne_underscore hbase)
  | underscore hrest => exact hrest

/-- Digits are read up to the limit, whatever the underscores. -/
theorem digitsValue_eq_ok_iff {base limit value n : Nat} (hbase : 1 < base) (hbase' : base ≤ 16)
    (hvalue : value ≤ limit) {cs : List Char} :
    digitsValue base limit value cs = .ok n ↔
      ∃ ds, Scattered base cs ds ∧ n = appended base value ds ∧ n ≤ limit := by
  induction cs generalizing value with
  | nil =>
    constructor
    · intro h
      cases h
      exact ⟨[], .nil, rfl, hvalue⟩
    · rintro ⟨ds, hds, rfl, -⟩
      cases hds
      rfl
  | cons c cs ih =>
    rw [digitsValue]
    by_cases hc : c = '_'
    · rw [if_pos hc, ih hvalue]
      simp only [hc, scattered_underscore_iff hbase']
    · rw [if_neg hc]
      simp only [scattered_cons_iff hc, ← digitValue?_eq_some_iff hbase']
      cases digitValue? c with
      | none => simp
      | some d =>
        by_cases hd : d < base
        · by_cases hlimit : value * base + d ≤ limit
          · simp only [if_neg (Nat.not_le.2 hd), if_neg (Nat.not_lt.2 hlimit), ih hlimit]
            constructor
            · rintro ⟨ds, hds, hn, hle⟩
              exact ⟨d :: ds, ⟨d, ds, rfl, ⟨rfl, hd⟩, hds⟩, hn, hle⟩
            · rintro ⟨_, ⟨d', ds, rfl, ⟨hsame, -⟩, hds⟩, hn, hle⟩
              cases hsame
              exact ⟨ds, hds, hn, hle⟩
          · -- What is read from here on can only be larger.
            simp only [if_neg (Nat.not_le.2 hd), if_pos (Nat.lt_of_not_le hlimit)]
            refine iff_of_false (by simp) ?_
            rintro ⟨_, ⟨d', ds, rfl, ⟨hsame, -⟩, -⟩, rfl, hle⟩
            cases hsame
            exact absurd (Nat.le_trans (le_appended hbase (value * base + d) ds) hle) hlimit
        · simp only [if_pos (Nat.le_of_not_lt hd)]
          refine iff_of_false (by simp) ?_
          rintro ⟨_, ⟨d', ds, rfl, ⟨hsame, hd'⟩, -⟩, -⟩
          cases hsame
          exact absurd hd' hd

/-! ## Underscores -/

theorem underscoresSeparate_of_not_mem {cs : List Char} (h : '_' ∉ cs) (afterDigit : Bool) :
    underscoresSeparate afterDigit cs = true := by
  induction cs generalizing afterDigit with
  | nil => rfl
  | cons c cs ih =>
    have hc : c ≠ '_' := by grind
    rw [underscoresSeparate]
    · exact ih (by grind) true
    · grind

theorem Numeral.cons_iff {base : Nat} {c : Char} {d : Nat} {cs : List Char} {ds : List Nat}
    (h : Digit base c d) : Numeral base (c :: cs) (d :: ds) ↔
      cs = [] ∧ ds = [] ∨ Numeral base cs ds ∨ ∃ cs', cs = '_' :: cs' ∧ Numeral base cs' ds := by
  constructor
  · intro hall
    cases hall with
    | last => exact .inl ⟨rfl, rfl⟩
    | next _ hrest => exact .inr (.inl hrest)
    | separated _ hrest => exact .inr (.inr ⟨_, rfl, hrest⟩)
  · rintro (⟨rfl, rfl⟩ | hrest | ⟨cs', rfl, hrest⟩)
    · exact .last h
    · exact .next h hrest
    · exact .separated h hrest

theorem Numeral.head_ne {base : Nat} (hbase : base ≤ 16) {c : Char} {cs : List Char} {ds : List Nat}
    (h : Numeral base (c :: cs) ds) : c ≠ '_' := by
  cases h with
  | last h | next h | separated h => exact h.ne_underscore hbase

/-- Where underscores set digits apart, the digits are a numeral. One more may stand before them, if
it comes after a mark. -/
theorem underscoresSeparate_iff {base : Nat} (hbase : base ≤ 16) {cs : List Char} {ds : List Nat}
    (h : Scattered base cs ds) (afterDigit : Bool) : underscoresSeparate afterDigit cs = true ↔
      cs = [] ∨ Numeral base cs ds ∨
        afterDigit = true ∧ ∃ cs', cs = '_' :: cs' ∧ Numeral base cs' ds := by
  induction h generalizing afterDigit with
  | nil => simp [underscoresSeparate]
  | @digit c d cs ds hc hrest ih =>
    have hne := hc.ne_underscore hbase
    have hnil : cs = [] → ds = [] := by
      rintro rfl
      cases hrest
      rfl
    have hseparate : underscoresSeparate afterDigit (c :: cs) = underscoresSeparate true cs := by
      rw [underscoresSeparate]
      grind
    rw [hseparate, ih true, Numeral.cons_iff hc]
    grind
  | @underscore cs ds hrest ih =>
    have hnot : ¬Numeral base ('_' :: cs) ds := fun h => h.head_ne hbase rfl
    have hnil : ¬Numeral base [] ds := by
      intro h
      cases h
    cases cs with
    | nil => simp [underscoresSeparate, hnot, hnil]
    | cons c cs =>
      have hhead : Numeral base (c :: cs) ds → c ≠ '_' := fun h => h.head_ne hbase
      have hseparate : underscoresSeparate afterDigit ('_' :: c :: cs) =
          (afterDigit && c != '_' && underscoresSeparate false (c :: cs)) := rfl
      rw [hseparate]
      have := ih false
      grind

/-! ## Literals -/

section

variable {limit n : Nat} {cs : List Char}

/-- What is left of a literal once its base is told: no digit at all, or a numeral with perhaps an
underscore before it, which a decimal literal does not have. -/
inductive Remains : Nat × List Char → List Nat → Prop
  | none {base : Nat} : Remains (base, []) []
  | numeral {base : Nat} {cs : List Char} {ds : List Nat} (h : Numeral base cs ds) :
      Remains (base, cs) ds
  | separated {base : Nat} {cs : List Char} {ds : List Nat} (hbase : base ≠ 10)
      (h : Numeral base cs ds) : Remains (base, '_' :: cs) ds

theorem Remains.scattered {base : Nat} {ds : List Nat} (h : Remains (base, cs) ds) :
    Scattered base cs ds := by
  cases h with
  | none => exact .nil
  | numeral h => exact h.scattered
  | separated _ h => exact .underscore h.scattered

theorem underscoresSeparate_iff_remains {base : Nat} (hbase : base ≤ 16) {ds : List Nat}
    (h : Scattered base cs ds) :
    underscoresSeparate (base ≠ 10) cs = true ↔ Remains (base, cs) ds := by
  rw [underscoresSeparate_iff hbase h, decide_eq_true_iff]
  constructor
  · rintro (rfl | hnumeral | ⟨hten, cs', rfl, hnumeral⟩)
    · cases h
      exact .none
    · exact .numeral hnumeral
    · exact .separated hten hnumeral
  · intro hremains
    cases hremains with
    | none => exact .inl rfl
    | numeral h => exact .inr (.inl h)
    | separated hten h => exact .inr (.inr ⟨hten, _, rfl, h⟩)

theorem underscoresAllowed_eq (cs : List Char) :
    underscoresAllowed cs = underscoresSeparate ((literalBase cs).1 ≠ 10) (literalBase cs).2 := by
  unfold underscoresAllowed
  split
  next digits h => rw [h]; rfl
  next base digits hbase h =>
    rw [h, decide_eq_true (show base ≠ 10 from fun hten => hbase (hten ▸ rfl))]

theorem literalBase_bounds (cs : List Char) : 1 < (literalBase cs).1 ∧ (literalBase cs).1 ≤ 16 := by
  fun_cases literalBase cs <;> simp [*]

theorem mem_of_mem_literalBase {c : Char} : c ∈ (literalBase cs).2 → c ∈ cs := by
  fun_cases literalBase cs <;> grind

/-- Where there is no underscore there is nothing to judge. -/
theorem underscoresAllowed_of_not_mem (h : '_' ∉ cs) : underscoresAllowed cs = true := by
  rw [underscoresAllowed_eq]
  exact underscoresSeparate_of_not_mem (fun hmem => h (mem_of_mem_literalBase hmem)) _

theorem parseUnsigned_eq (h : cs ≠ []) : parseUnsigned limit cs = (do
    let value ← digitsValue (literalBase cs).1 limit 0 (literalBase cs).2
    if underscoresAllowed cs then return value else throw .syntaxError) := by
  obtain ⟨c, rest, rfl⟩ := List.exists_cons_of_ne_nil h
  simp only [parseUnsigned]
  cases digitsValue (literalBase (c :: rest)).1 limit 0 (literalBase (c :: rest)).2 with
  | error e => rfl
  | ok value =>
    by_cases hmem : '_' ∈ c :: rest
    · simp only [List.contains_iff_mem.2 hmem]
      cases underscoresAllowed (c :: rest) <;> rfl
    · have hcontains : (c :: rest).contains '_' = false := by simpa using hmem
      simp only [hcontains, underscoresAllowed_of_not_mem hmem]
      rfl

theorem parseUnsigned_eq_ok_iff_remains (h : cs ≠ []) : parseUnsigned limit cs = .ok n ↔
    ∃ ds, Remains (literalBase cs) ds ∧ n = Nat.ofDigits (literalBase cs).1 ds.reverse ∧
      n ≤ limit := by
  obtain ⟨hbase, hbase'⟩ := literalBase_bounds cs
  have hdigits : digitsValue (literalBase cs).1 limit 0 (literalBase cs).2 = .ok n ↔ _ :=
    digitsValue_eq_ok_iff hbase hbase' (Nat.zero_le limit)
  simp only [appended_zero] at hdigits
  have hsplit : parseUnsigned limit cs = .ok n ↔
      digitsValue (literalBase cs).1 limit 0 (literalBase cs).2 = .ok n ∧
        underscoresAllowed cs = true := by
    rw [parseUnsigned_eq h]
    cases digitsValue (literalBase cs).1 limit 0 (literalBase cs).2 with
    | error e => simp [bind, Except.bind]
    | ok value => cases underscoresAllowed cs <;> simp [bind, Except.bind, pure, Except.pure, throw,
        throwThe, MonadExceptOf.throw]
  rw [hsplit, hdigits, underscoresAllowed_eq]
  constructor
  · rintro ⟨⟨ds, hds, hn, hle⟩, hseparate⟩
    exact ⟨ds, (underscoresSeparate_iff_remains hbase' hds).1 hseparate, hn, hle⟩
  · rintro ⟨ds, hremains, hn, hle⟩
    have hds := hremains.scattered
    exact ⟨⟨ds, hds, hn, hle⟩, (underscoresSeparate_iff_remains hbase' hds).2 hremains⟩

theorem literalBase_of_head_ne (h : cs.head? ≠ some '0') : literalBase cs = (10, cs) := by
  fun_cases literalBase cs <;> grind

/-- A zero that is not part of a longer mark. -/
theorem literalBase_zero (h : ∀ c ∈ cs.head?, c ∉ ['b', 'B', 'o', 'O', 'x', 'X']) :
    literalBase ('0' :: cs) = (8, cs) := by
  match cs with
  | [] | [_] => rfl
  | m :: d :: rest =>
    have hm := h m rfl
    simp only [List.mem_cons, List.not_mem_nil, or_false, not_or] at hm
    simp [literalBase, hm]

theorem Digit.not_mark {c : Char} {d : Nat} (h : Digit 8 c d) :
    c ∉ ['b', 'B', 'o', 'O', 'x', 'X'] := by
  obtain ⟨hd, hc⟩ := h
  interval_cases d <;> rcases hc with rfl | rfl <;> decide

theorem Numeral.exists_head {base : Nat} {ds : List Nat} (h : Numeral base cs ds) :
    ∃ c d rest, cs = c :: rest ∧ Digit base c d := by
  cases h with
  | last h | next h | separated h => exact ⟨_, _, _, rfl, h⟩

theorem literalBase_marked {mark separator : List Char} {base : Nat} {ds : List Nat}
    (hmark : (mark, base) ∈ baseMarks) (hseparator : separator = [] ∨ separator = ['_'])
    (h : Numeral base cs ds) :
    literalBase (mark ++ separator ++ cs) = (base, separator ++ cs) := by
  obtain ⟨c, d, rest, rfl, hc⟩ := h.exists_head
  obtain ⟨first, others, hfirst⟩ : ∃ first others, separator ++ c :: rest = first :: others := by
    rcases hseparator with rfl | rfl <;> exact ⟨_, _, rfl⟩
  rw [List.append_assoc]
  simp only [baseMarks, List.mem_cons, List.not_mem_nil, or_false, Prod.mk.injEq] at hmark
  obtain ⟨rfl, rfl⟩ | ⟨rfl, rfl⟩ | ⟨rfl, rfl⟩ | ⟨rfl, rfl⟩ | ⟨rfl, rfl⟩ | ⟨rfl, rfl⟩ | ⟨rfl, rfl⟩ :=
    hmark
  · refine literalBase_zero ?_
    rcases hseparator with rfl | rfl
    · simpa using hc.not_mark
    · simp
  all_goals rw [hfirst]; rfl

/-- A text has a base mark, or it is taken for a decimal literal. -/
theorem literalBase_cases (cs : List Char) :
    cs.head? ≠ some '0' ∨ ∃ mark base rest, (mark, base) ∈ baseMarks ∧ cs = mark ++ rest ∧
      literalBase cs = (base, rest) ∧ (rest = [] → mark = ['0']) := by
  fun_cases literalBase cs with
  | case1 m d rest hm =>
    exact .inr ⟨['0', m], 2, d :: rest, by rcases hm with rfl | rfl <;> decide, rfl, rfl, by simp⟩
  | case2 m d rest _ hm =>
    exact .inr ⟨['0', m], 8, d :: rest, by rcases hm with rfl | rfl <;> decide, rfl, rfl, by simp⟩
  | case3 m d rest _ _ hm =>
    exact .inr ⟨['0', m], 16, d :: rest, by rcases hm with rfl | rfl <;> decide, rfl, rfl, by simp⟩
  | case4 m d rest => exact .inr ⟨['0'], 8, m :: d :: rest, by decide, rfl, rfl, by simp⟩
  | case5 rest => exact .inr ⟨['0'], 8, rest, by decide, rfl, rfl, by simp⟩
  | case6 cs _ hzero =>
    refine .inl fun hhead => ?_
    obtain ⟨rest, rfl⟩ := List.head?_eq_some_iff.1 hhead
    exact hzero rest rfl

theorem Literal.remains (h : Literal cs n) : cs ≠ [] ∧
    ∃ ds, Remains (literalBase cs) ds ∧ n = Nat.ofDigits (literalBase cs).1 ds.reverse := by
  cases h with
  | zero => exact ⟨by simp, [], .none, rfl⟩
  | @decimal cs ds h hfirst =>
    obtain ⟨c, d, rest, rfl, -⟩ := h.exists_head
    rw [literalBase_of_head_ne hfirst]
    exact ⟨by simp, ds, .numeral h, rfl⟩
  | @marked mark separator cs base ds hmark hseparator h =>
    obtain ⟨c, d, rest, rfl, -⟩ := h.exists_head
    rw [literalBase_marked hmark hseparator h]
    refine ⟨by simp, ds, ?_, rfl⟩
    rcases hseparator with rfl | rfl
    · exact .numeral h
    · exact .separated (base_bounds hmark).2.2 h

theorem Remains.literal (h : cs ≠ []) {ds : List Nat} (hds : Remains (literalBase cs) ds) :
    Literal cs (Nat.ofDigits (literalBase cs).1 ds.reverse) := by
  obtain hhead | ⟨mark, base, rest, hmark, rfl, hbase, hrest⟩ := literalBase_cases cs
  · rw [literalBase_of_head_ne hhead] at hds ⊢
    cases hds with
    | none => exact absurd rfl h
    | numeral hnumeral => exact .decimal hnumeral hhead
    | separated hten => exact absurd rfl hten
  · rw [hbase] at hds ⊢
    cases hds with
    | none =>
      cases hrest rfl
      exact .zero
    | numeral hnumeral => simpa using Literal.marked hmark (.inl rfl) hnumeral
    | separated _ hnumeral => simpa using Literal.marked hmark (.inr rfl) hnumeral

/-- The texts that are read are the literals of numbers within the limit. -/
theorem parseUnsigned_eq_ok_iff :
    parseUnsigned limit cs = .ok n ↔ Literal cs n ∧ n ≤ limit := by
  constructor
  · intro h
    have hcs : cs ≠ [] := by
      rintro rfl
      cases h
    obtain ⟨ds, hds, rfl, hle⟩ := (parseUnsigned_eq_ok_iff_remains hcs).1 h
    exact ⟨hds.literal hcs, hle⟩
  · rintro ⟨h, hle⟩
    obtain ⟨hcs, ds, hds, hn⟩ := h.remains
    exact (parseUnsigned_eq_ok_iff_remains hcs).2 ⟨ds, hds, hn, hle⟩

end

/-! ### Characters -/

/-- A character that is neither blank nor a comma. -/
def Plain (c : Char) : Prop := isBlank c = false ∧ c ≠ ','

theorem Digit.plain {base : Nat} (hbase : base ≤ 16) {c : Char} {d : Nat} (h : Digit base c d) :
    Plain c := by
  obtain ⟨hd, hc⟩ := h
  have hd' : d < 16 := by omega
  interval_cases d <;> rcases hc with rfl | rfl <;> exact ⟨by decide, by decide⟩

theorem Numeral.plain {base : Nat} (hbase : base ≤ 16) {cs : List Char} {ds : List Nat}
    (h : Numeral base cs ds) : ∀ c ∈ cs, Plain c := by
  induction h with
  | last h => simpa using h.plain hbase
  | next h _ ih => simpa using ⟨h.plain hbase, ih⟩
  | separated h _ ih => simpa using ⟨h.plain hbase, ⟨by decide, by decide⟩, ih⟩

theorem Literal.plain {cs : List Char} {n : Nat} (h : Literal cs n) : ∀ c ∈ cs, Plain c := by
  cases h with
  | zero => exact List.forall_mem_singleton.2 ⟨by decide, by decide⟩
  | decimal h => exact h.plain (by decide)
  | marked hmark hseparator h =>
    have hmarks : ∀ p ∈ baseMarks, p.1.all (fun c => !isBlank c && c ≠ ',') = true := by decide
    intro c hc
    obtain (hc | hc) | hc := (List.mem_append.1 hc).imp_left List.mem_append.1
    · simpa [Plain] using List.all_eq_true.1 (hmarks _ hmark) c hc
    · rcases hseparator with rfl | rfl
      · cases hc
      · rw [List.mem_singleton.1 hc]
        exact ⟨by decide, by decide⟩
    · exact h.plain (base_bounds hmark).2.1 c hc

/-! ## Numbers as literals -/

section

variable {base : Nat}

theorem Numeral.concat {cs : List Char} {ds : List Nat} (h : Numeral base cs ds) {c : Char}
    {d : Nat}
    (hc : Digit base c d) : Numeral base (cs ++ [c]) (ds ++ [d]) := by
  induction h with
  | last h => exact .next h (.last hc)
  | next h _ ih => exact .next h ih
  | separated h _ ih => exact .separated h ih

theorem digit_digitChar {d : Nat} (h : d < base) : Digit base d.digitChar d := ⟨h, .inl rfl⟩

/-- What is written of a number is a numeral for it. -/
theorem numeral_toDigits (hbase : 1 < base) (n : Nat) :
    ∃ ds, Numeral base (Nat.toDigits base n) ds ∧ Nat.ofDigits base ds.reverse = n := by
  induction n using Nat.strongRecOn with
  | ind n ih =>
    rw [Nat.toDigits_eq_if hbase]
    split
    case isTrue h => exact ⟨[n], .last (digit_digitChar h), by simp⟩
    case isFalse h =>
      obtain ⟨ds, hds, hvalue⟩ := ih (n / base) (Nat.div_lt_self (by omega) hbase)
      refine ⟨ds ++ [n % base], hds.concat (digit_digitChar (Nat.mod_lt n (by omega))), ?_⟩
      rw [List.reverse_append, List.reverse_singleton, List.singleton_append, Nat.ofDigits_cons,
        hvalue]
      exact Nat.mod_add_div n base

theorem head?_toDigits_ne {n : Nat} (hbase : 1 < base) (hbase' : base ≤ 16) (h : n ≠ 0) :
    (Nat.toDigits base n).head? ≠ some '0' := by
  induction n using Nat.strongRecOn with
  | ind n ih =>
    rw [Nat.toDigits_eq_if hbase]
    split
    case isTrue hlt =>
      have hpos : 0 < n := Nat.pos_of_ne_zero h
      have hn : n < 16 := by omega
      interval_cases n <;> decide
    case isFalse hle =>
      have hne : n / base ≠ 0 := by
        have := Nat.div_pos (Nat.le_of_not_lt hle) (by omega : 0 < base)
        omega
      have hih := ih (n / base) (Nat.div_lt_self (by omega) hbase) hne
      rwa [List.head?_append, Option.or_of_isSome (by simp [Nat.toDigits_ne_nil])]

/-- Decimal digits without leading zeros are a literal. -/
theorem literal_decimal (n : Nat) : Literal (Nat.toDigits 10 n) n := by
  by_cases hn : n = 0
  · rw [hn]
    exact .zero
  · obtain ⟨ds, hds, hvalue⟩ := numeral_toDigits (by decide : 1 < 10) n
    have hliteral := Literal.decimal hds (head?_toDigits_ne (by decide) (by decide) hn)
    rwa [hvalue] at hliteral

/-- So are the digits in another base behind its mark. -/
theorem literal_marked {mark : List Char} (h : (mark, base) ∈ baseMarks) (n : Nat) :
    Literal (mark ++ Nat.toDigits base n) n := by
  obtain ⟨ds, hds, hvalue⟩ := numeral_toDigits (base_bounds h).1 n
  have hliteral := Literal.marked h (.inl rfl) hds
  rwa [hvalue, List.append_nil] at hliteral

end

end GuestThreads.Text
