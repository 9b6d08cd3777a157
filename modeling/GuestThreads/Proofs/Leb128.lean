import GuestThreads.Proofs.Reading
import Mathlib.Algebra.BigOperators.Ring.Finset
import Mathlib.Data.Nat.Bitwise
import Mathlib.Tactic.Ring

/-!
# Numbers that do not fit

The bytes of a LEB128 number denote a natural number of any size. A read accepts a bounded number of
groups and keeps the low bits of what they denote. A number in fewer groups always fits, and one in
more groups is refused. In between, where a number has just as many groups as are accepted, the bits
of the last group that lie beyond the word are lost: `words_are_read_modulo_their_width`.
-/

namespace GuestThreads

namespace Leb128

/-- The bytes of one number: the high bit is set in all but the last. -/
def Number (bs : Bytes) : Prop :=
  ∃ front last, bs = front ++ [last] ∧ (∀ b ∈ front, 128 ≤ b.toNat) ∧ last.toNat < 128

/-- The number that bytes denote: byte `j` contributes its low seven bits, `7 * j` places up. -/
def value (bs : Bytes) : Nat :=
  ∑ j ∈ Finset.range bs.length, (bs.getD j 0).toNat % 128 * 2 ^ (7 * j)

@[simp] theorem value_nil : value [] = 0 := rfl

theorem value_cons (b : UInt8) (bs : Bytes) :
    value (b :: bs) = b.toNat % 128 + 128 * value bs := by
  unfold value
  rw [List.length_cons, Finset.sum_range_succ', Finset.mul_sum, Nat.add_comm]
  congr 1
  · simp
  · refine Finset.sum_congr rfl fun j _ => ?_
    have hpow : 2 ^ (7 * (j + 1)) = 128 * 2 ^ (7 * j) := by
      rw [Nat.mul_add, Nat.pow_add, Nat.mul_comm]
    rw [List.getD_cons_succ, hpow]
    ring

theorem value_lt (bs : Bytes) : value bs < 128 ^ bs.length := by
  induction bs with
  | nil => simp
  | cons b bs ih =>
    rw [value_cons, List.length_cons, Nat.pow_succ]
    omega

theorem value_append (front : Bytes) (last : UInt8) :
    value (front ++ [last]) = value front + 128 ^ front.length * (last.toNat % 128) := by
  induction front with
  | nil => simp [value_cons]
  | cons b front ih =>
    rw [List.cons_append, value_cons, value_cons, ih, List.length_cons, Nat.pow_succ]
    ring

/-- Fewer groups than there is room for always fit. -/
theorem value_lt_two_pow {width : Nat} {bs : Bytes} (h : 7 * bs.length ≤ width) :
    value bs < 2 ^ width := by
  calc value bs < 128 ^ bs.length := value_lt bs
    _ = 2 ^ (7 * bs.length) := by rw [Nat.pow_mul]
    _ ≤ 2 ^ width := Nat.pow_le_pow_right (by decide) h

/-- If all groups but the last fit, the last one decides. -/
theorem value_append_lt_iff {width : Nat} {front : Bytes} {last : UInt8} (hlast : last.toNat < 128)
    (hroom : 7 * front.length ≤ width) :
    value (front ++ [last]) < 2 ^ width ↔ last.toNat < 2 ^ (width - 7 * front.length) := by
  have hlow := value_lt front
  have hsplit : 2 ^ width = 128 ^ front.length * 2 ^ (width - 7 * front.length) := by
    have hpow : 128 ^ front.length = 2 ^ (7 * front.length) := by rw [Nat.pow_mul]
    rw [hpow, ← Nat.pow_add, Nat.add_sub_cancel' hroom]
  rw [hsplit, value_append, Nat.mod_eq_of_lt hlast]
  generalize 2 ^ (width - 7 * front.length) = spare
  constructor
  · intro h
    have hlt : 128 ^ front.length * last.toNat < 128 ^ front.length * spare := by omega
    exact Nat.lt_of_mul_lt_mul_left hlt
  · intro h
    calc value front + 128 ^ front.length * last.toNat
      _ < 128 ^ front.length * (last.toNat + 1) := by
        rw [Nat.mul_add]
        omega
      _ ≤ 128 ^ front.length * spare := Nat.mul_le_mul_left _ h

theorem number_cons {b : UInt8} {bs : Bytes} (h : Number (b :: bs)) :
    b.toNat < 128 ∧ bs = [] ∨ 128 ≤ b.toNat ∧ Number bs := by
  obtain ⟨front, last, hsplit, hfront, hlast⟩ := h
  cases front with
  | nil =>
    obtain ⟨rfl, rfl⟩ := List.cons.inj hsplit
    exact .inl ⟨hlast, rfl⟩
  | cons b' front =>
    obtain ⟨rfl, rfl⟩ := List.cons.inj hsplit
    exact .inr ⟨hfront b (by simp), front, last, rfl, fun c hc => hfront c (by simp [hc]), hlast⟩

/-- A number has a spelling in as many groups as it has bytes. -/
theorem Number.spelled {groups : Nat} {bs : Bytes} (h : Number bs) (hlength : bs.length ≤ groups) :
    Spelled groups (value bs) bs := by
  induction bs generalizing groups with
  | nil =>
    obtain ⟨front, last, hsplit, -⟩ := h
    simp at hsplit
  | cons b bs ih =>
    obtain ⟨groups, rfl⟩ : ∃ n, groups = n + 1 := ⟨groups - 1, by simp at hlength; omega⟩
    obtain ⟨hb, rfl⟩ | ⟨hb, hbs⟩ := number_cons h
    · have hvalue : value [b] = b.toNat := by
        rw [value_cons, value_nil]
        omega
      rw [hvalue]
      exact .last b hb
    · have hvalue : value (b :: bs) = b.toNat - 128 + 128 * value bs := by
        have := b.toNat_lt
        rw [value_cons]
        omega
      rw [hvalue]
      exact .more b hb (ih hbs (by simpa using hlength))

/-- Bytes start with a number, unless they go on and on. -/
theorem number_or_endless (bs : Bytes) :
    (∃ number rest, bs = number ++ rest ∧ Number number) ∨ ∀ b ∈ bs, 128 ≤ b.toNat := by
  induction bs with
  | nil => exact .inr (by simp)
  | cons b bs ih =>
    by_cases hb : b.toNat < 128
    · exact .inl ⟨[b], bs, rfl, [], b, rfl, by simp, hb⟩
    · rcases ih with ⟨number, rest, rfl, front, last, rfl, hfront, hlast⟩ | hall
      · exact .inl ⟨b :: (front ++ [last]), rest, rfl, b :: front, last, rfl, by grind, hlast⟩
      · exact .inr (by grind)

/-- A number of more than `groups` bytes starts with that many bytes that are not the last. -/
theorem Number.endless_prefix {groups : Nat} {bs : Bytes} (h : Number bs)
    (hlength : groups < bs.length) : ∀ b ∈ bs.take groups, 128 ≤ b.toNat := by
  obtain ⟨front, last, rfl, hfront, -⟩ := h
  intro b hb
  rw [List.take_append_of_le_length (by simp at hlength; omega)] at hb
  exact hfront b (List.mem_of_mem_take hb)

/-- A number that ends within `groups` bytes has a last byte among them. -/
theorem Number.not_endless {groups : Nat} {bs : Bytes} (h : Number bs)
    (hlength : bs.length ≤ groups) (rest : Bytes) :
    ¬∀ b ∈ (bs ++ rest).take groups, 128 ≤ b.toNat := by
  intro hendless
  obtain ⟨front, last, rfl, -, hlast⟩ := h
  have hmem : last ∈ (front ++ [last] ++ rest).take groups := by
    rw [List.take_append, List.take_of_length_le hlength]
    simp
  exact absurd (hendless last hmem) (by omega)

end Leb128

namespace Cursor

open Leb128 (Number value)

/-! ## Reads that fail -/

theorem leb128_overflow {groups : Nat} {bs : Bytes} (h : ∀ b ∈ bs, 128 ≤ b.toNat)
    (hlength : bs.length = groups) (rest : Bytes) (pos : Nat) :
    leb128 groups ⟨bs ++ rest, pos⟩ =
      (.error ⟨pos + groups, .overflow⟩, ⟨rest, pos + groups⟩) := by
  induction bs generalizing groups pos with
  | nil =>
    subst hlength
    rfl
  | cons b bs ih =>
    subst hlength
    have hb : ¬b.toNat < 128 := by grind
    have hrest := ih (fun c hc => h c (by simp [hc])) rfl (pos + 1)
    have hpos : pos + 1 + bs.length = pos + (b :: bs).length := by
      simp
      omega
    rw [List.length_cons, leb128, bind_run]
    change (if b.toNat < 128 then pure b.toNat else _ : Read Nat) ⟨bs ++ rest, pos + 1⟩ = _
    rw [if_neg hb, bind_run, hrest, hpos]
    rfl

theorem leb128_endOfInput {groups : Nat} {bs : Bytes} (h : ∀ b ∈ bs, 128 ≤ b.toNat)
    (hlength : bs.length < groups) (pos : Nat) :
    leb128 groups ⟨bs, pos⟩ =
      (.error ⟨pos + bs.length, .endOfInput⟩, ⟨[], pos + bs.length⟩) := by
  induction bs generalizing groups pos with
  | nil =>
    cases groups with
    | zero => simp at hlength
    | succ groups => rfl
  | cons b bs ih =>
    cases groups with
    | zero => simp at hlength
    | succ groups =>
      have hb : ¬b.toNat < 128 := by grind
      have hrest := ih (fun c hc => h c (by simp [hc])) (by simpa using hlength) (pos + 1)
      have hpos : pos + 1 + bs.length = pos + (b :: bs).length := by
        simp
        omega
      rw [leb128, bind_run]
      change (if b.toNat < 128 then pure b.toNat else _ : Read Nat) ⟨bs, pos + 1⟩ = _
      rw [if_neg hb, bind_run, hrest, hpos]

/-! ## All reads -/

/-- What a read of a number comes to. -/
inductive Leb128Outcome (groups : Nat) (c : Cursor) : Except Failure Nat × Cursor → Prop
  | number (bs rest : Bytes) (h : c.rest = bs ++ rest) (hnumber : Number bs)
      (hlength : bs.length ≤ groups) :
      Leb128Outcome groups c (.ok (value bs), ⟨rest, c.position + bs.length⟩)
  | overflow (bs rest : Bytes) (h : c.rest = bs ++ rest) (hendless : ∀ b ∈ bs, 128 ≤ b.toNat)
      (hlength : bs.length = groups) :
      Leb128Outcome groups c
        (.error ⟨c.position + groups, .overflow⟩, ⟨rest, c.position + groups⟩)
  | endOfInput (hendless : ∀ b ∈ c.rest, 128 ≤ b.toNat) (hlength : c.rest.length < groups) :
      Leb128Outcome groups c
        (.error ⟨c.position + c.rest.length, .endOfInput⟩, ⟨[], c.position + c.rest.length⟩)

theorem leb128_outcome (groups : Nat) (c : Cursor) : Leb128Outcome groups c (leb128 groups c) := by
  obtain ⟨bytes, pos⟩ := c
  have hoverflow (hendless : ∀ b ∈ bytes.take groups, 128 ≤ b.toNat)
      (hlength : groups ≤ bytes.length) :
      Leb128Outcome groups ⟨bytes, pos⟩ (leb128 groups ⟨bytes, pos⟩) := by
    have htake : (bytes.take groups).length = groups := List.length_take_of_le hlength
    have hrun := leb128_overflow hendless htake (bytes.drop groups) pos
    rw [List.take_append_drop] at hrun
    rw [hrun]
    exact .overflow _ _ (List.take_append_drop groups bytes).symm hendless htake
  rcases Leb128.number_or_endless bytes with ⟨bs, rest, rfl, hnumber⟩ | hendless
  · by_cases hlength : bs.length ≤ groups
    · rw [leb128_answers (hnumber.spelled hlength) rest pos]
      exact .number bs rest rfl hnumber hlength
    · have hmore : groups < bs.length := by omega
      refine hoverflow ?_ (by simp; omega)
      rw [List.take_append_of_le_length (by omega)]
      exact hnumber.endless_prefix hmore
  · by_cases hlength : bytes.length < groups
    · rw [leb128_endOfInput hendless hlength]
      exact .endOfInput hendless hlength
    · exact hoverflow (fun b hb => hendless b (List.mem_of_mem_take hb)) (by omega)

/-! ## Words -/

variable {α : Type}

/-- How a word of `width` bits is read that takes up to `groups` groups. -/
structure ReadsWord (groups width : Nat) (toNat : α → Nat) (read : Read α) (c : Cursor) :
    Prop where
  /-- A word stands for the bytes consumed, which are those of a number. It is the number itself,
  unless the last of all groups has bits beyond the word. -/
  word : ∀ {v c'}, read c = (.ok v, c') → ∃ front last,
    c.rest = front ++ [last] ++ c'.rest ∧ c'.position = c.position + (front ++ [last]).length ∧
    (∀ b ∈ front, 128 ≤ b.toNat) ∧ last.toNat < 128 ∧ (front ++ [last]).length ≤ groups ∧
    toNat v = value (front ++ [last]) % 2 ^ width ∧
    (toNat v = value (front ++ [last]) ↔
      (front ++ [last]).length < groups ∨ last.toNat < 2 ^ (width - 7 * (groups - 1)))
  /-- A word is read if there is a number that is not too long. -/
  succeeds : (∃ v, (read c).1 = .ok v) ↔
    ∃ bs rest, c.rest = bs ++ rest ∧ Number bs ∧ bs.length ≤ groups
  /-- A number that does not fit is refused, unless it has just as many groups as are accepted. -/
  large : ∀ {bs rest : Bytes}, c.rest = bs ++ rest → Number bs → 2 ^ width ≤ value bs →
    bs.length ≠ groups → (read c).1 = .error ⟨c.position + groups, .overflow⟩
  /-- An overflow is due to the number of groups alone. -/
  overflow : (∃ pos, (read c).1 = .error ⟨pos, .overflow⟩) ↔
    groups ≤ c.rest.length ∧ ∀ b ∈ c.rest.take groups, 128 ≤ b.toNat

/-- The word that is left of a number of up to `groups` groups. -/
def reduced (ofNat : Nat → α) (groups : Nat) : Read α := do
  return ofNat (← leb128 groups)

section

variable {toNat : α → Nat} {ofNat : Nat → α} {groups width : Nat} {c c' : Cursor}

theorem reduced_ok {n : Nat} (h : leb128 groups c = (.ok n, c')) :
    reduced ofNat groups c = (.ok (ofNat n), c') := by
  rw [reduced, bind_run, h]
  rfl

theorem reduced_error {e : Failure} (h : leb128 groups c = (.error e, c')) :
    reduced ofNat groups c = (.error e, c') := by
  rw [reduced, bind_run, h]

theorem reduced_word (hof : ∀ n, toNat (ofNat n) = n % 2 ^ width)
    (hroom : 7 * (groups - 1) ≤ width) {v : α} (h : reduced ofNat groups c = (.ok v, c')) :
    ∃ front last, c.rest = front ++ [last] ++ c'.rest ∧
      c'.position = c.position + (front ++ [last]).length ∧
      (∀ b ∈ front, 128 ≤ b.toNat) ∧ last.toNat < 128 ∧ (front ++ [last]).length ≤ groups ∧
      toNat v = value (front ++ [last]) % 2 ^ width ∧
      (toNat v = value (front ++ [last]) ↔
        (front ++ [last]).length < groups ∨ last.toNat < 2 ^ (width - 7 * (groups - 1))) := by
  have hout := leb128_outcome groups c
  generalize hrun : leb128 groups c = r at hout
  cases hout with
  | number bs rest hbytes hnumber hlength =>
    cases (reduced_ok hrun).symm.trans h
    obtain ⟨front, last, rfl, hfront, hlast⟩ := hnumber
    refine ⟨front, last, hbytes, rfl, hfront, hlast, hlength, hof _, ?_⟩
    have hexact : value (front ++ [last]) % 2 ^ width = value (front ++ [last]) ↔
        value (front ++ [last]) < 2 ^ width := Nat.mod_eq_iff_lt (by simp)
    rw [hof, hexact]
    rw [List.length_append, List.length_singleton] at hlength ⊢
    by_cases hfull : front.length = groups - 1
    · rw [← hfull] at hroom ⊢
      rw [Leb128.value_append_lt_iff hlast hroom]
      omega
    · refine iff_of_true (Leb128.value_lt_two_pow ?_) (.inl (by omega))
      simp
      omega
  | overflow => cases (reduced_error hrun).symm.trans h
  | endOfInput => cases (reduced_error hrun).symm.trans h

theorem reduced_large {bs : Bytes} (hnumber : Number bs) (hmore : groups < bs.length)
    (rest : Bytes) (pos : Nat) :
    (reduced ofNat groups ⟨bs ++ rest, pos⟩).1 = .error ⟨pos + groups, .overflow⟩ := by
  have hrun := leb128_overflow (hnumber.endless_prefix hmore) (List.length_take_of_le hmore.le)
    (bs.drop groups ++ rest) pos
  rw [← List.append_assoc, List.take_append_drop] at hrun
  rw [reduced_error hrun]

theorem reduced_overflow_iff :
    (∃ pos, (reduced ofNat groups c).1 = .error ⟨pos, .overflow⟩) ↔
      groups ≤ c.rest.length ∧ ∀ b ∈ c.rest.take groups, 128 ≤ b.toNat := by
  have hout := leb128_outcome groups c
  generalize hrun : leb128 groups c = r at hout
  cases hout with
  | number bs rest hbytes hnumber hlength =>
    rw [reduced_ok hrun]
    refine iff_of_false (by simp) ?_
    rintro ⟨-, hendless⟩
    rw [hbytes] at hendless
    exact hnumber.not_endless hlength rest hendless
  | overflow bs rest hbytes hendless hlength =>
    rw [reduced_error hrun]
    refine iff_of_true ⟨_, rfl⟩ ⟨by simp [hbytes, hlength], ?_⟩
    rw [hbytes, ← hlength, List.take_left]
    exact hendless
  | endOfInput hendless hlength =>
    rw [reduced_error hrun]
    refine iff_of_false (by simp) ?_
    rintro ⟨hle, -⟩
    omega

theorem reduced_succeeds_iff :
    (∃ v, (reduced ofNat groups c).1 = .ok v) ↔
      ∃ bs rest, c.rest = bs ++ rest ∧ Number bs ∧ bs.length ≤ groups := by
  have hout := leb128_outcome groups c
  generalize hrun : leb128 groups c = r at hout
  cases hout with
  | number bs rest hbytes hnumber hlength =>
    rw [reduced_ok hrun]
    exact iff_of_true ⟨_, rfl⟩ ⟨bs, rest, hbytes, hnumber, hlength⟩
  | overflow bs rest hbytes hendless hlength =>
    rw [reduced_error hrun]
    refine iff_of_false (by simp) ?_
    rintro ⟨number, rest', hbytes', hnumber, hshort⟩
    refine hnumber.not_endless hshort rest' ?_
    rw [← hbytes', hbytes, ← hlength, List.take_left]
    exact hendless
  | endOfInput hendless hlength =>
    rw [reduced_error hrun]
    refine iff_of_false (by simp) ?_
    rintro ⟨number, rest', hbytes', hnumber, hshort⟩
    refine hnumber.not_endless hshort rest' fun b hb => hendless b ?_
    rw [hbytes']
    exact List.mem_of_mem_take hb

/-- All groups but the last have room in the word. -/
theorem readsWord_reduced (hof : ∀ n, toNat (ofNat n) = n % 2 ^ width)
    (hroom : 7 * (groups - 1) ≤ width) (c : Cursor) :
    ReadsWord groups width toNat (reduced ofNat groups) c where
  word := reduced_word hof hroom
  succeeds := reduced_succeeds_iff
  large := by
    obtain ⟨bytes, pos⟩ := c
    rintro bs rest rfl hnumber hlarge hlength
    refine reduced_large hnumber ?_ rest pos
    by_contra hle
    have hfits : value bs < 2 ^ width := Leb128.value_lt_two_pow (by omega)
    omega
  overflow := reduced_overflow_iff

end

/-! ## The loop -/

/-- The loop that reads a word: each group is or-ed into it, `shift` places up, until one is the
last or there are too many. -/
def shiftIn {width : Nat} : (groups shift : Nat) → BitVec width → Read (BitVec width)
  | 0, _, _ => stop .overflow
  | groups + 1, shift, word => do
    let b ← byte
    let word := word ||| BitVec.ofNat width (b &&& 0x7f).toNat <<< shift
    if b &&& 0x80 = 0 then pure word else shiftIn groups (shift + 7) word

theorem and_group (b : UInt8) : (b &&& 0x7f).toNat = b.toNat % 128 := by
  rw [UInt8.toNat_and]
  exact Nat.and_two_pow_sub_one_eq_mod b.toNat 7

theorem and_continuation_eq_zero_iff (b : UInt8) : b &&& 0x80 = 0 ↔ b.toNat < 128 := by
  have hbit : b.toNat &&& 128 = (b.toNat.testBit 7).toNat * 128 := Nat.and_two_pow b.toNat 7
  have hlt := b.toNat_lt
  rw [← UInt8.toNat_inj, UInt8.toNat_and]
  change b.toNat &&& 128 = 0 ↔ _
  rw [hbit, Nat.testBit_eq_decide_div_mod_eq]
  by_cases h : b.toNat < 128
  · simp [Nat.div_eq_of_lt h, h]
  · simp [show b.toNat / 128 = 1 by omega, h]

/-- Or-ing a group in above all bits that are there is adding it. -/
theorem or_group {width a shift : Nat} (ha : a < 2 ^ shift) (group : Nat) :
    BitVec.ofNat width a ||| BitVec.ofNat width group <<< shift =
      BitVec.ofNat width (a + 2 ^ shift * group) := by
  have hsum : a + 2 ^ shift * group = a ||| group <<< shift := by
    rw [Nat.or_comm, ← Nat.shiftLeft_add_eq_or_of_lt ha, Nat.shiftLeft_eq, Nat.mul_comm,
      Nat.add_comm]
  apply BitVec.eq_of_toNat_eq
  simp only [hsum, BitVec.toNat_or, BitVec.toNat_shiftLeft, BitVec.toNat_ofNat,
    Nat.or_mod_two_pow, Nat.shiftLeft_eq, Nat.mod_mul_mod]

/-- What the loop has read by then are the low bits of the number. -/
theorem shiftIn_run {width : Nat} (groups shift : Nat) {a : Nat} (ha : a < 2 ^ shift) (c : Cursor) :
    shiftIn groups shift (BitVec.ofNat width a) c =
      reduced (fun n => BitVec.ofNat width (a + 2 ^ shift * n)) groups c := by
  induction groups generalizing shift a c with
  | zero => rfl
  | succ groups ih =>
    obtain ⟨bytes, pos⟩ := c
    cases bytes with
    | nil => rfl
    | cons b bytes =>
      have hshiftIn : shiftIn (groups + 1) shift (BitVec.ofNat width a) ⟨b :: bytes, pos⟩ =
          (if b.toNat < 128 then pure (BitVec.ofNat width (a + 2 ^ shift * (b.toNat % 128)))
          else shiftIn groups (shift + 7) (BitVec.ofNat width (a + 2 ^ shift * (b.toNat % 128))) :
            Read (BitVec width)) ⟨bytes, pos + 1⟩ := by
        rw [← or_group ha, ← and_group]
        simp only [← and_continuation_eq_zero_iff]
        rfl
      have hleb128 : leb128 (groups + 1) ⟨b :: bytes, pos⟩ =
          (if b.toNat < 128 then pure b.toNat
          else do return b.toNat - 128 + 128 * (← leb128 groups) : Read Nat) ⟨bytes, pos + 1⟩ := rfl
      have hlt := b.toNat_lt
      rw [hshiftIn, reduced, bind_run, hleb128]
      by_cases hlast : b.toNat < 128
      · rw [if_pos hlast, if_pos hlast, Nat.mod_eq_of_lt hlast]
        rfl
      · have hgroup : b.toNat % 128 = b.toNat - 128 := by omega
        have hnext : a + 2 ^ shift * (b.toNat - 128) < 2 ^ (shift + 7) := by
          calc a + 2 ^ shift * (b.toNat - 128)
            _ < 2 ^ shift * (b.toNat - 128 + 1) := by
              rw [Nat.mul_succ]
              omega
            _ ≤ 2 ^ shift * 2 ^ 7 := Nat.mul_le_mul_left _ (by omega)
            _ = 2 ^ (shift + 7) := (Nat.pow_add 2 shift 7).symm
        rw [if_neg hlast, if_neg hlast, hgroup, ih (shift + 7) hnext, reduced, bind_run, bind_run]
        rcases leb128 groups ⟨bytes, pos + 1⟩ with ⟨e | n, c'⟩
        · rfl
        · have hsum : a + 2 ^ shift * (b.toNat - 128) + 2 ^ (shift + 7) * n =
              a + 2 ^ shift * (b.toNat - 128 + 128 * n) := by ring
          exact congrArg (fun m => (Except.ok (BitVec.ofNat width m), c')) hsum

/-- The loop starts with a word that is empty. -/
theorem shiftIn_start {width : Nat} (ofWord : BitVec width → α) (groups : Nat) (c : Cursor) :
    (do return ofWord (← shiftIn groups 0 0) : Read α) c =
      reduced (fun n => ofWord (BitVec.ofNat width n)) groups c := by
  have hrun : shiftIn groups 0 (0 : BitVec width) c =
      reduced (fun n => BitVec.ofNat width (0 + 2 ^ 0 * n)) groups c :=
    shiftIn_run groups 0 (by decide) c
  rw [bind_run, hrun, reduced, reduced, bind_run, bind_run]
  rcases leb128 groups c with ⟨e | n, c'⟩
  · rfl
  · have hword : 0 + 2 ^ 0 * n = n := by omega
    exact congrArg (fun m => (Except.ok (ofWord (BitVec.ofNat width m)), c')) hword

/-- Words are read by a loop over their groups, and modulo their width. The number itself is read
whenever it has fewer groups than are accepted, and refused whenever it has more. Only the last of
all groups is not looked at: it may have bits beyond the word, which are lost. -/
theorem words_are_read_modulo_their_width (c : Cursor) :
    u32 c = (do return UInt32.ofBitVec (← shiftIn 5 0 0) : Read UInt32) c ∧
      u64 c = (do return UInt64.ofBitVec (← shiftIn 10 0 0) : Read UInt64) c ∧
      ReadsWord 5 32 UInt32.toNat u32 c ∧ ReadsWord 10 64 UInt64.toNat u64 c := by
  have h32 : ReadsWord 5 32 UInt32.toNat (reduced Nat.toUInt32 5) c :=
    readsWord_reduced (fun _ => rfl) (by decide) c
  have h64 : ReadsWord 10 64 UInt64.toNat (reduced Nat.toUInt64 10) c :=
    readsWord_reduced (fun _ => rfl) (by decide) c
  exact ⟨(shiftIn_start UInt32.ofBitVec 5 c).symm, (shiftIn_start UInt64.ofBitVec 10 c).symm,
    h32, h64⟩

/-- Numbers of 35 and 70 bits, all of them set, are read as if they fitted. -/
theorem high_bits_are_lost :
    let wide : Bytes := [255, 255, 255, 255, 127]
    let wider : Bytes := [255, 255, 255, 255, 255, 255, 255, 255, 255, 127]
    (u32 ⟨wide, 0⟩ = (.ok 4294967295, ⟨[], 5⟩) ∧ value wide = 34359738367) ∧
      u64 ⟨wider, 0⟩ = (.ok 18446744073709551615, ⟨[], 10⟩) ∧
        value wider = 1180591620717411303423 := by
  refine ⟨⟨rfl, ?_⟩, rfl, ?_⟩
  · decide
  · decide

end Cursor

end GuestThreads
