import GuestThreads.Proofs.Leb128.Canonical
import Mathlib.Data.Nat.Bitwise

/-!
# Signed numbers

Bit 6 of the last group is the sign of a signed number. The loop that writes a word shifts it to the
right, seven bits at a time and with its sign, until what is left is all sign and the group agrees.
It ends for negative words as well, with the shortest bytes that denote the word, and the width of
the word does not matter to them.
-/

namespace GuestThreads.Leb128

variable {b : UInt8} {bs : Bytes} {v : Int}

/-! ## What the bytes of a signed number denote -/

/-- The number that bytes denote if bit 6 of the last group is its sign. -/
def signedValue (bs : Bytes) : Int :=
  value bs - if bs.getLast?.any (·.toNat.testBit 6) then 2 ^ (7 * bs.length) else 0

theorem signedValue_singleton (b : UInt8) :
    signedValue [b] = b.toNat % 128 - if b.toNat % 128 < 64 then 0 else 128 := by
  simp only [signedValue, value_cons, value_nil, List.getLast?_singleton, Option.any_some,
    List.length_singleton, Nat.testBit_eq_decide_div_mod_eq]
  grind

theorem signedValue_cons (h : bs ≠ []) :
    signedValue (b :: bs) = b.toNat % 128 + 128 * signedValue bs := by
  obtain ⟨c, bs, rfl⟩ := List.exists_cons_of_ne_nil h
  rw [signedValue, signedValue, value_cons, List.getLast?_cons_cons, List.length_cons, Nat.mul_add,
    Int.pow_add]
  push_cast
  split <;> ring

/-- What `k + 1` groups can denote. -/
theorem signedValue_bounds {k : Nat} (h : bs.length = k + 1) :
    -(64 * 128 ^ k) ≤ signedValue bs ∧ signedValue bs < 64 * 128 ^ k := by
  induction k generalizing bs with
  | zero =>
    obtain ⟨b, rfl⟩ := List.length_eq_one_iff.1 h
    rw [signedValue_singleton]
    split <;> omega
  | succ k ih =>
    obtain ⟨b, bs, rfl⟩ := List.exists_cons_of_length_eq_add_one h
    have hlength : bs.length = k + 1 := by simpa using h
    have hrest := ih hlength
    rw [signedValue_cons (List.ne_nil_of_length_eq_add_one hlength), Int.pow_succ]
    omega

/-! ## What is written -/

theorem number_signed (v : Int) : Number (signed v) := by
  fun_induction signed v with
  | case1 v h => exact number_singleton (by simp; omega)
  | case2 v h ih => exact ih.cons (by simp; omega)

@[simp] theorem signedValue_signed (v : Int) : signedValue (signed v) = v := by
  fun_induction signed v with
  | case1 v h =>
    have hlow : (v % 128).toNat.toUInt8.toNat = (v % 128).toNat := by simp; omega
    rw [signedValue_singleton, hlow]
    split <;> omega
  | case2 v h ih =>
    have hlow : (v % 128 + 128).toNat.toUInt8.toNat = (v % 128 + 128).toNat := by simp; omega
    rw [signedValue_cons (List.ne_nil_of_length_pos (number_signed _).length_pos), ih, hlow]
    omega

theorem length_signed_le {k : Nat} (hlow : -(64 * 128 ^ k) ≤ v) (hhigh : v < 64 * 128 ^ k) :
    (signed v).length ≤ k + 1 := by
  induction k generalizing v with
  | zero => rw [signed, if_pos (by omega), List.length_singleton]
  | succ k ih =>
    rw [signed]
    split
    · simp
    · rw [Int.pow_succ] at hlow hhigh
      simpa using @ih (v / 128) (by omega) (by omega)

/-- The shortest of all byte strings whose groups denote the number. -/
theorem length_signed_signedValue_le (h : bs ≠ []) :
    (signed (signedValue bs)).length ≤ bs.length := by
  obtain ⟨b, bs, rfl⟩ := List.exists_cons_of_ne_nil h
  have hbounds := @signedValue_bounds (b :: bs) bs.length rfl
  exact length_signed_le hbounds.1 hbounds.2

theorem signed_initial {v v' : Int} (h : signed v <+: signed v') : v = v' := by
  have hsame := (number_signed v).eq_of_initial (number_signed v') h
  rw [← signedValue_signed v, hsame, signedValue_signed]

/-! ## The loop -/

section

variable {width : Nat} {word : BitVec width}

/-- What is left of the word is all sign, and so is bit 6 of the group. -/
def AllSign (word : BitVec width) : Prop :=
  word.sshiftRight 7 = 0 ∧ lowGroup word &&& 0x40 = 0 ∨
    word.sshiftRight 7 = -1 ∧ lowGroup word &&& 0x40 ≠ 0

/-- The loop that starts with a word ends, and these are the bytes that it has written by then. -/
inductive Emits : BitVec width → Bytes → Prop
  | last {word : BitVec width} (h : AllSign word) : Emits word [lowGroup word]
  | more {word : BitVec width} {bs : Bytes} (h : ¬AllSign word)
      (rest : Emits (word.sshiftRight 7) bs) : Emits word ((lowGroup word ||| 0x80) :: bs)

theorem toInt_sshiftRight_seven (word : BitVec width) :
    (word.sshiftRight 7).toInt = word.toInt / 128 := by
  rw [BitVec.toInt_sshiftRight, Int.shiftRight_eq_div_pow]
  rfl

theorem toNat_lowGroup (hwidth : 8 ≤ width) (word : BitVec width) :
    ((lowGroup word).toNat : Int) = word.toInt % 128 := by
  obtain ⟨n, rfl⟩ := Nat.exists_eq_add_of_le hwidth
  have hpow : 2 ^ (8 + n) = 256 * 2 ^ n := Nat.pow_add 2 8 n
  have hpos : 0 < 2 ^ n := Nat.two_pow_pos n
  rw [lowGroup_toNat hwidth, BitVec.toInt_eq_toNat_cond, hpow]
  split <;> omega

theorem and_sign_eq_zero_iff (b : UInt8) : b &&& 0x40 = 0 ↔ b.toNat / 64 % 2 = 0 := by
  have hbit : b.toNat &&& 64 = (b.toNat.testBit 6).toNat * 64 := Nat.and_two_pow b.toNat 6
  rw [← UInt8.toNat_inj, UInt8.toNat_and]
  change b.toNat &&& 64 = 0 ↔ _
  rw [hbit, Nat.testBit_eq_decide_div_mod_eq]
  simp

theorem allSign_iff (hwidth : 8 ≤ width) (word : BitVec width) :
    AllSign word ↔ -64 ≤ word.toInt ∧ word.toInt < 64 := by
  have hgroup := toNat_lowGroup hwidth word
  have hzero : (0 : BitVec width).toInt = 0 := BitVec.toInt_zero
  have hones : (-1 : BitVec width).toInt = -1 := by
    change (-BitVec.ofNat width 1).toInt = -1
    rw [BitVec.neg_one_eq_allOnes, BitVec.toInt_allOnes, if_pos (by omega)]
  rw [AllSign, ne_eq, and_sign_eq_zero_iff, ← BitVec.toInt_inj, ← BitVec.toInt_inj,
    toInt_sshiftRight_seven, hzero, hones]
  omega

theorem lowGroup_eq (hwidth : 8 ≤ width) (word : BitVec width) :
    lowGroup word = (word.toInt % 128).toNat.toUInt8 := by
  have hgroup := toNat_lowGroup hwidth word
  apply UInt8.toNat_inj.1
  simp
  omega

theorem lowGroup_or_eq (hwidth : 8 ≤ width) (word : BitVec width) :
    lowGroup word ||| 0x80 = (word.toInt % 128 + 128).toNat.toUInt8 := by
  have hgroup := toNat_lowGroup hwidth word
  apply UInt8.toNat_inj.1
  rw [continued_toNat (by omega)]
  simp
  omega

/-- Shifting words is dividing numbers, so the loop writes what `signed` says. -/
theorem emits_signed (hwidth : 8 ≤ width) (word : BitVec width) :
    Emits word (signed word.toInt) := by
  generalize hv : word.toInt = v
  fun_induction signed v generalizing word with
  | case1 v h =>
    subst hv
    rw [← lowGroup_eq hwidth]
    exact .last ((allSign_iff hwidth word).2 h)
  | case2 v h ih =>
    subst hv
    rw [← lowGroup_or_eq hwidth]
    exact .more (fun hsign => h ((allSign_iff hwidth word).1 hsign))
      (ih _ (toInt_sshiftRight_seven word))

theorem Emits.unique {bs bs' : Bytes} (h : Emits word bs) (h' : Emits word bs') : bs = bs' := by
  induction h generalizing bs' with
  | last hsign =>
    cases h' with
    | last => rfl
    | more hmore => exact absurd hsign hmore
  | more hmore _ ih =>
    cases h' with
    | last hsign => exact absurd hsign hmore
    | more _ rest => rw [ih rest]

/-- The loop over a word writes these bytes. They denote the word, nothing shorter does, and there
are at most `limit` of them. -/
structure WrittenAs (word : BitVec width) (limit : Nat) (bs : Bytes) : Prop where
  emitted : ∀ cs, Emits word cs ↔ cs = bs
  number : Number bs
  denotes : signedValue bs = word.toInt
  shortest : ∀ cs, cs ≠ [] → signedValue cs = word.toInt → bs.length ≤ cs.length
  short : bs.length ≤ limit

theorem writtenAs_signed (hwidth : 8 ≤ width) {k : Nat} (hlow : -(64 * 128 ^ k) ≤ word.toInt)
    (hhigh : word.toInt < 64 * 128 ^ k) : WrittenAs word (k + 1) (signed word.toInt) where
  emitted cs := by
    have hemits := emits_signed hwidth word
    exact ⟨fun h => h.unique hemits, fun h => h ▸ hemits⟩
  number := number_signed _
  denotes := signedValue_signed _
  shortest cs hcs hvalue := hvalue ▸ length_signed_signedValue_le hcs
  short := length_signed_le hlow hhigh

end

/-- For every word of 32 or 64 bits the loop ends, and the bytes it has written denote the word.
They are the shortest that do, at most five or ten, and none are the beginning of others. The same
number is written in the same way whatever the width. -/
theorem signed_encoding_is_exact_and_shortest :
    (∀ v : Int32, WrittenAs v.toBitVec 5 (ofInt32 v)) ∧
      (∀ v : Int64, WrittenAs v.toBitVec 10 (ofInt64 v)) ∧
      (∀ v v' : Int32, ofInt32 v <+: ofInt32 v' → v = v') ∧
      (∀ v v' : Int64, ofInt64 v <+: ofInt64 v' → v = v') ∧
      ∀ v : Int32, ofInt64 v.toInt64 = ofInt32 v := by
  refine ⟨fun v => ?_, fun v => ?_, fun v v' h => ?_, fun v v' h => ?_, fun v => ?_⟩
  · have hlow := v.le_toInt
    have hhigh := v.toInt_lt
    rw [ofInt32, ← v.toInt_toBitVec] at *
    exact writtenAs_signed (by decide) (k := 4) (by omega) (by omega)
  · have hlow := v.le_toInt
    have hhigh := v.toInt_lt
    rw [ofInt64, ← v.toInt_toBitVec] at *
    exact writtenAs_signed (by decide) (k := 9) (by omega) (by omega)
  · exact Int32.toInt_inj.1 (signed_initial h)
  · exact Int64.toInt_inj.1 (signed_initial h)
  · rw [ofInt64, ofInt32, Int32.toInt_toInt64]

/-- The greatest number below those of one group, which three groups denote as well, and the least
number of all. -/
theorem signed_encoding_below_minus_64 :
    (Emits (-65 : Int32).toBitVec (ofInt32 (-65)) ∧
      signedValue [0xbf, 0xff, 0x7f] = (-65 : Int32).toBitVec.toInt ∧
      (ofInt32 (-65)).length ≤ 3) ∧
    (Emits Int64.minValue.toBitVec (ofInt64 Int64.minValue) ∧
      (ofInt64 Int64.minValue).length ≤ 10) ∧
    (ofInt32 (-65) <+: ofInt32 (-65) ∧ (-65 : Int32) = -65) ∧
    ofInt64 (-65) <+: ofInt64 (-65) ∧ (-65 : Int64) = -65 := by
  have hshort := signed_encoding_is_exact_and_shortest.1 (-65)
  have hleast := signed_encoding_is_exact_and_shortest.2.1 Int64.minValue
  have hvalue : signedValue [0xbf, 0xff, 0x7f] = (-65 : Int32).toBitVec.toInt := by decide
  refine ⟨⟨(hshort.emitted _).2 rfl, hvalue, hshort.shortest _ (by simp) hvalue⟩,
    ⟨(hleast.emitted _).2 rfl, hleast.short⟩, ?_, ?_⟩
  · exact ⟨List.prefix_rfl,
      signed_encoding_is_exact_and_shortest.2.2.1 (-65) (-65) List.prefix_rfl⟩
  · exact ⟨List.prefix_rfl,
      signed_encoding_is_exact_and_shortest.2.2.2.1 (-65) (-65) List.prefix_rfl⟩

end GuestThreads.Leb128
