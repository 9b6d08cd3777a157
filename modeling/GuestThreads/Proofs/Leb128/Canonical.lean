import GuestThreads.Proofs.Leb128
import GuestThreads.Wasm.Types

/-!
# The shortest spelling

Many byte strings spell one number. The one that is written is the shortest: its last group is not
empty, unless it is the only one. It is read back whatever follows it, and none is the beginning of
another. Names are written as bytes behind their number, and are read back if they are UTF-8.
-/

namespace GuestThreads

namespace Leb128

variable {as bs : Bytes} {b : UInt8}

theorem number_singleton (h : b.toNat < 128) : Number [b] := ⟨[], b, rfl, by simp, h⟩

theorem Number.cons (hb : 128 ≤ b.toNat) (h : Number bs) : Number (b :: bs) := by
  obtain ⟨front, last, rfl, hfront, hlast⟩ := h
  exact ⟨b :: front, last, rfl, by grind, hlast⟩

theorem Number.length_pos (h : Number bs) : 0 < bs.length := by
  obtain ⟨front, last, rfl, -⟩ := h
  simp

/-- Numbers of as many groups are told apart by what they denote. -/
theorem Number.eq_of_value (ha : Number as) (hb : Number bs) (hlength : as.length = bs.length)
    (hvalue : value as = value bs) : as = bs := by
  induction as generalizing bs with
  | nil => exact absurd ha.length_pos (by simp)
  | cons a as ih =>
    cases bs with
    | nil => exact absurd hb.length_pos (by simp)
    | cons b bs =>
      rw [value_cons, value_cons] at hvalue
      have hbytes : a.toNat < 256 ∧ b.toNat < 256 := ⟨a.toNat_lt, b.toNat_lt⟩
      rcases number_cons ha with ⟨hlow, rfl⟩ | ⟨hhigh, ha'⟩ <;>
        rcases number_cons hb with ⟨hlow', rfl⟩ | ⟨hhigh', hb'⟩
      · have hab : a = b := UInt8.toNat_inj.1 (by simp at hvalue; omega)
        rw [hab]
      · have hpos := hb'.length_pos
        simp only [List.length_cons, List.length_nil] at hlength
        omega
      · have hpos := ha'.length_pos
        simp only [List.length_cons, List.length_nil] at hlength
        omega
      · have hab : a = b := UInt8.toNat_inj.1 (by omega)
        rw [hab, ih ha' hb' (by simpa using hlength) (by omega)]

/-- No number is the beginning of another. -/
theorem Number.eq_of_initial (ha : Number as) (hb : Number bs) (h : as <+: bs) : as = bs := by
  induction as generalizing bs with
  | nil => exact absurd ha.length_pos (by simp)
  | cons a as ih =>
    cases bs with
    | nil => simp at h
    | cons b bs =>
      obtain ⟨rfl, hrest⟩ := List.cons_prefix_cons.1 h
      rcases number_cons ha with ⟨hlow, rfl⟩ | ⟨hhigh, ha'⟩ <;>
        rcases number_cons hb with ⟨hlow', rfl⟩ | ⟨hhigh', hb'⟩
      · rfl
      · omega
      · omega
      · rw [ih ha' hb' hrest]

/-! ## Unsigned numbers -/

theorem number_unsigned (n : Nat) : Number (unsigned n) := by
  fun_induction unsigned n with
  | case1 n h => exact number_singleton (by simp; omega)
  | case2 n h ih => exact ih.cons (by simp; omega)

@[simp] theorem value_unsigned (n : Nat) : value (unsigned n) = n := by
  fun_induction unsigned n with
  | case1 n h =>
    rw [value_cons, value_nil]
    simp
    omega
  | case2 n h ih =>
    rw [value_cons, ih]
    simp
    omega

/-- No more groups are written than the number needs. -/
theorem length_unsigned_le {n k : Nat} (h : n < 128 ^ (k + 1)) : (unsigned n).length ≤ k + 1 := by
  induction k generalizing n with
  | zero => rw [unsigned, if_pos (by omega), List.length_singleton]
  | succ k ih =>
    rw [unsigned]
    split
    · simp
    · have hrest := @ih (n / 128) (by rw [Nat.pow_succ] at h; omega)
      simpa using hrest

/-- The shortest of all byte strings whose groups denote the number. -/
theorem length_unsigned_value_le (h : bs ≠ []) : (unsigned (value bs)).length ≤ bs.length := by
  obtain ⟨b, bs, rfl⟩ := List.exists_cons_of_ne_nil h
  exact length_unsigned_le (value_lt (b :: bs))

/-! ## The loop -/

/-- The low seven bits of a word. -/
def lowGroup {width : Nat} (word : BitVec width) : UInt8 :=
  ⟨(word &&& BitVec.ofNat width 0x7f).setWidth 8⟩

/-- The loop that starts with a word ends, and these are the bytes that it has written by then: it
shifts the word to the right, seven bits at a time, until nothing is left. -/
inductive Writes {width : Nat} : BitVec width → Bytes → Prop
  | last {word : BitVec width} (h : word >>> 7 = 0) : Writes word [lowGroup word]
  | more {word : BitVec width} {bs : Bytes} (h : word >>> 7 ≠ 0) (rest : Writes (word >>> 7) bs) :
      Writes word ((lowGroup word ||| 0x80) :: bs)

section

variable {width : Nat}

theorem lowGroup_toNat (hwidth : 8 ≤ width) (word : BitVec width) :
    (lowGroup word).toNat = word.toNat % 128 := by
  have hroom : 127 < 2 ^ width :=
    Nat.lt_of_lt_of_le (by decide) (Nat.pow_le_pow_right (by decide) hwidth : 2 ^ 8 ≤ 2 ^ width)
  have hmask : word.toNat &&& 127 = word.toNat % 128 :=
    Nat.and_two_pow_sub_one_eq_mod word.toNat 7
  rw [lowGroup, UInt8.toNat_ofBitVec, BitVec.toNat_setWidth, BitVec.toNat_and, BitVec.toNat_ofNat,
    Nat.mod_eq_of_lt hroom, hmask]
  omega

theorem continued_toNat {b : UInt8} (h : b.toNat < 128) : (b ||| 0x80).toNat = b.toNat + 128 := by
  have hor : b.toNat ||| 128 = 128 + b.toNat := by
    rw [Nat.or_comm]
    exact (Nat.two_pow_add_eq_or_of_lt (i := 7) (by omega) 1).symm
  rw [UInt8.toNat_or]
  change b.toNat ||| 128 = _
  omega

theorem shiftRight_eq_zero_iff (word : BitVec width) : word >>> 7 = 0 ↔ word.toNat < 128 := by
  rw [← BitVec.toNat_inj, BitVec.toNat_ushiftRight, Nat.shiftRight_eq_div_pow]
  change word.toNat / 128 = (BitVec.ofNat width 0).toNat ↔ _
  rw [BitVec.toNat_ofNat, Nat.zero_mod]
  omega

theorem writes_unsigned (hwidth : 8 ≤ width) (word : BitVec width) :
    Writes word (unsigned word.toNat) := by
  generalize hn : word.toNat = n
  fun_induction unsigned n generalizing word with
  | case1 n h =>
    subst hn
    have hgroup : lowGroup word = word.toNat.toUInt8 := by
      apply UInt8.toNat_inj.1
      rw [lowGroup_toNat hwidth]
      simp
      omega
    rw [← hgroup]
    exact .last ((shiftRight_eq_zero_iff word).2 h)
  | case2 n h ih =>
    subst hn
    have hgroup : lowGroup word ||| 0x80 = (word.toNat % 128 + 128).toUInt8 := by
      have hlow := lowGroup_toNat hwidth word
      apply UInt8.toNat_inj.1
      rw [continued_toNat (by omega)]
      simp
      omega
    rw [← hgroup]
    exact .more (fun hzero => h ((shiftRight_eq_zero_iff word).1 hzero))
      (ih _ (by rw [BitVec.toNat_ushiftRight, Nat.shiftRight_eq_div_pow]))

theorem Writes.unique {word : BitVec width} {bs bs' : Bytes} (h : Writes word bs)
    (h' : Writes word bs') : bs = bs' := by
  induction h generalizing bs' with
  | last hzero =>
    cases h' with
    | last => rfl
    | more hmore => exact absurd hzero hmore
  | more hmore _ ih =>
    cases h' with
    | last hzero => exact absurd hzero hmore
    | more _ rest => rw [ih rest]

theorem writes_iff (v : UInt32) {bs : Bytes} : Writes v.toBitVec bs ↔ bs = ofUInt32 v := by
  have hwrites : Writes v.toBitVec (ofUInt32 v) := writes_unsigned (by decide) v.toBitVec
  exact ⟨fun h => h.unique hwrites, fun h => h ▸ hwrites⟩

end

theorem ofUInt32_initial {v w : UInt32} (h : ofUInt32 v <+: ofUInt32 w) : v = w := by
  have hsame := (number_unsigned _).eq_of_initial (number_unsigned _) h
  have hvalue := congrArg value hsame
  rw [value_unsigned, value_unsigned] at hvalue
  exact UInt32.toNat_inj.1 hvalue

end Leb128

/-! ## Texts -/

namespace Bytes

/-- The bytes of characters in a row. -/
def Utf8 (bytes : Bytes) : Prop := ∃ chars : List Char, bytes = chars.flatMap String.utf8EncodeChar

theorem toString?_eq_some_iff {bytes : Bytes} {s : String} :
    toString? bytes = some s ↔ ofString s = bytes := by
  constructor
  · intro h
    rw [toString?, String.fromUTF8?] at h
    split at h
    · cases h
      rfl
    · cases h
  · rintro rfl
    exact Cursor.toString?_ofString s

theorem ofString_eq (s : String) : ofString s = s.toList.flatMap String.utf8EncodeChar := by
  change s.toByteArray.data.toList = _
  rw [← String.utf8Encode_toList, List.utf8Encode, List.data_toByteArray]

theorem utf8_iff {bytes : Bytes} : bytes.Utf8 ↔ ∃ s, ofString s = bytes := by
  constructor
  · rintro ⟨chars, rfl⟩
    exact ⟨String.ofList chars, by rw [ofString_eq, String.toList_ofList]⟩
  · rintro ⟨s, rfl⟩
    exact ⟨s.toList, ofString_eq s⟩

end Bytes

/-! ## Reading back -/

namespace Cursor

open Leb128 (Number value ofUInt32)
open Wasm (encodeBytes)

theorem readsWord_u32 (c : Cursor) : ReadsWord 5 32 UInt32.toNat u32 c := by
  have h : ReadsWord 5 32 UInt32.toNat (reduced Nat.toUInt32 5) c :=
    readsWord_reduced (fun _ => rfl) (by decide) c
  exact h

theorem u32_ofUInt32 (v : UInt32) : Answers u32 (ofUInt32 v) (.ok v) := by
  have h := u32_answers (Leb128.spelled32_unsigned v.toNat_lt)
  rwa [show v.toNat.toUInt32 = v from UInt32.ofNat_toNat] at h

/-- Bytes that are read in full are no shorter than the spelling that is written. If they are as
short, they are that spelling, or else bits of their fifth group are lost. -/
theorem shortest_of_u32 {v : UInt32} {bs : Bytes} {pos pos' : Nat}
    (h : u32 ⟨bs, pos⟩ = (.ok v, ⟨[], pos'⟩)) :
    (ofUInt32 v).length ≤ bs.length ∧ (bs.length = (ofUInt32 v).length →
      bs = ofUInt32 v ∨ bs.length = 5 ∧ 2 ^ 32 ≤ value bs) := by
  obtain ⟨front, last, hbytes, -, hfront, hlast, hlength, hword, hexact⟩ :=
    (readsWord_u32 ⟨bs, pos⟩).word h
  replace hbytes : bs = front ++ [last] := by rw [List.append_nil] at hbytes; exact hbytes
  rw [← hbytes] at hlength hword hexact
  have hnumber : Number bs := ⟨front, last, hbytes, hfront, hlast⟩
  by_cases hv : v.toNat = value bs
  · have hshort : (ofUInt32 v).length ≤ bs.length := by
      rw [ofUInt32, hv]
      exact Leb128.length_unsigned_value_le (List.ne_nil_of_length_pos hnumber.length_pos)
    refine ⟨hshort, fun hsame => .inl ?_⟩
    refine hnumber.eq_of_value (Leb128.number_unsigned _) hsame ?_
    rw [← hv, ofUInt32, Leb128.value_unsigned]
  · -- Fewer groups denote the number that is read.
    have hfull : bs.length = 5 := by
      by_contra hne
      exact hv (hexact.2 (.inl (by omega)))
    have hshort : (ofUInt32 v).length ≤ 5 :=
      Leb128.length_unsigned_le (v.toNat_lt.trans (by decide))
    refine ⟨by omega, fun _ => .inr ⟨hfull, ?_⟩⟩
    by_contra hlt
    exact hv (by rw [hword, Nat.mod_eq_of_lt (by omega)])

/-- What becomes of a name that is read: its bytes are consumed, and they are a text or not. -/
theorem name_run {n : Bytes} (h : n.length < 2 ^ 32) (s : Bytes) (pos : Nat) :
    name ⟨encodeBytes n ++ s, pos⟩ =
      ((Bytes.toString? n).elim (.error ⟨pos + (encodeBytes n).length, .notUtf8⟩) .ok,
        ⟨s, pos + (encodeBytes n).length⟩) := by
  have hlength : n.length.toUInt32.toNat = n.length := UInt32.toNat_ofNat_of_lt h
  rw [name, bind_run, encodeBytes, List.append_assoc,
    u32_answers (Leb128.spelled32_unsigned h) (n ++ s) pos]
  dsimp only
  rw [hlength, bind_run, take_answers n s]
  dsimp only
  rw [List.length_append, ← Nat.add_assoc]
  cases Bytes.toString? n <;> rfl

theorem name_ok_iff {n : Bytes} (h : n.length < 2 ^ 32) {s : Bytes} {pos : Nat} {t : String}
    {c : Cursor} : name ⟨encodeBytes n ++ s, pos⟩ = (.ok t, c) ↔
      Bytes.ofString t = n ∧ c = ⟨s, pos + (encodeBytes n).length⟩ := by
  rw [name_run h, ← Bytes.toString?_eq_some_iff]
  cases Bytes.toString? n with
  | none => exact iff_of_false (fun h => by cases h) (by simp)
  | some t' =>
    constructor
    · intro h
      cases h
      exact ⟨rfl, rfl⟩
    · rintro ⟨h, rfl⟩
      cases h
      rfl

/-- What the loop over a word writes is read back, whatever follows it. Of all bytes that are read
as a word, those written for it are the shortest, and none is the beginning of another. A name is
read back if its bytes are UTF-8, and refused if they are not. -/
theorem encodings_are_canonical :
    (∀ (v : UInt32) (bs : Bytes), Leb128.Writes v.toBitVec bs ↔ bs = ofUInt32 v) ∧
    (∀ (v : UInt32) (s : Bytes) (pos : Nat),
      u32 ⟨ofUInt32 v ++ s, pos⟩ = (.ok v, ⟨s, pos + (ofUInt32 v).length⟩)) ∧
    (∀ (v : UInt32) (bs : Bytes) (pos pos' : Nat), u32 ⟨bs, pos⟩ = (.ok v, ⟨[], pos'⟩) →
      (ofUInt32 v).length ≤ bs.length ∧ (bs.length = (ofUInt32 v).length →
        bs = ofUInt32 v ∨ bs.length = 5 ∧ 2 ^ 32 ≤ value bs)) ∧
    (∀ v w : UInt32, ofUInt32 v <+: ofUInt32 w → v = w) ∧
    ∀ (n s : Bytes) (pos : Nat), n.length < 2 ^ 32 →
      ((∃ t c, name ⟨encodeBytes n ++ s, pos⟩ = (.ok t, c)) ↔ n.Utf8) ∧
      ∀ t c, name ⟨encodeBytes n ++ s, pos⟩ = (.ok t, c) →
        Bytes.ofString t = n ∧ c = ⟨s, pos + (encodeBytes n).length⟩ := by
  refine ⟨fun v bs => Leb128.writes_iff v, fun v => u32_ofUInt32 v,
    fun v bs pos pos' => shortest_of_u32,
    fun v w => Leb128.ofUInt32_initial, fun n s pos h => ⟨?_, fun t c => (name_ok_iff h).1⟩⟩
  simp only [name_ok_iff h, Bytes.utf8_iff]
  constructor
  · rintro ⟨t, c, ht, -⟩
    exact ⟨t, ht⟩
  · rintro ⟨t, ht⟩
    exact ⟨t, _, ht, rfl⟩

/-- Five groups are not the shortest way to write 300, and two bytes are one character. -/
theorem longer_spelling_of_300 :
    u32 ⟨[0xac, 0x82, 0x80, 0x80, 0x00], 0⟩ = (.ok 300, ⟨[], 5⟩) ∧ (ofUInt32 300).length ≤ 5 ∧
      (ofUInt32 300 <+: ofUInt32 300 ∧ (300 : UInt32) = 300) ∧
      ∃ t c, name ⟨encodeBytes [0xc3, 0xa9] ++ [0x07], 0⟩ = (.ok t, c) ∧
        Bytes.ofString t = [0xc3, 0xa9] := by
  have hread : u32 ⟨[0xac, 0x82, 0x80, 0x80, 0x00], 0⟩ = (.ok 300, ⟨[], 5⟩) := rfl
  have hname := encodings_are_canonical.2.2.2.2 [0xc3, 0xa9] [0x07] 0 (by decide)
  obtain ⟨t, c, ht⟩ := hname.1.2 ⟨['é'], by decide⟩
  exact ⟨hread, (encodings_are_canonical.2.2.1 300 _ 0 5 hread).1,
    ⟨List.prefix_rfl, encodings_are_canonical.2.2.2.1 300 300 List.prefix_rfl⟩, t, c, ht,
    (hname.2 t c ht).1⟩

end Cursor

end GuestThreads
