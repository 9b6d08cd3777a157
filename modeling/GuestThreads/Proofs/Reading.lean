import GuestThreads.Cursor
import GuestThreads.Leb128
import GuestThreads.Proofs.Action
import Mathlib.Algebra.Order.Ring.Nat

/-!
# What reads make of bytes

`Answers p bs r` says what `p` makes of the bytes `bs`, whatever comes after them: it yields a value
and stops right behind `bs`, or it fails on the way. Reads in a row answer to bytes in a row.
-/

namespace GuestThreads

variable {ε α β : Type}

/-- With `bs` ahead of the cursor, `p` either yields a value and consumes just `bs`, or fails. -/
def Answers (p : ExceptT ε (StateM Cursor) α) (bs : Bytes) : Except ε α → Prop
  | .ok a => ∀ rest pos, p ⟨bs ++ rest, pos⟩ = (.ok a, ⟨rest, pos + bs.length⟩)
  | .error e => ∀ rest pos, (p ⟨bs ++ rest, pos⟩).1 = .error e

namespace Answers

variable {p : ExceptT ε (StateM Cursor) α} {f : α → ExceptT ε (StateM Cursor) β} {bs bs' : Bytes}

theorem value (a : α) : Answers (pure a : ExceptT ε (StateM Cursor) α) [] (.ok a) :=
  fun _ _ => rfl

theorem refusal (e : ε) : Answers (throw e : ExceptT ε (StateM Cursor) α) [] (.error e) :=
  fun _ _ => rfl

/-- After a read that yields a value, the next one faces the bytes behind it. -/
theorem bind {a : α} {r : Except ε β} (hp : Answers p bs (.ok a)) (hf : Answers (f a) bs' r) :
    Answers (p >>= f) (bs ++ bs') r := by
  have hrun (rest : Bytes) (pos : Nat) :
      (p >>= f) ⟨bs ++ bs' ++ rest, pos⟩ = f a ⟨bs' ++ rest, pos + bs.length⟩ := by
    rw [bind_run, List.append_assoc, hp (bs' ++ rest) pos]
  cases r with
  | ok b =>
    intro rest pos
    rw [hrun, hf rest, List.length_append, Nat.add_assoc]
  | error e =>
    intro rest pos
    rw [hrun, hf rest]

/-- Nothing is asked of what follows a read that fails. -/
theorem bind_error {e : ε} (hp : Answers p bs (.error e)) :
    Answers (p >>= f) (bs ++ bs') (.error e) := by
  intro rest pos
  have hfirst := hp (bs' ++ rest) pos
  rw [bind_run, List.append_assoc]
  rcases hrun : p ⟨bs ++ (bs' ++ rest), pos⟩ with ⟨_ | _, c⟩ <;> rw [hrun] at hfirst
  · cases hfirst
    rfl
  · cases hfirst

/-- What is done with the value at once consumes nothing. -/
theorem andThen {a : α} {r : Except ε β} (hp : Answers p bs (.ok a)) (hf : Answers (f a) [] r) :
    Answers (p >>= f) bs r := by
  have h := hp.bind hf
  rwa [List.append_nil] at h

theorem andThen_error {e : ε} (hp : Answers p bs (.error e)) : Answers (p >>= f) bs (.error e) := by
  have h : Answers (p >>= f) (bs ++ []) (.error e) := hp.bind_error
  rwa [List.append_nil] at h

/-- How a read ends, apart from where it leaves the cursor. -/
theorem outcome {r : Except ε α} (hp : Answers p bs r) (rest : Bytes) (pos : Nat) :
    (p ⟨bs ++ rest, pos⟩).1 = r := by
  cases r with
  | ok a => rw [hp rest pos]
  | error e => exact hp rest pos

end Answers

/-! ## LEB128 -/

namespace Leb128

/-- The number is spelled in at most `groups` groups, in the shortest way or not. -/
inductive Spelled : (groups n : Nat) → Bytes → Prop
  | last {groups : Nat} (b : UInt8) (h : b.toNat < 128) : Spelled (groups + 1) b.toNat [b]
  | more {groups n : Nat} {bs : Bytes} (b : UInt8) (h : 128 ≤ b.toNat)
    (high : Spelled groups n bs) :
      Spelled (groups + 1) (b.toNat - 128 + 128 * n) (b :: bs)

/-- `unsigned` writes a spelling, in as many groups as the number needs. -/
theorem spelled_unsigned {groups n : Nat} (h : n < 128 ^ (groups + 1)) :
    Spelled (groups + 1) n (unsigned n) := by
  induction groups generalizing n with
  | zero =>
    rw [unsigned, if_pos (by omega)]
    have hlow : n.toUInt8.toNat = n := by simp; omega
    have hlast := @Spelled.last 0 n.toUInt8 (by omega)
    rwa [hlow] at hlast
  | succ groups ih =>
    rw [unsigned]
    split
    · have hlow : n.toUInt8.toNat = n := by simp; omega
      have hlast := @Spelled.last (groups + 1) n.toUInt8 (by omega)
      rwa [hlow] at hlast
    · have hlow : (n % 128 + 128).toUInt8.toNat = n % 128 + 128 := by simp; omega
      have hhigh : n / 128 < 128 ^ (groups + 1) := by
        rw [Nat.pow_succ] at h
        omega
      have hmore := Spelled.more (n % 128 + 128).toUInt8 (by omega) (ih hhigh)
      rw [hlow] at hmore
      have hn : n % 128 + 128 - 128 + 128 * (n / 128) = n := by omega
      rwa [hn] at hmore

/-- A 32-bit number in LEB128. -/
structure Spelled32 (n : Nat) (bs : Bytes) : Prop where
  lt : n < UInt32.size
  spelled : Spelled 5 n bs

/-- A 64-bit number in LEB128. -/
structure Spelled64 (n : Nat) (bs : Bytes) : Prop where
  lt : n < UInt64.size
  spelled : Spelled 10 n bs

theorem spelled32_unsigned {n : Nat} (h : n < UInt32.size) : Spelled32 n (unsigned n) :=
  ⟨h, spelled_unsigned (h.trans (by decide))⟩

theorem spelled64_unsigned {n : Nat} (h : n < UInt64.size) : Spelled64 n (unsigned n) :=
  ⟨h, spelled_unsigned (h.trans (by decide))⟩

end Leb128

/-! ## Primitives -/

namespace Cursor

theorem byte_answers (b : UInt8) : Answers byte [b] (.ok b) := fun _ _ => rfl

theorem leb128_answers {groups n : Nat} {bs : Bytes} (h : Leb128.Spelled groups n bs) :
    Answers (leb128 groups) bs (.ok n) := by
  induction h with
  | last b h =>
    refine (byte_answers b).andThen ?_
    rw [if_pos h]
    exact Answers.value _
  | @more groups n bs b h _ ih =>
    refine (byte_answers b).bind (?_ : Answers _ bs _)
    rw [if_neg (by omega)]
    exact ih.andThen (Answers.value _)

theorem u32_answers {n : Nat} {bs : Bytes} (h : Leb128.Spelled32 n bs) :
    Answers u32 bs (.ok n.toUInt32) :=
  (leb128_answers h.spelled).andThen (Answers.value _)

theorem u64_answers {n : Nat} {bs : Bytes} (h : Leb128.Spelled64 n bs) :
    Answers u64 bs (.ok n.toUInt64) :=
  (leb128_answers h.spelled).andThen (Answers.value _)

theorem take_run {c : Cursor} {n : Nat} (h : n ≤ c.remaining) :
    take n c = (.ok (c.rest.take n), ⟨c.rest.drop n, c.position + n⟩) := by
  have hroom : ¬((n : Int) < 0 ∨ (c.remaining : Int) < n) := by omega
  refine (read_run _ c).trans ?_
  rw [if_neg hroom]
  rfl

theorem take_answers (bs : Bytes) : Answers (take bs.length) bs (.ok bs) := by
  intro rest pos
  have hroom : ¬((bs.length : Int) < 0 ∨ ((bs ++ rest).length : Int) < bs.length) := by
    rw [List.length_append]
    omega
  change (if (bs.length : Int) < 0 ∨ ((bs ++ rest).length : Int) < bs.length then stop .endOfInput
    else _ : Read Bytes) ⟨bs ++ rest, pos⟩ = _
  rw [if_neg hroom]
  change (Except.ok ((bs ++ rest).take bs.length),
    Cursor.mk ((bs ++ rest).drop bs.length) (pos + bs.length)) = _
  rw [List.take_left, List.drop_left]

/-- Texts are read back from their bytes. -/
theorem toString?_ofString (s : String) : Bytes.toString? (Bytes.ofString s) = some s := by
  have hvalid : ByteArray.IsValidUTF8 ⟨(Bytes.ofString s).toArray⟩ := by
    simpa [Bytes.ofString] using s.isValidUTF8
  rw [Bytes.toString?, String.fromUTF8?, dif_pos hvalid]
  rfl

theorem name_answers {s : String} {length : Bytes}
    (h : Leb128.Spelled32 (Bytes.ofString s).length length) :
    Answers name (length ++ Bytes.ofString s) (.ok s) := by
  have hlength : (Bytes.ofString s).length.toUInt32.toNat = (Bytes.ofString s).length :=
    UInt32.toNat_ofNat_of_lt h.lt
  refine (u32_answers h).bind ?_
  rw [hlength]
  refine (take_answers (Bytes.ofString s)).andThen ?_
  rw [toString?_ofString]
  exact Answers.value s

end Cursor

end GuestThreads
