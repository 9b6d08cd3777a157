import GuestThreads.Closures
import GuestThreads.Proofs.Action
import GuestThreads.Proofs.Text.Literal
import Mathlib.Data.List.TakeWhile

/-!
# Reading lists of pointers

A list of pointers is read as it is written: literals between commas, with blanks around them and
blank parts among them. It is refused just if some part is neither blank nor the literal of a
pointer. What is read is never empty, so every thread has a pointer: `pointer_lists_are_read`.
-/

namespace GuestThreads

/-! ## Blanks -/

namespace Text

/-- Text of nothing but blanks. -/
def Blanks : Type := { cs : List Char // ∀ c ∈ cs, isBlank c = true }

theorem trim_blanks {cs : List Char} (h : ∀ c ∈ cs, isBlank c = true) : trim cs = [] := by
  have hdrop : cs.dropWhile isBlank = [] := List.dropWhile_eq_nil_iff.2 h
  simp [trim, hdrop]

/-- Blanks around a text are taken off, and nothing else. -/
theorem trim_padded (before after : Blanks) {cs : List Char} (h : ∀ c ∈ cs, isBlank c = false)
    (hcs : cs ≠ []) : trim (before.1 ++ cs ++ after.1) = cs := by
  have hkeep (xs ys : List Char) (hxs : ∀ c ∈ xs, isBlank c = false) (hne : xs ≠ []) :
      (xs ++ ys).dropWhile isBlank = xs ++ ys := by
    obtain ⟨x, xs, rfl⟩ := List.exists_cons_of_ne_nil hne
    simp [hxs x (by simp)]
  rw [trim, List.append_assoc, List.dropWhile_append_of_pos before.2, hkeep cs after.1 h hcs,
    List.reverse_append, List.dropWhile_append_of_pos (by simpa using after.2)]
  have hreverse := hkeep cs.reverse [] (by simpa using h) (by simpa using hcs)
  rw [List.append_nil] at hreverse
  rw [hreverse, List.reverse_reverse]

end Text

namespace Closures

/-! ## Parts -/

theorem splitCommas_eq (cs : List Char) : splitCommas cs = cs.splitOn ',' := by
  induction cs with
  | nil => rfl
  | cons c cs ih =>
    obtain ⟨part, parts, hparts⟩ := List.exists_cons_of_ne_nil (List.splitOnP_ne_nil (· == ',') cs)
    rw [splitCommas, ih, List.splitOn_eq_splitOnP, List.splitOn_eq_splitOnP,
      List.splitOnP_cons_eq_if_modifyHead, hparts]
    simp

theorem parsePointer_eq_ok_iff {part : List Char} {v : UInt32} :
    parsePointer part = .ok v ↔ Text.Literal part v.toNat := by
  have hread {n : Nat} : Text.parseUnsigned Text.maxWord32 part = .ok n ↔ _ :=
    Text.parseUnsigned_eq_ok_iff
  have hv : v.toNat ≤ Text.maxWord32 := Nat.le_of_lt_succ v.toNat_lt
  rw [parsePointer]
  constructor
  · intro h
    cases hn : Text.parseUnsigned Text.maxWord32 part with
    | error e =>
      rw [hn] at h
      cases h
    | ok n =>
      rw [hn] at h
      cases h
      obtain ⟨hliteral, hle⟩ := hread.1 hn
      have hsame : n.toUInt32.toNat = n := UInt32.toNat_ofNat_of_lt (Nat.lt_succ_of_le hle)
      rwa [hsame]
  · intro h
    rw [hread.2 ⟨h, hv⟩]
    simp

/-- The parts of a list that are not blank, without the blanks around them. -/
def entries (text : String) : List (List Char) :=
  ((text.toList.splitOn ',').map Text.trim).filter (!·.isEmpty)

theorem parse_eq_ok_iff {text : String} {pointers : List UInt32} :
    parse text = .ok pointers ↔ ∃ read, List.Forall₂ (fun part v => Text.Literal part v.toNat)
      (entries text) read ∧ pointers = if read.isEmpty then [0] else read := by
  have hparse : parse text = (do
      let read ← (entries text).mapM parsePointer
      return if read.isEmpty then [0] else read) := by
    rw [parse, splitCommas_eq]
    rfl
  simp only [← parsePointer_eq_ok_iff, ← mapM_eq_ok_iff]
  rw [hparse]
  cases (entries text).mapM parsePointer with
  | error e => simp [bind, Except.bind]
  | ok read =>
    constructor
    · intro h
      cases h
      exact ⟨read, rfl, rfl⟩
    · rintro ⟨_, h, rfl⟩
      cases h
      rfl

/-- A list is refused just if some part of it is. -/
theorem parse_eq_error_iff {text : String} : (∃ e, parse text = .error e) ↔
    ∃ part ∈ entries text, ¬∃ v : UInt32, Text.Literal part v.toNat := by
  have hread (parts : List (List Char)) :
      (∃ read, List.Forall₂ (fun part (v : UInt32) => Text.Literal part v.toNat) parts read) ↔
        ∀ part ∈ parts, ∃ v : UInt32, Text.Literal part v.toNat := by
    induction parts with
    | nil => simp
    | cons part parts ih => simp [List.forall₂_cons_left_iff, ← ih]
  have hok : (∃ pointers, parse text = .ok pointers) ↔
      ∀ part ∈ entries text, ∃ v : UInt32, Text.Literal part v.toNat := by
    simp only [← hread, parse_eq_ok_iff]
    grind
  have hsplit : (∃ e, parse text = .error e) ↔ ¬∃ pointers, parse text = .ok pointers := by
    cases parse text <;> simp
  rw [hsplit, hok]
  grind

theorem ne_nil_of_parse {text : String} {pointers : List UInt32} (h : parse text = .ok pointers) :
    pointers ≠ [] := by
  obtain ⟨read, -, rfl⟩ := parse_eq_ok_iff.1 h
  grind

/-- The pointer for a thread is found in the list. -/
theorem getElem?_pointerFor {pointers : List UInt32} (h : pointers ≠ []) (i : Nat) :
    pointers[min i (pointers.length - 1)]? = some (pointerFor pointers i) := by
  have hlength := List.length_pos_iff.2 h
  have hlast : pointers.length - 1 < pointers.length := by omega
  rw [pointerFor]
  by_cases hi : i < pointers.length
  · have hmin : min i (pointers.length - 1) = i := by omega
    rw [hmin, List.getElem?_eq_getElem hi]
    rfl
  · have hmin : min i (pointers.length - 1) = pointers.length - 1 := by omega
    have hbeyond : pointers[i]? = none := List.getElem?_eq_none (Nat.le_of_not_lt hi)
    rw [hmin, hbeyond, List.getLastD_eq_getLast?, List.getLast?_eq_getElem?,
      List.getElem?_eq_getElem hlast]
    rfl

/-! ## Written lists -/

/-- A part of a list: nothing but blanks, or the literal of a pointer with blanks around it. -/
inductive Part where
  | blank (blanks : Text.Blanks)
  | pointer (before : Text.Blanks) (literal : List Char) (v : UInt32)
      (h : Text.Literal literal v.toNat) (after : Text.Blanks)

namespace Part

def text : Part → List Char
  | .blank blanks => blanks.1
  | .pointer before literal _ _ after => before.1 ++ literal ++ after.1

def pointer? : Part → Option UInt32
  | .blank _ => none
  | .pointer _ _ v _ _ => some v

/-- No part has a comma in it. -/
theorem comma_not_mem (part : Part) : ',' ∉ part.text := by
  have hblanks (blanks : Text.Blanks) : ',' ∉ blanks.1 :=
    fun h => absurd (blanks.2 _ h) (by decide)
  cases part with
  | blank blanks => exact hblanks blanks
  | pointer before literal v h after =>
    have hliteral : ',' ∉ literal := fun hmem => (h.plain _ hmem).2 rfl
    simp [text, hblanks, hliteral]

/-- What is left of a part without its blanks. -/
theorem trim_text (part : Part) :
    part.pointer? = none ∧ Text.trim part.text = [] ∨
      ∃ v, part.pointer? = some v ∧ Text.trim part.text ≠ [] ∧
        Text.Literal (Text.trim part.text) v.toNat := by
  cases part with
  | blank blanks => exact .inl ⟨rfl, Text.trim_blanks blanks.2⟩
  | pointer before literal v h after =>
    have htrim : Text.trim (before.1 ++ literal ++ after.1) = literal :=
      Text.trim_padded before after (fun c hc => (h.plain c hc).1) h.remains.1
    rw [text, htrim]
    exact .inr ⟨v, rfl, h.remains.1, h⟩

end Part

/-- Parts with commas between them. -/
def written (parts : List Part) : String := .ofList ([','].intercalate (parts.map Part.text))

theorem entries_written {parts : List Part} (h : parts ≠ []) :
    List.Forall₂ (fun part v => Text.Literal part v.toNat) (entries (written parts))
      (parts.filterMap Part.pointer?) := by
  have hsplit : (written parts).toList.splitOn ',' = parts.map Part.text := by
    rw [written, String.toList_ofList]
    exact List.splitOn_intercalate ',' (by simpa using fun part _ => part.comma_not_mem)
      (by simpa using h)
  rw [entries, hsplit]
  clear h hsplit
  induction parts with
  | nil => exact .nil
  | cons part parts ih =>
    rw [List.map_cons, List.map_cons]
    obtain ⟨hnone, htrim⟩ | ⟨v, hsome, htrim, hliteral⟩ := part.trim_text
    · rw [List.filterMap_cons_none hnone, List.filter_cons_of_neg (by simp [htrim])]
      exact ih
    · rw [List.filterMap_cons_some hsome, List.filter_cons_of_pos (by simpa using htrim)]
      exact .cons hliteral ih

theorem parse_written {parts : List Part} (h : parts.filterMap Part.pointer? ≠ []) :
    parse (written parts) = .ok (parts.filterMap Part.pointer?) := by
  have hparts : parts ≠ [] := by
    rintro rfl
    exact h rfl
  exact parse_eq_ok_iff.2 ⟨_, entries_written hparts, by simp [h]⟩

/-- **Lists of pointers are read as they are written.** A number has a literal in each base, and a
list of literals with blanks and blank parts is read as the list of their numbers. A text is refused
just if a part of it, without the blanks around it, is neither empty nor the literal of a pointer.
If it is read, then every thread has a pointer in the list, the last one from the last on. -/
theorem pointer_lists_are_read :
    (∀ n : Nat, Text.Literal (Nat.toDigits 10 n) n ∧
      Text.Literal (['0', 'x'] ++ Nat.toDigits 16 n) n ∧
      Text.Literal (['0', 'o'] ++ Nat.toDigits 8 n) n ∧
      Text.Literal (['0', 'b'] ++ Nat.toDigits 2 n) n) ∧
    (∀ parts : List Part, parts.filterMap Part.pointer? ≠ [] →
      parse (written parts) = .ok (parts.filterMap Part.pointer?)) ∧
    (∀ text : String, (∃ e, parse text = .error e) ↔
      ∃ part ∈ text.toList.splitOn ',', Text.trim part ≠ [] ∧
        ¬∃ v : UInt32, Text.Literal (Text.trim part) v.toNat) ∧
    ∀ (text : String) (pointers : List UInt32), parse text = .ok pointers → pointers ≠ [] ∧
      ∀ i, pointers[min i (pointers.length - 1)]? = some (pointerFor pointers i) := by
  refine ⟨fun n => ⟨Text.literal_decimal n, Text.literal_marked (by decide) n,
    Text.literal_marked (by decide) n, Text.literal_marked (by decide) n⟩,
    fun parts => parse_written, fun text => ?_,
    fun text pointers h => ⟨ne_nil_of_parse h, getElem?_pointerFor (ne_nil_of_parse h)⟩⟩
  rw [parse_eq_error_iff]
  simp [entries, and_assoc]

/-- Two pointers with a blank part between them, and a text that ends in a number that is too
large. -/
theorem pointer_lists_are_read_of_two :
    parse " 0x1_F ,\t,42" = .ok [31, 42] ∧
      [(31 : UInt32), 42][min 5 1]? = some (pointerFor [31, 42] 5) ∧
      (∃ e, parse "7,0x1_0000_0000" = .error e) ∧ ∃ part ∈ "7,0x1_0000_0000".toList.splitOn ',',
        Text.trim part ≠ [] ∧ ¬∃ v : UInt32, Text.Literal (Text.trim part) v.toNat := by
  have hliteral : Text.Literal ['0', 'x', '1', '_', 'F'] (31 : UInt32).toNat :=
    .marked (show (['0', 'x'], 16) ∈ Text.baseMarks by decide) (.inl rfl)
      (.separated (d := 1) ⟨by decide, .inl rfl⟩ (.last (d := 15) ⟨by decide, .inr rfl⟩))
  let space : Text.Blanks := ⟨[' '], List.forall_mem_singleton.2 (by decide)⟩
  let tab : Text.Blanks := ⟨['\t'], List.forall_mem_singleton.2 (by decide)⟩
  let nothing : Text.Blanks := ⟨[], by simp⟩
  let parts : List Part := [.pointer space _ 31 hliteral space, .blank tab,
    .pointer nothing _ 42 (Text.literal_decimal 42) nothing]
  have hread : parse " 0x1_F ,\t,42" = .ok [31, 42] :=
    pointer_lists_are_read.2.1 parts (by simp [parts, Part.pointer?])
  have hrefused : ∃ e, parse "7,0x1_0000_0000" = .error e := ⟨_, by rfl⟩
  exact ⟨hread, (pointer_lists_are_read.2.2.2 _ _ hread).2 5, hrefused,
    (pointer_lists_are_read.2.2.1 _).1 hrefused⟩

end Closures

end GuestThreads
