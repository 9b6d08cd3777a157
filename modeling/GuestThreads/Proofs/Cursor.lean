import GuestThreads.Proofs.Leb128.Canonical

/-!
# Where reads leave the cursor

A read consumes the bytes in front of the cursor, some or none, also when it fails. However many
reads there are, the position and what is left to read add up to the length of the input, a value
depends on the bytes consumed for it and on nothing else, and a failed read stops at a place that
its operation determines: `reads_account_for_every_byte`.
-/

namespace GuestThreads.Cursor

open Leb128 (Number value)

/-! ## Movements -/

/-- The cursor has moved past `bs`. -/
structure Moves (c : Cursor) (bs : Bytes) (c' : Cursor) : Prop where
  rest : c.rest = bs ++ c'.rest
  position : c'.position = c.position + bs.length

theorem Moves.refl (c : Cursor) : Moves c [] c := ⟨rfl, rfl⟩

theorem Moves.trans {c c' c'' : Cursor} {bs bs' : Bytes} (h : Moves c bs c')
    (h' : Moves c' bs' c'') : Moves c (bs ++ bs') c'' := by
  refine ⟨?_, ?_⟩
  · rw [h.rest, h'.rest, List.append_assoc]
  · rw [h'.position, h.position, List.length_append, Nat.add_assoc]

/-- The cursor stands at its position in the input. -/
structure Within (input : Bytes) (c : Cursor) : Prop where
  le : c.position ≤ input.length
  rest : c.rest = input.drop c.position

/-- The bytes of the input that lie between two cursors. -/
def between (input : Bytes) (c c' : Cursor) : Bytes :=
  (input.drop c.position).take (c'.position - c.position)

namespace Within

variable {input bs : Bytes} {c c' : Cursor}

theorem start (input : Bytes) : Within input { rest := input } := ⟨Nat.zero_le _, rfl⟩

theorem total (h : Within input c) : c.position + c.remaining = input.length := by
  have hle := h.le
  rw [remaining, h.rest, List.length_drop]
  omega

theorem moves (h : Within input c) (hmove : Moves c bs c') : Within input c' := by
  have hlength := congrArg List.length hmove.rest
  rw [List.length_append] at hlength
  have htotal := h.total
  refine ⟨?_, ?_⟩
  · rw [hmove.position]
    rw [remaining] at htotal
    omega
  · rw [hmove.position, ← List.drop_drop, ← h.rest, hmove.rest, List.drop_left]

theorem between_eq (h : Within input c) (hmove : Moves c bs c') : between input c c' = bs := by
  rw [between, hmove.position, Nat.add_sub_cancel_left, ← h.rest, hmove.rest, List.take_left]

end Within

/-! ## Single reads -/

section

variable {α β : Type} {c c' : Cursor} {f : Failure}

/-- What is done with a value changes neither a failure nor the cursor. -/
theorem map_ok_iff {p : Read α} {g : α → β} {b : β} :
    (do return g (← p) : Read β) c = (.ok b, c') ↔ ∃ a, p c = (.ok a, c') ∧ g a = b := by
  rw [bind_run]
  rcases p c with ⟨e | a, t⟩
  · refine iff_of_false (fun h => by cases h) ?_
    rintro ⟨a, h, -⟩
    cases h
  · constructor
    · intro h
      cases h
      exact ⟨a, rfl, rfl⟩
    · rintro ⟨a', h, rfl⟩
      cases h
      rfl

theorem map_error_iff {p : Read α} {g : α → β} :
    (do return g (← p) : Read β) c = (.error f, c') ↔ p c = (.error f, c') := by
  rw [bind_run]
  rcases p c with ⟨e | a, t⟩
  · constructor <;> intro h <;> cases h <;> rfl
  · exact iff_of_false (fun h => by cases h) (fun h => by cases h)

theorem moves_of_byte {b : UInt8} (h : byte c = (.ok b, c')) : Moves c [b] c' := by
  obtain ⟨_ | ⟨b', rest⟩, pos⟩ := c
  · cases h
  · cases h
    exact ⟨rfl, rfl⟩

theorem byte_error (h : byte c = (.error f, c')) :
    c' = c ∧ f = ⟨c.position, .endOfInput⟩ ∧ c.remaining = 0 := by
  obtain ⟨_ | ⟨b, rest⟩, pos⟩ := c
  · cases h
    exact ⟨rfl, rfl, rfl⟩
  · cases h

theorem take_refused {n : Int} (h : n < 0 ∨ c.remaining < n) :
    take n c = (.error ⟨c.position, .endOfInput⟩, c) := by
  refine (read_run _ c).trans ?_
  rw [if_pos h]
  rfl

theorem moves_of_take {n : Int} {bs : Bytes} (h : take n c = (.ok bs, c')) :
    n = bs.length ∧ Moves c bs c' := by
  by_cases hroom : n < 0 ∨ c.remaining < n
  · cases (take_refused hroom).symm.trans h
  · obtain ⟨k, rfl⟩ := Int.eq_ofNat_of_zero_le (by omega : 0 ≤ n)
    have hk : k ≤ c.rest.length := by
      rw [remaining] at hroom
      omega
    cases (take_run hk).symm.trans h
    have hlength : (c.rest.take k).length = k := List.length_take_of_le hk
    exact ⟨by rw [hlength], (List.take_append_drop k c.rest).symm, by rw [hlength]⟩

theorem take_error {n : Int} (h : take n c = (.error f, c')) :
    c' = c ∧ f = ⟨c.position, .endOfInput⟩ ∧ (n < 0 ∨ c.remaining < n) := by
  by_cases hroom : n < 0 ∨ c.remaining < n
  · cases (take_refused hroom).symm.trans h
    exact ⟨rfl, rfl, hroom⟩
  · obtain ⟨k, rfl⟩ := Int.eq_ofNat_of_zero_le (by omega : 0 ≤ n)
    cases (take_run (by omega : k ≤ c.remaining)).symm.trans h

/-- How a number of at most `groups` groups is broken off: every byte consumed says that more
follow. Either there are as many as are accepted, or the input ends. -/
structure Unfinished (groups : Nat) (c : Cursor) (bs : Bytes) (f : Failure) (c' : Cursor) :
    Prop where
  moves : Moves c bs c'
  endless : ∀ b ∈ bs, 128 ≤ b.toNat
  length_le : bs.length ≤ groups
  overflow_iff : f = ⟨c'.position, .overflow⟩ ↔ bs.length = groups
  endOfInput_iff : f = ⟨c'.position, .endOfInput⟩ ↔ bs.length < groups
  ended : bs.length < groups → c'.rest = []

theorem unfinished_of_reduced {groups : Nat} {ofNat : Nat → α}
    (h : reduced ofNat groups c = (.error f, c')) : ∃ bs, Unfinished groups c bs f c' := by
  have hout := leb128_outcome groups c
  rw [reduced, map_error_iff] at h
  rw [h] at hout
  cases hout with
  | overflow bs rest hbytes hendless hlength =>
    exact ⟨bs, ⟨hbytes, by simp [hlength]⟩, hendless, by omega, by simp [hlength],
      by simp [hlength], by omega⟩
  | endOfInput hendless hlength =>
    exact ⟨c.rest, ⟨by simp, rfl⟩, hendless, by omega, by simp; omega, by simp [hlength],
      fun _ => rfl⟩

/-- A number that is not too long is read wherever it stands. -/
theorem reduced_answers {groups : Nat} {bs : Bytes} (hnumber : Number bs)
    (hgroups : bs.length ≤ groups) (ofNat : Nat → α) :
    Answers (reduced ofNat groups) bs (.ok (ofNat (value bs))) :=
  (leb128_answers (hnumber.spelled hgroups)).andThen (Answers.value _)

theorem number_of_reduced {groups : Nat} {ofNat : Nat → α} {v : α}
    (h : reduced ofNat groups c = (.ok v, c')) :
    ∃ bs, Moves c bs c' ∧ Number bs ∧ bs.length ≤ groups ∧ v = ofNat (value bs) := by
  have hout := leb128_outcome groups c
  obtain ⟨n, hrun, rfl⟩ := map_ok_iff.1 h
  rw [hrun] at hout
  cases hout with
  | number bs rest hbytes hnumber hlength =>
    exact ⟨bs, ⟨hbytes, rfl⟩, hnumber, hlength, rfl⟩

theorem number_of_u32 {v : UInt32} (h : u32 c = (.ok v, c')) :
    ∃ bs, Moves c bs c' ∧ Number bs ∧ bs.length ≤ 5 ∧ v.toNat = value bs % 2 ^ 32 := by
  have hword : reduced Nat.toUInt32 5 c = (.ok v, c') := h
  obtain ⟨bs, hmove, hnumber, hlength, rfl⟩ := number_of_reduced hword
  exact ⟨bs, hmove, hnumber, hlength, rfl⟩

theorem name_ok {s : String} (h : name c = (.ok s, c')) :
    ∃ length, Moves c (length ++ Bytes.ofString s) c' ∧ Number length ∧ length.length ≤ 5 ∧
      (Bytes.ofString s).length = value length % 2 ^ 32 := by
  obtain ⟨n, c₁, hlength, h⟩ := bind_ok h
  obtain ⟨data, c₂, hdata, h⟩ := bind_ok h
  obtain ⟨length, hmove, hnumber, hgroups, hn⟩ := number_of_u32 hlength
  obtain ⟨hsize, hmove'⟩ := moves_of_take hdata
  cases htext : Bytes.toString? data with
  | none =>
    rw [htext] at h
    cases h
  | some s' =>
    rw [htext] at h
    cases h
    have hbytes := Bytes.toString?_eq_some_iff.1 htext
    rw [hbytes]
    exact ⟨length, hmove.trans hmove', hnumber, hgroups, by omega⟩

end

/-! ## Operations -/

inductive Operation where
  | byte
  | take (n : Int)
  | skip (n : Int)
  | u32
  | u64
  | name
deriving DecidableEq, Repr

/-- What an operation yields. -/
inductive Value where
  | byte (b : UInt8)
  | bytes (bs : Bytes)
  | skipped
  | word32 (v : UInt32)
  | word64 (v : UInt64)
  | text (s : String)
deriving DecidableEq, Repr

namespace Operation

def perform : Operation → Read Value
  | .byte => do return .byte (← Cursor.byte)
  | .take n => do return .bytes (← Cursor.take n)
  | .skip n => do
    let _ ← Cursor.skip n
    return .skipped
  | .u32 => do return .word32 (← Cursor.u32)
  | .u64 => do return .word64 (← Cursor.u64)
  | .name => do return .text (← Cursor.name)

/-- The value that an operation makes of the bytes it consumes. -/
inductive Yields : Operation → Bytes → Value → Prop
  | byte (b : UInt8) : Yields .byte [b] (.byte b)
  | take (bs : Bytes) : Yields (.take bs.length) bs (.bytes bs)
  | skip (bs : Bytes) : Yields (.skip bs.length) bs .skipped
  | u32 {bs : Bytes} (hnumber : Number bs) (hgroups : bs.length ≤ 5) :
      Yields .u32 bs (.word32 (value bs).toUInt32)
  | u64 {bs : Bytes} (hnumber : Number bs) (hgroups : bs.length ≤ 10) :
      Yields .u64 bs (.word64 (value bs).toUInt64)
  | name {length : Bytes} {s : String} (hnumber : Number length) (hgroups : length.length ≤ 5)
      (hlength : (Bytes.ofString s).length = value length % 2 ^ 32) :
      Yields .name (length ++ Bytes.ofString s) (.text s)

/-- What an operation has consumed when it fails, why it does, and where it leaves the cursor. -/
inductive Stops (c : Cursor) : Operation → Bytes → Failure → Cursor → Prop
  | byte (h : c.remaining = 0) : Stops c .byte [] ⟨c.position, .endOfInput⟩ c
  | take {n : Int} (h : n < 0 ∨ c.remaining < n) :
      Stops c (.take n) [] ⟨c.position, .endOfInput⟩ c
  | skip {n : Int} (h : n < 0 ∨ c.remaining < n) :
      Stops c (.skip n) [] ⟨c.position, .endOfInput⟩ c
  | u32 {bs : Bytes} {f : Failure} {c' : Cursor} (h : Unfinished 5 c bs f c') :
      Stops c .u32 bs f c'
  | u64 {bs : Bytes} {f : Failure} {c' : Cursor} (h : Unfinished 10 c bs f c') :
      Stops c .u64 bs f c'
  /-- Within the length of a name. -/
  | nameLength {bs : Bytes} {f : Failure} {c' : Cursor} (h : Unfinished 5 c bs f c') :
      Stops c .name bs f c'
  /-- Right behind the length, as there are fewer bytes. -/
  | nameShort {length : Bytes} {c' : Cursor} (h : Moves c length c') (hnumber : Number length)
      (hgroups : length.length ≤ 5) (hshort : c'.remaining < value length % 2 ^ 32) :
      Stops c .name length ⟨c'.position, .endOfInput⟩ c'
  /-- Behind the data, which are no text. -/
  | nameData {length data : Bytes} {c' : Cursor} (h : Moves c (length ++ data) c')
      (hnumber : Number length) (hgroups : length.length ≤ 5)
      (hlength : data.length = value length % 2 ^ 32) (hdata : ¬data.Utf8) :
      Stops c .name (length ++ data) ⟨c'.position, .notUtf8⟩ c'

variable {op : Operation} {c c' : Cursor} {bs : Bytes} {v : Value} {f : Failure}

/-- The bytes that yield a value yield it wherever they stand. -/
theorem Yields.answers (h : op.Yields bs v) : Answers op.perform bs (.ok v) := by
  cases h with
  | byte b => exact (byte_answers b).andThen (Answers.value _)
  | take bs => exact (take_answers bs).andThen (Answers.value _)
  | skip bs =>
    have hskip : Answers (Cursor.skip bs.length) bs (.ok ()) :=
      (take_answers bs).andThen (Answers.value ())
    exact hskip.andThen (Answers.value _)
  | u32 hnumber hgroups =>
    exact (reduced_answers hnumber hgroups Nat.toUInt32).andThen (Answers.value _)
  | u64 hnumber hgroups =>
    exact (reduced_answers hnumber hgroups Nat.toUInt64).andThen (Answers.value _)
  | @name length s hnumber hgroups hlength =>
    have hword : Answers Cursor.u32 length (.ok (value length).toUInt32) :=
      reduced_answers hnumber hgroups Nat.toUInt32
    have hsize : (value length).toUInt32.toNat = (Bytes.ofString s).length := hlength.symm
    refine (hword.bind ?_ : Answers Cursor.name _ (.ok s)).andThen (Answers.value _)
    rw [hsize]
    refine (take_answers (Bytes.ofString s)).andThen ?_
    rw [toString?_ofString]
    exact Answers.value s

/-- A value is made of the bytes consumed. -/
theorem yields_of_perform (h : op.perform c = (.ok v, c')) :
    ∃ bs, Moves c bs c' ∧ op.Yields bs v := by
  cases op with
  | byte =>
    obtain ⟨b, hrun, rfl⟩ := map_ok_iff.1 h
    exact ⟨[b], moves_of_byte hrun, .byte b⟩
  | take n =>
    obtain ⟨bs, hrun, rfl⟩ := map_ok_iff.1 h
    obtain ⟨rfl, hmove⟩ := moves_of_take hrun
    exact ⟨bs, hmove, .take bs⟩
  | skip n =>
    obtain ⟨_, hskip, rfl⟩ := map_ok_iff.1 h
    obtain ⟨bs, hrun, -⟩ := map_ok_iff.1 hskip
    obtain ⟨rfl, hmove⟩ := moves_of_take hrun
    exact ⟨bs, hmove, .skip bs⟩
  | u32 =>
    obtain ⟨w, hrun, rfl⟩ := map_ok_iff.1 h
    obtain ⟨bs, hmove, hnumber, hgroups, rfl⟩ :=
      number_of_reduced (hrun : reduced Nat.toUInt32 5 c = _)
    exact ⟨bs, hmove, .u32 hnumber hgroups⟩
  | u64 =>
    obtain ⟨w, hrun, rfl⟩ := map_ok_iff.1 h
    obtain ⟨bs, hmove, hnumber, hgroups, rfl⟩ :=
      number_of_reduced (hrun : reduced Nat.toUInt64 10 c = _)
    exact ⟨bs, hmove, .u64 hnumber hgroups⟩
  | name =>
    obtain ⟨s, hrun, rfl⟩ := map_ok_iff.1 h
    obtain ⟨length, hmove, hnumber, hgroups, hlength⟩ := name_ok hrun
    exact ⟨_, hmove, .name hnumber hgroups hlength⟩

theorem stops_of_name (h : Cursor.name c = (.error f, c')) :
    ∃ bs, Moves c bs c' ∧ Stops c .name bs f c' := by
  rcases bind_failed h with hlength | ⟨n, c₁, hlength, h⟩
  · obtain ⟨bs, hbs⟩ := unfinished_of_reduced (hlength : reduced Nat.toUInt32 5 c = _)
    exact ⟨bs, hbs.moves, .nameLength hbs⟩
  obtain ⟨length, hmove, hnumber, hgroups, hn⟩ := number_of_u32 hlength
  rcases bind_failed h with hdata | ⟨data, c₂, hdata, h⟩
  · obtain ⟨rfl, rfl, hshort⟩ := take_error hdata
    exact ⟨length, hmove, .nameShort hmove hnumber hgroups (by omega)⟩
  · obtain ⟨hsize, hmove'⟩ := moves_of_take hdata
    cases htext : Bytes.toString? data with
    | some s =>
      rw [htext] at h
      cases h
    | none =>
      rw [htext] at h
      cases h
      have hbytes : ¬data.Utf8 := by
        rw [Bytes.utf8_iff]
        rintro ⟨s, hs⟩
        rw [Bytes.toString?_eq_some_iff.2 hs] at htext
        cases htext
      have hboth := hmove.trans hmove'
      exact ⟨length ++ data, hboth, .nameData hboth hnumber hgroups (by omega) hbytes⟩

theorem stops_of_perform (h : op.perform c = (.error f, c')) :
    ∃ bs, Moves c bs c' ∧ op.Stops c bs f c' := by
  cases op with
  | byte =>
    obtain ⟨rfl, rfl, hempty⟩ := byte_error (map_error_iff.1 h)
    exact ⟨[], .refl c', .byte hempty⟩
  | take n =>
    obtain ⟨rfl, rfl, hroom⟩ := take_error (map_error_iff.1 h)
    exact ⟨[], .refl c', .take hroom⟩
  | skip n =>
    obtain ⟨rfl, rfl, hroom⟩ := take_error (map_error_iff.1 (map_error_iff.1 h))
    exact ⟨[], .refl c', .skip hroom⟩
  | u32 =>
    obtain ⟨bs, hbs⟩ := unfinished_of_reduced (map_error_iff.1 h : reduced Nat.toUInt32 5 c = _)
    exact ⟨bs, hbs.moves, .u32 hbs⟩
  | u64 =>
    obtain ⟨bs, hbs⟩ := unfinished_of_reduced (map_error_iff.1 h : reduced Nat.toUInt64 10 c = _)
    exact ⟨bs, hbs.moves, .u64 hbs⟩
  | name => exact stops_of_name (map_error_iff.1 h)

theorem moves_of_perform (op : Operation) (c : Cursor) : ∃ bs, Moves c bs (op.perform c).2 := by
  rcases hrun : op.perform c with ⟨f | v, c'⟩
  · obtain ⟨bs, hmove, -⟩ := stops_of_perform hrun
    exact ⟨bs, hmove⟩
  · obtain ⟨bs, hmove, -⟩ := yields_of_perform hrun
    exact ⟨bs, hmove⟩

/-- The cursor after operations in a row, each of which is performed whether or not the one before
it has failed. -/
def after (ops : List Operation) (c : Cursor) : Cursor :=
  ops.foldl (fun c op => (op.perform c).2) c

theorem within_after {input : Bytes} (ops : List Operation) (h : Within input c) :
    Within input (after ops c) := by
  induction ops generalizing c with
  | nil => exact h
  | cons op ops ih =>
    obtain ⟨bs, hmove⟩ := op.moves_of_perform c
    exact ih (h.moves hmove)

/-- What an operation does to a cursor that stands in the input. -/
structure Accounted (input : Bytes) (op : Operation) (c : Cursor) : Prop where
  before : c.position + c.remaining = input.length
  total : (op.perform c).2.position + (op.perform c).2.remaining = input.length
  advances : c.position ≤ (op.perform c).2.position
  /-- A value is what the bytes consumed yield, here and wherever else they stand. -/
  value : ∀ {v c'}, op.perform c = (.ok v, c') →
    op.Yields (between input c c') v ∧ Answers op.perform (between input c c') (.ok v)
  /-- There is a value if there are bytes that yield one. -/
  succeeds : ∀ {bs v}, bs <+: c.rest → op.Yields bs v → ∃ c', op.perform c = (.ok v, c')
  stops : ∀ {f c'}, op.perform c = (.error f, c') → op.Stops c (between input c c') f c'

theorem accounted {input : Bytes} (op : Operation) (h : Within input c) :
    Accounted input op c where
  before := h.total
  total := by
    obtain ⟨bs, hmove⟩ := op.moves_of_perform c
    exact (h.moves hmove).total
  advances := by
    obtain ⟨bs, hmove⟩ := op.moves_of_perform c
    simp [hmove.position]
  value := by
    intro v c' hrun
    obtain ⟨bs, hmove, hbs⟩ := yields_of_perform hrun
    rw [h.between_eq hmove]
    exact ⟨hbs, hbs.answers⟩
  succeeds := by
    rintro bs v ⟨rest, hrest⟩ hbs
    have hrun := hbs.answers rest c.position
    rw [hrest] at hrun
    exact ⟨_, hrun⟩
  stops := by
    intro f c' hrun
    obtain ⟨bs, hmove, hbs⟩ := stops_of_perform hrun
    rwa [h.between_eq hmove]

end Operation

/-- Whatever is read before from an input, with any arguments, an operation leaves the position and
what is left adding up to the length of the input, and never moves back. If it yields a value, the
value depends on the bytes between the two positions alone. If it fails, a single byte and a number
of bytes consume nothing, a word breaks off within its groups, and with an overflow just if all of
them are consumed, and a name breaks off within its length, right behind it, or behind data that are
no text. -/
theorem reads_account_for_every_byte (input : Bytes) (done : List Operation) (op : Operation) :
    op.Accounted input (Operation.after done { rest := input }) :=
  op.accounted (Operation.within_after done (Within.start input))

end GuestThreads.Cursor
