import GuestThreads.Proofs.Cursor
import GuestThreads.Proofs.Wasm.Truncation
import Mathlib.Logic.Function.Iterate

/-!
# Scans are bounded by their input

The sizes and counts in a module are only claims. A scan is a loop over sections and then a loop
over the entries of one body; `Stage` says where it stands between two turns. A turn that is not the
last consumes bytes, at least two for a section and four for an entry, so there are never more turns
than the bytes pay for, and never more imports: `scan_is_bounded_by_its_input`.
-/

namespace GuestThreads

variable {ε α β : Type}

/-- A read that yields a value has consumed at least `k` bytes. -/
def Consumes (k : Nat) (p : ExceptT ε (StateM Cursor) α) : Prop :=
  ∀ ⦃c c' : Cursor⦄ ⦃a : α⦄, p c = (.ok a, c') → ∃ bs, c.Moves bs c' ∧ k ≤ bs.length

namespace Consumes

variable {p : ExceptT ε (StateM Cursor) α} {f : α → ExceptT ε (StateM Cursor) β} {j k : Nat}

theorem value (a : α) : Consumes 0 (pure a : ExceptT ε (StateM Cursor) α) := by
  intro c c' a' h
  cases h
  exact ⟨[], .refl c, Nat.zero_le _⟩

theorem refusal (e : ε) (k : Nat) : Consumes k (throw e : ExceptT ε (StateM Cursor) α) := by
  intro c c' a h
  cases h

theorem mono (h : Consumes k p) (hle : j ≤ k) : Consumes j p := by
  intro c c' a hrun
  obtain ⟨bs, hmove, hlength⟩ := h hrun
  exact ⟨bs, hmove, hle.trans hlength⟩

theorem bind (hp : Consumes j p) (hf : ∀ a, Consumes k (f a)) : Consumes (k + j) (p >>= f) := by
  intro c c' b hrun
  obtain ⟨a, t, hfirst, hnext⟩ := bind_ok hrun
  obtain ⟨bs, hmove, hlength⟩ := hp hfirst
  obtain ⟨bs', hmove', hlength'⟩ := hf a hnext
  refine ⟨bs ++ bs', hmove.trans hmove', ?_⟩
  rw [List.length_append]
  omega

/-- What is done with a value consumes nothing more. -/
theorem map (hp : Consumes k p) (g : α → β) : Consumes k (p >>= fun a => pure (g a)) :=
  (hp.bind fun a => value (g a)).mono (by omega)

end Consumes

namespace Cursor

theorem consumes_byte : Consumes 1 byte := by
  intro c c' b h
  exact ⟨[b], moves_of_byte h, Nat.le_refl _⟩

theorem consumes_take (n : Nat) : Consumes n (take n) := by
  intro c c' bs h
  obtain ⟨hlength, hmove⟩ := moves_of_take h
  exact ⟨bs, hmove, by omega⟩

theorem consumes_reduced (ofNat : Nat → α) (groups : Nat) : Consumes 1 (reduced ofNat groups) := by
  intro c c' v h
  obtain ⟨bs, hmove, hnumber, -⟩ := number_of_reduced h
  exact ⟨bs, hmove, hnumber.length_pos⟩

theorem consumes_name : Consumes 1 name := by
  intro c c' s h
  obtain ⟨length, hmove, hnumber, -⟩ := name_ok h
  have hpos := hnumber.length_pos
  exact ⟨_, hmove, by rw [List.length_append]; omega⟩

end Cursor

namespace Wasm.Import

open Cursor (Within)

/-! ## What an iteration consumes -/

theorem consumes_read {r : Cursor.Read α} {k : Nat} (h : Consumes k r)
    (wrap : Cursor.Failure → ScanError) : Consumes k (read r wrap) := by
  intro c c' a hrun
  exact h (read_ok hrun)

theorem consumes_index (wrap : Cursor.Failure → ScanError) : Consumes 1 (read Cursor.u32 wrap) :=
  consumes_read (Cursor.consumes_reduced Nat.toUInt32 5) wrap

theorem consumes_scanBound (memory64 : Bool) : Consumes 1 (scanBound memory64) := by
  cases memory64 with
  | true => exact consumes_read (Cursor.consumes_reduced Nat.toUInt64 10) .unreadable
  | false => exact (consumes_index .unreadable).map UInt32.toUInt64

/-- The flags and a minimum. -/
theorem consumes_scanLimits : Consumes 2 scanLimits := by
  refine (consumes_read Cursor.consumes_byte .unreadable).bind fun flags => ?_
  refine (consumes_scanBound _).bind fun min => ?_
  split
  · refine ((consumes_scanBound _).bind fun max => ?_).mono (Nat.zero_le 1)
    split
    · exact .refusal _ 0
    · exact .value _
  · exact .value _

/-- The kind and what belongs to it, of which there is at least one byte for every kind. -/
theorem consumes_scanDesc (module name : String) : Consumes 2 (scanDesc module name) := by
  refine (consumes_read Cursor.consumes_byte .unreadable).bind fun kind => ?_
  split
  · exact (consumes_index .unreadable).map Desc.func
  · refine (consumes_read Cursor.consumes_byte .unreadable).bind fun reftype => ?_
    exact (consumes_scanLimits.map (Desc.table reftype)).mono (Nat.zero_le 2)
  · exact (consumes_scanLimits.map Desc.memory).mono (by decide)
  · have htwo := consumes_read (Cursor.consumes_take 2) .unreadable
    refine (htwo.bind fun bs => ?_).mono (by decide : 1 ≤ 0 + 2)
    split
    · exact .value _
    · exact .refusal _ 0
  · refine (consumes_read Cursor.consumes_byte .unreadable).bind fun kind => ?_
    exact ((consumes_index .unreadable).map (Desc.tag kind)).mono (Nat.zero_le 1)
  · exact .refusal _ 1

theorem consumes_scanEntry : Consumes 4 scanEntry := by
  refine (consumes_read Cursor.consumes_name .unreadable).bind fun module => ?_
  refine (consumes_read Cursor.consumes_name .unreadable).bind fun name => ?_
  exact (consumes_scanDesc module name).map (Import.mk module name)

/-- The id and the size of a section. -/
theorem consumes_nextSection : Consumes 2 nextSection := by
  rw [nextSection_eq]
  refine (consumes_read Cursor.consumes_byte .unreadable).bind fun id => ?_
  refine (consumes_index (.sectionHeader id)).bind fun size => ?_
  intro c c' found hrun
  rw [sectionBody] at hrun
  split at hrun
  · cases hrun
  · next hroom =>
    cases hrun
    refine ⟨c.rest.take size.toNat, ⟨(List.take_append_drop _ _).symm, ?_⟩, Nat.zero_le _⟩
    rw [List.length_take_of_le (Nat.le_of_not_lt hroom)]

/-! ## Turns -/

/-- Where a scan stands between two turns of its loops. -/
inductive Stage where
  /-- In front of a section. -/
  | sections (c : Cursor)
  /-- In front of an entry of the body, with so many found and so many left to find. -/
  | entries (body : Bytes) (found : List Import) (left : Nat) (c : Cursor)
  | done (r : Except ScanError (List Import))

namespace Stage

/-- The loop over entries begins with their count. -/
def enter (body : Bytes) : Stage :=
  match read Cursor.u32 .unreadable { rest := body } with
  | (.error e, _) => .done (.error e)
  | (.ok count, c) => .entries body [] count.toNat c

def turn : Stage → Stage
  | .sections c =>
    if c.rest.isEmpty then .done (.ok [])
    else
      match nextSection c with
      | (.error e, _) => .done (.error e)
      | (.ok (id, body), c') => if id = 2 then enter body else .sections c'
  | .entries _ found 0 _ => .done (.ok found)
  | .entries body found (left + 1) c =>
    match scanEntry c with
    | (.error e, _) => .done (.error e)
    | (.ok i, c') => .entries body (found ++ [i]) left c'
  | .done r => .done r

def start (wasm : Bytes) : Stage :=
  if wasm.length < header.length ∨ wasm.take 4 ≠ header.take 4 then .done (.error .notWasm)
  else .sections { rest := wasm.drop header.length }

/-- How a turn goes, with the bytes that it consumes. -/
inductive Spends : Stage → Stage → Prop
  | passed {c c' : Cursor} {id : UInt8} {body bs : Bytes} (hid : id ≠ 2)
      (hrun : nextSection c = (.ok (id, body), c')) (h : c.Moves bs c') (hbs : 2 ≤ bs.length) :
      Spends (.sections c) (.sections c')
  | entered {c c' c'' : Cursor} {body bs count : Bytes} {left : Nat}
      (hrun : nextSection c = (.ok (2, body), c')) (h : c.Moves bs c') (hbs : 2 ≤ bs.length)
      (hcount : Cursor.Moves { rest := body } count c'') (hpos : 1 ≤ count.length) :
      Spends (.sections c) (.entries body [] left c'')
  | found {c c' : Cursor} {body bs : Bytes} {found : List Import} {left : Nat} {i : Import}
      (h : c.Moves bs c') (hbs : 4 ≤ bs.length) :
      Spends (.entries body found (left + 1) c) (.entries body (found ++ [i]) left c')
  | none {c : Cursor} (h : c.rest = []) : Spends (.sections c) (.done (.ok []))
  | all (body : Bytes) (found : List Import) (c : Cursor) :
      Spends (.entries body found 0 c) (.done (.ok found))
  | failed (s : Stage) (e : ScanError) : Spends s (.done (.error e))
  | stayed (r : Except ScanError (List Import)) : Spends (.done r) (.done r)

theorem spends_sections (c : Cursor) : Spends (.sections c) (turn (.sections c)) := by
  rw [turn]
  split
  · next hempty => exact .none (List.isEmpty_iff.1 hempty)
  · rcases hrun : nextSection c with ⟨e | ⟨id, body⟩, c'⟩
    · exact .failed _ e
    · obtain ⟨bs, hmove, hbs⟩ := consumes_nextSection hrun
      by_cases hid : id = 2
      · subst hid
        simp only [enter, if_true]
        rcases hcount : read Cursor.u32 .unreadable { rest := body } with ⟨e | count, c''⟩
        · exact .failed _ e
        · obtain ⟨cs, hmove', hcs⟩ := consumes_index .unreadable hcount
          exact .entered hrun hmove hbs hmove' hcs
      · simp only [if_neg hid]
        exact .passed hid hrun hmove hbs

theorem spends_turn (s : Stage) : Spends s s.turn := by
  cases s with
  | sections c => exact spends_sections c
  | entries body found left c =>
    cases left with
    | zero => exact .all body found c
    | succ left =>
      rw [turn]
      rcases hrun : scanEntry c with ⟨e | i, c'⟩
      · exact .failed _ e
      · obtain ⟨bs, hmove, hbs⟩ := consumes_scanEntry hrun
        exact .found hmove hbs
  | done r => exact .stayed r

/-! ## The last turn -/

/-- How many bytes the loops have left. -/
def size : Stage → Nat
  | .sections c => c.rest.length
  | .entries _ _ _ c => c.rest.length
  | .done _ => 0

theorem size_turn (s : Stage) : (∃ r, s.turn = .done r) ∨ s.turn.size + 2 ≤ s.size := by
  have hspends := s.spends_turn
  generalize s.turn = t at hspends
  cases hspends with
  | passed hid hrun h hbs =>
    right
    simp only [size, h.rest, List.length_append]
    omega
  | @entered c c' c'' body bs count left hrun h hbs hcount hpos =>
    right
    obtain ⟨bs', hrest, hframed⟩ := framed_of_nextSection hrun
    -- the frame shows the section's bytes as id, size and body
    obtain ⟨-, -, -⟩ := hframed
    have hbody : body = count ++ c''.rest := hcount.rest
    simp only [size, hrest, hbody, List.length_append, List.length_cons]
    omega
  | found h hbs =>
    right
    simp only [size, h.rest, List.length_append]
    omega
  | none h => exact .inl ⟨_, rfl⟩
  | all body found c => exact .inl ⟨_, rfl⟩
  | failed s e => exact .inl ⟨_, rfl⟩
  | stayed r => exact .inl ⟨_, rfl⟩

end Stage

/-- The bound on the number of sections is never reached. -/
theorem scanSections_eq_of_le {c : Cursor} {m n : Nat} (hm : c.rest.length ≤ m)
    (hn : c.rest.length ≤ n) : scanSections m c = scanSections n c := by
  induction m generalizing n c with
  | zero =>
    obtain ⟨rest, pos⟩ := c
    cases List.length_eq_zero_iff.1 (Nat.le_zero.1 hm)
    rw [scanSections_nil, scanSections_nil]
  | succ m ih =>
    cases n with
    | zero =>
      obtain ⟨rest, pos⟩ := c
      cases List.length_eq_zero_iff.1 (Nat.le_zero.1 hn)
      rw [scanSections_nil, scanSections_nil]
    | succ n =>
      rw [scanSections, scanSections]
      rcases hrun : nextSection c with ⟨e | ⟨id, body⟩, c'⟩
      · rfl
      · obtain ⟨bs, hmove, hbs⟩ := consumes_nextSection hrun
        have hlength := congrArg List.length hmove.rest
        rw [List.length_append] at hlength
        simp only [@ih c' n (by omega) (by omega)]

namespace Stage

/-- What a scan comes to from here on. -/
def outcome : Stage → Except ScanError (List Import)
  | .sections c => scanSections c.rest.length c
  | .entries _ found left c => (scanEntries left c).1.map (found ++ ·)
  | .done r => r

theorem outcome_enter (body : Bytes) : (enter body).outcome = scanSection body := by
  change _ = ((read Cursor.u32 >>= fun count => scanEntries count.toNat :
    Scan (List Import)) { rest := body }).1
  rw [enter, bind_run]
  rcases read Cursor.u32 .unreadable { rest := body } with ⟨e | count, c⟩
  · rfl
  · simp only [outcome, List.nil_append]
    cases (scanEntries count.toNat c).1 <;> rfl

theorem outcome_turn (s : Stage) : s.turn.outcome = s.outcome := by
  cases s with
  | sections c =>
    obtain ⟨_ | ⟨b, rest⟩, pos⟩ := c
    · rfl
    · have hscan : outcome (.sections ⟨b :: rest, pos⟩) =
          scanSections (rest.length + 1) ⟨b :: rest, pos⟩ := rfl
      rw [hscan, turn, scanSections]
      rcases hrun : nextSection ⟨b :: rest, pos⟩ with ⟨e | ⟨id, body⟩, c'⟩
      · rfl
      · obtain ⟨bs, hmove, hbs⟩ := consumes_nextSection hrun
        have hlength := congrArg List.length hmove.rest
        rw [List.length_append, List.length_cons] at hlength
        by_cases hid : id = 2
        · simp [hid, outcome_enter]
        · simp only [hid, if_false]
          exact scanSections_eq_of_le (Nat.le_refl _) (by omega)
  | entries body found left c =>
    cases left with
    | zero =>
      have hnone : scanEntries 0 c = (.ok [], c) := rfl
      simp [turn, outcome, hnone, Except.map]
    | succ left =>
      rw [turn, outcome, scanEntries, bind_run]
      rcases scanEntry c with ⟨e | i, c'⟩
      · rfl
      · simp only [outcome, bind_run]
        rcases scanEntries left c' with ⟨e | is, c''⟩
        · rfl
        · exact congrArg Except.ok (List.append_assoc found [i] is)
  | done r => rfl

theorem iterate_turn_done (n : Nat) (r : Except ScanError (List Import)) :
    turn^[n] (.done r) = .done r :=
  Function.iterate_fixed rfl n

/-- Every turn but the last is paid for with two bytes. -/
theorem iterate_turn {n : Nat} {s : Stage} (h : s.size < 2 * n) : turn^[n] s = .done s.outcome := by
  induction n generalizing s with
  | zero => omega
  | succ n ih =>
    rw [Function.iterate_succ_apply, ← outcome_turn s]
    rcases s.size_turn with ⟨r, hr⟩ | hsize
    · rw [hr, iterate_turn_done]
      rfl
    · exact ih (by omega)

theorem finishes (wasm : Bytes) :
    ∃ turns, 2 * turns ≤ wasm.length ∧ turn^[turns] (start wasm) = .done (scan wasm) := by
  rw [start, scan]
  by_cases hheader : wasm.length < header.length ∨ wasm.take 4 ≠ header.take 4
  · rw [if_pos hheader, if_pos hheader]
    exact ⟨0, Nat.zero_le _, rfl⟩
  · rw [if_neg hheader, if_neg hheader]
    have hlength : (wasm.drop header.length).length = wasm.length - 8 := List.length_drop
    have hlong : 8 ≤ wasm.length := Nat.le_of_not_lt (not_or.1 hheader).1
    refine ⟨(wasm.length - 8) / 2 + 1, by omega, ?_⟩
    have hsize : (sections { rest := wasm.drop header.length }).size = wasm.length - 8 := hlength
    rw [iterate_turn (by omega)]
    exact congrArg done (scanSections_eq_of_le (Nat.le_refl _) (hlength.trans_le (by omega)))

end Stage

/-! ## What is not read -/

/-- The body of the first import section of a module, as long as its size declares. -/
inductive ImportBody (body : Bytes) : (wasm : Bytes) → Prop
  | mk {version bs after : Bytes} {before : List Bytes} (hversion : version.length = 4)
      (hbefore : ∀ s ∈ before, Other s) (himports : Framed 2 body bs) :
      ImportBody body (header.take 4 ++ version ++ (before.flatten ++ (bs ++ after)))

theorem ImportBody.length_le {body wasm : Bytes} (h : ImportBody body wasm) :
    body.length + 10 ≤ wasm.length := by
  obtain ⟨hversion, -, hnumber, -, -⟩ := h
  have hpos := hnumber.length_pos
  have hmagic : (header.take 4).length = 4 := rfl
  simp only [List.length_append, List.length_cons]
  omega

namespace Stage

/-- What holds at every turn of a scan: sections were passed over in front of the cursor, or it
stands in the body of the first import section and has four bytes behind it for each entry found. -/
def Bounded (wasm : Bytes) : Stage → Prop
  | .sections c => ∃ (version : Bytes) (before : List Bytes), version.length = 4 ∧
      (∀ s ∈ before, Other s) ∧ wasm = header.take 4 ++ version ++ (before.flatten ++ c.rest)
  | .entries body found _ c => ImportBody body wasm ∧ Within body c ∧ 4 * found.length < c.position
  | .done (.ok found) => 0 < found.length → 4 * found.length + 11 ≤ wasm.length
  | .done (.error _) => True

theorem bounded_start (wasm : Bytes) : (start wasm).Bounded wasm := by
  rw [start]
  split
  · trivial
  · next hheader =>
    obtain ⟨hlength, hmagic⟩ := not_or.1 hheader
    refine ⟨(wasm.drop 4).take 4, [], ?_, by simp, ?_⟩
    · simp [header] at hlength ⊢
      omega
    · have hrest : wasm.drop header.length = (wasm.drop 4).drop 4 := by
        rw [List.drop_drop]
        rfl
      rw [← not_not.1 hmagic, hrest, List.flatten_nil, List.nil_append, List.append_assoc,
        List.take_append_drop, List.take_append_drop]

/-- One turn keeps the bounds. -/
theorem Bounded.turn {wasm : Bytes} {s : Stage} (h : s.Bounded wasm) : s.turn.Bounded wasm := by
  have hspends := s.spends_turn
  generalize s.turn = t at hspends
  cases hspends with
  | @passed c c' id body bs hid hrun hmove hbs =>
    obtain ⟨version, before, hversion, hbefore, rfl⟩ := h
    obtain ⟨bs', hrest, hframed⟩ := framed_of_nextSection hrun
    refine ⟨version, before ++ [bs'], hversion, ?_, by simp [hrest]⟩
    intro s hs
    rcases List.mem_append.1 hs with hs | hs
    · exact hbefore s hs
    · cases List.mem_singleton.1 hs
      exact ⟨id, body, hid, hframed⟩
  | @entered c c' c'' body bs count left hrun hmove hbs hcount hpos =>
    obtain ⟨version, before, hversion, hbefore, rfl⟩ := h
    obtain ⟨bs', hrest, hframed⟩ := framed_of_nextSection hrun
    refine ⟨?_, (Within.start body).moves hcount, ?_⟩
    · rw [hrest]
      exact .mk hversion hbefore hframed
    · rw [hcount.position, List.length_nil]
      omega
  | @found c c' body bs found left i hmove hbs =>
    obtain ⟨hbody, hwithin, hfound⟩ := h
    refine ⟨hbody, hwithin.moves hmove, ?_⟩
    rw [hmove.position, List.length_append, List.length_singleton]
    omega
  | none => simp [Bounded]
  | all body found c =>
    obtain ⟨hbody, hwithin, hfound⟩ := h
    intro hpos
    have hend := hwithin.le
    have hlength := hbody.length_le
    omega
  | failed s e => trivial
  | stayed r => exact h

theorem bounded_iterate (wasm : Bytes) (turns : Nat) :
    (turn^[turns] (start wasm)).Bounded wasm := by
  induction turns with
  | zero => exact bounded_start wasm
  | succ turns ih =>
    rw [Function.iterate_succ_apply']
    exact ih.turn

end Stage

/-- Nothing behind the body of the first import section is looked at. -/
theorem ImportsEndAt.scan_take_append {wasm : Bytes} {before : List Bytes} {finish : Nat}
    (h : ImportsEndAt wasm before finish) (other : Bytes) :
    scan (wasm.take finish ++ other) = scan wasm := by
  obtain ⟨hversion, hbefore, himports⟩ := h
  rename_i version bs body after
  have htake : (header.take 4 ++ version ++ (before.flatten ++ (bs ++ after))).take
      (8 + before.flatten.length + bs.length) ++ other =
        header.take 4 ++ version ++ (before.flatten ++ (bs ++ other)) := by
    have hrest : (before.flatten ++ (bs ++ after)).take (before.flatten ++ bs).length =
        before.flatten ++ bs := by
      rw [← List.append_assoc, List.take_left]
    have hlength : 8 + before.flatten.length + bs.length - 8 = (before.flatten ++ bs).length := by
      rw [List.length_append]
      omega
    rw [take_module hversion _ (by omega), hlength, hrest]
    simp only [List.append_assoc]
  rw [htake, scan_sections hversion hbefore himports, scan_sections hversion hbefore himports]

theorem length_of_scan {wasm : Bytes} {imports : List Import} (h : scan wasm = .ok imports)
    (hpos : 0 < imports.length) : 4 * imports.length + 11 ≤ wasm.length := by
  obtain ⟨turns, -, hdone⟩ := Stage.finishes wasm
  have hbounded := Stage.bounded_iterate wasm turns
  rw [hdone, h] at hbounded
  exact hbounded hpos

/-- Whatever sizes and counts a module claims, the loops of a scan end after at most one turn for
every two bytes. A turn that passes over a section consumes two bytes or more, one that finds an
entry four or more. The entries are looked for in the declared body of the first import section, and
what follows it has no influence. So the length of a module bounds the number of its imports. -/
theorem scan_is_bounded_by_its_input (wasm : Bytes) :
    (∃ turns, 2 * turns ≤ wasm.length ∧
      Stage.turn^[turns] (Stage.start wasm) = .done (scan wasm)) ∧
    (∀ s : Stage, s.Spends s.turn) ∧
    (∀ turns body found left c,
      Stage.turn^[turns] (Stage.start wasm) = .entries body found left c →
        ImportBody body wasm ∧ Within body c) ∧
    (∀ before finish, ImportsEndAt wasm before finish →
      ∀ other, scan (wasm.take finish ++ other) = scan wasm) ∧
    ∀ imports, scan wasm = .ok imports → 0 < imports.length →
      4 * imports.length + 11 ≤ wasm.length := by
  refine ⟨Stage.finishes wasm, Stage.spends_turn, ?_, fun before finish => ?_, fun imports => ?_⟩
  · intro turns body found left c hstage
    have hbounded := Stage.bounded_iterate wasm turns
    rw [hstage] at hbounded
    exact ⟨hbounded.1, hbounded.2.1⟩
  · exact ImportsEndAt.scan_take_append
  · exact length_of_scan

/-- The smallest entry there is, in the smallest module that has one. -/
theorem smallest_entry_meets_the_bound :
    let wasm : Bytes := header ++ [2, 5, 1, 0, 0, 0, 0]
    let imports : List Import := [{ module := "", name := "", desc := .func 0 }]
    scan wasm = .ok imports ∧ 4 * imports.length + 11 ≤ wasm.length ∧
      4 * imports.length + 11 = wasm.length ∧
      (Stage.turn^[1] (Stage.start wasm) = .entries [1, 0, 0, 0, 0] [] 1 ⟨[0, 0, 0, 0], 1⟩ ∧
        Within [1, 0, 0, 0, 0] ⟨[0, 0, 0, 0], 1⟩) ∧
      ImportsEndAt wasm [] 15 ∧ scan (wasm.take 15 ++ [2, 0]) = .ok imports := by
  intro wasm imports
  have hscan : scan wasm = .ok imports := by decide +kernel
  have hstage : Stage.turn^[1] (Stage.start wasm) =
    .entries [1, 0, 0, 0, 0] [] 1 ⟨[0, 0, 0, 0], 1⟩ := rfl
  have hends : ImportsEndAt wasm [] 15 := by
    have hframed : Framed 2 [1, 0, 0, 0, 0] [2, 5, 1, 0, 0, 0, 0] :=
      @Framed.mk 2 [1, 0, 0, 0, 0] [5] (Leb128.number_singleton (by decide)) (by decide) (by decide)
    exact @ImportsEndAt.mk [1, 0, 0, 0] _ _ [] [] rfl (by simp) hframed
  obtain ⟨-, -, hbody, hbehind, hbound⟩ := scan_is_bounded_by_its_input wasm
  exact ⟨hscan, hbound imports hscan (by decide), rfl, ⟨hstage, (hbody 1 _ _ _ _ hstage).2⟩, hends,
    (hbehind [] 15 hends [2, 0]).trans hscan⟩

end Wasm.Import

end GuestThreads
