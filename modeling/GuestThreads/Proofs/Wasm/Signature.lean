import GuestThreads.Proofs.Wasm.Decoding

/-!
# What is written of a signature

A function type is written as two counted lists with nothing between them. None of these byte
strings is the beginning of another, since whoever reads one of them knows where it ends. What is
read is the signature with an `i32` in the place of every reference, so that types are told apart by
what is written of them just if they agree in all but that:
`encoding_tells_signatures_but_for_references`.
-/

namespace GuestThreads.Wasm

/-! ## Beginnings -/

/-- Bytes that are read as a whole begin no other such bytes. -/
theorem Decodes.of_initial {α : Type} {d : Decoder α} {bs bs' : Bytes} {a a' : α}
    (h : Decodes d bs a) (h' : Decodes d bs' a') (hinitial : bs <+: bs') : bs = bs' ∧ a = a' := by
  obtain ⟨rest, rfl⟩ := hinitial
  have hread : d (bs ++ rest) = some (a, rest) := h rest
  have hread' : d (bs ++ rest) = some (a', []) := by simpa using h' []
  grind

/-! ## Written types -/

/-- The type that is read where this one was written. -/
def ValType.written (v : ValType) : ValType := if v.numeric then v else .i32

@[simp] theorem ValType.ofCode?_code (v : ValType) : ofCode? v.code = some v.written := by
  cases v <;> rfl

@[simp] theorem ValType.code_written (v : ValType) : v.written.code = v.code := by
  cases v <;> rfl

theorem ValType.written_eq_self_iff {v : ValType} : v.written = v ↔ v.numeric = true := by
  cases v <;> decide

namespace FuncType

/-- The signature with an `i32` in the place of every reference. -/
def written (t : FuncType) : FuncType where
  params := t.params.map .written
  results := t.results.map .written

/-- The numbers of parameters and of results are words of 32 bits. -/
structure Countable (t : FuncType) : Prop where
  params : t.params.length < UInt32.size
  results : t.results.length < UInt32.size

theorem encode_written (t : FuncType) : t.written.encode = t.encode := by
  simp [encode, written, vector, List.flatMap_map]

theorem written_eq_self_iff {t : FuncType} : t.written = t ↔ t.Numeric := by
  obtain ⟨params, results⟩ := t
  have hself (vs : List ValType) : vs.map .written = vs ↔ ∀ v ∈ vs, v.numeric = true := by
    induction vs with
    | nil => simp
    | cons v vs ih => simp [ih, ValType.written_eq_self_iff]
  simp [written, Numeric, hself, or_imp, forall_and]

end FuncType

namespace Decoder

theorem valType_written (v : ValType) : Decodes valType [v.code] v.written := by
  refine (byte_decodes v.code).andThen fun rest => ?_
  rw [ValType.ofCode?_code]
  rfl

/-- A function type is read with its references lost, whatever follows it. -/
theorem funcType_written {t : FuncType} (h : t.Countable) :
    Decodes funcType t.encode t.written := by
  refine (expect_decodes 0x60).bind (?_ : Decodes _ (_ ++ _) _)
  refine (vector_decodes h.params fun v _ => valType_written v).bind ?_
  exact (vector_decodes h.results fun v _ => valType_written v).yield (FuncType.mk t.written.params)

end Decoder

namespace FuncType

theorem written_of_initial {t t' : FuncType} (h : t.Countable) (h' : t'.Countable)
    (hinitial : t.encode <+: t'.encode) : t.written = t'.written :=
  ((Decoder.funcType_written h).of_initial (Decoder.funcType_written h') hinitial).2

/-- The bytes of one function type are the beginning of, or the same as, those of another just if
the two agree once their references are taken for `i32`. Among types of numbers that means that they
are the same; any other type shares its bytes with one that it differs from. -/
theorem encoding_tells_signatures_but_for_references (t t' : FuncType) (h : t.Countable)
    (h' : t'.Countable) :
    (t.encode <+: t'.encode ↔ t.written = t'.written) ∧
      (t.Numeric → t'.Numeric → t.encode <+: t'.encode → t = t') ∧
      t.written.encode = t.encode ∧ (t.written = t ↔ t.Numeric) := by
  refine ⟨⟨written_of_initial h h', fun hwritten => ?_⟩, ?_, encode_written t, written_eq_self_iff⟩
  · have hsame : t.encode = t'.encode := by rw [← encode_written t, hwritten, encode_written t']
    exact hsame ▸ List.prefix_rfl
  · intro hnumeric hnumeric' hinitial
    calc t = t.written := (written_eq_self_iff.2 hnumeric).symm
      _ = t'.written := written_of_initial h h' hinitial
      _ = t' := written_eq_self_iff.2 hnumeric'

/-- A reference is written as a number is, so that two types have the same bytes. -/
theorem references_are_lost :
    let reference : FuncType := { params := [.externref], results := [.i64] }
    let number : FuncType := { params := [.i32], results := [.i64] }
    reference.Countable ∧ number.Countable ∧ reference.encode <+: number.encode ∧
      reference ≠ number := by
  intro reference number
  have hsame : number.encode = reference.encode := encode_written reference
  exact ⟨⟨by decide, by decide⟩, ⟨by decide, by decide⟩, hsame ▸ List.prefix_rfl, by decide⟩

theorem wider_signature_is_told_apart :
    let narrow : FuncType := { params := [.i32, .f64], results := [.i64] }
    let wide : FuncType := { params := [.i32, .f64], results := [.i64, .externref] }
    narrow.Countable ∧ wide.Countable ∧ ¬narrow.encode <+: wide.encode ∧
      ¬wide.Numeric ∧ wide.written ≠ wide ∧ wide.written.encode = wide.encode := by
  intro narrow wide
  have hnarrow : narrow.Countable := ⟨by decide, by decide⟩
  have hwide : wide.Countable := ⟨by decide, by decide⟩
  obtain ⟨-, -, hsame, hself⟩ :=
    encoding_tells_signatures_but_for_references wide narrow hwide hnarrow
  have hnumeric : ¬wide.Numeric := by decide
  refine ⟨hnarrow, hwide, ?_, hnumeric, mt hself.1 hnumeric, hsame⟩
  rw [(encoding_tells_signatures_but_for_references narrow wide hnarrow hwide).1]
  decide

end FuncType

end GuestThreads.Wasm
