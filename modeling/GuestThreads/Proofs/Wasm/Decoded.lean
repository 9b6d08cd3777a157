import GuestThreads.Proofs.Wasm.Posting

/-!
# The interpreter and trampolines

Sizes are 32-bit numbers. So where the binary of a trampoline is decoded at all, it is decoded to
what it stands for. The interpreter forwards the calls of its functions as they are meant.
-/

namespace GuestThreads.Wasm

/-! ## Sections -/

/-- A number that is written out is read back, unless it takes more groups than are read. -/
theorem Decoder.unsigned_eq {groups n k : Nat} {rest rest' : Bytes}
    (h : unsigned groups (Leb128.unsigned n ++ rest) = some (k, rest')) : k = n := by
  induction groups generalizing n k rest' with
  | zero => cases h
  | succ groups ih =>
    rw [Leb128.unsigned] at h
    split at h
    · have hbyte : n.toUInt8.toNat = n := by simp; omega
      change (if n.toUInt8.toNat < 128 then pure n.toUInt8.toNat else _ : Decoder Nat) _ = _ at h
      rw [if_pos (by omega)] at h
      cases h
      exact hbyte
    · have hbyte : (n % 128 + 128).toUInt8.toNat = n % 128 + 128 := by simp; omega
      change (if (n % 128 + 128).toUInt8.toNat < 128 then _ else do
        return (n % 128 + 128).toUInt8.toNat - 128 + 128 * (← unsigned groups) : Decoder Nat) _ = _
        at h
      rw [if_neg (by omega)] at h
      obtain ⟨⟨high, mid⟩, hhigh, h⟩ := Option.bind_eq_some_iff.1 h
      have hhigh : high = n / 128 := ih hhigh
      cases h
      omega

/-- Only 32-bit numbers are read. -/
theorem Decoder.lt_of_index {n k : Nat} {rest rest' : Bytes}
    (h : index (Leb128.unsigned n ++ rest) = some (k, rest')) : n < UInt32.size := by
  obtain ⟨⟨v, mid⟩, hv, -⟩ := Option.bind_eq_some_iff.1 h
  obtain ⟨⟨k, mid⟩, hk, hv⟩ := Option.bind_eq_some_iff.1 hv
  have hk := unsigned_eq hk
  dsimp only at hv
  split at hv
  · omega
  · cases hv

namespace Sections

variable {s s' : Sections} {id : UInt8} {body rest : Bytes} {limit : Nat}

/-- A section that is taken in has a size that fits in 32 bits. -/
theorem addAll_section (h : addAll limit s (encodeSection id body ++ rest) = some s') :
    body.length < UInt32.size ∧
      ∃ mid limit', s.add id body = some mid ∧ addAll limit' mid rest = some s' := by
  cases limit with
  | zero => cases h
  | succ limit =>
    rw [encodeSection, List.cons_append, List.append_assoc] at h
    change ((Decoder.index (Leb128.unsigned body.length ++ (body ++ rest))).bind fun p =>
      (Decoder.take p.1 p.2).bind fun q => (s.add id q.1).bind fun mid => addAll limit mid q.2) = _
      at h
    obtain ⟨p, hp, -⟩ := Option.bind_eq_some_iff.1 h
    have hsize := Decoder.lt_of_index hp
    rw [Decoder.index_decodes hsize, Option.bind_some, Decoder.take_decodes body,
      Option.bind_some] at h
    obtain ⟨mid, hmid, h⟩ := Option.bind_eq_some_iff.1 h
    exact ⟨hsize, mid, limit, hmid, h⟩

theorem addAll_optionalSection {wanted : Bool}
    (h : addAll limit s (Trampoline.optionalSection wanted id body ++ rest) = some s') :
    (wanted = true → body.length < UInt32.size) ∧
      ∃ mid limit', addAll limit' mid rest = some s' := by
  cases wanted with
  | false => exact ⟨nofun, s, limit, h⟩
  | true =>
    obtain ⟨hsize, mid, limit', -, h⟩ := addAll_section h
    exact ⟨fun _ => hsize, mid, limit', h⟩

end Sections

/-! ## Trampolines -/

namespace Trampoline

variable {t : Trampoline} {bytes : Bytes} {m : Module}

/-- A trampoline has sections that fit if its binary is decoded at all. -/
theorem fits_of_decode? (hencode : t.encode = some bytes) (h : Module.decode? bytes = some m) :
    t.Fits := by
  rw [encode] at hencode
  split at hencode
  · cases hencode
  cases hencode
  simp only [List.append_assoc] at h
  rw [Module.decode?, if_pos List.take_left, List.drop_left] at h
  obtain ⟨s, h, -⟩ := Option.bind_eq_some_iff.1 h
  obtain ⟨htypes, s₁, limit₁, h⟩ := Sections.addAll_optionalSection h
  obtain ⟨himports, s₂, limit₂, h⟩ := Sections.addAll_optionalSection h
  obtain ⟨hfunctions, s₃, limit₃, h⟩ := Sections.addAll_optionalSection h
  obtain ⟨hmemory, s₄, limit₄, h⟩ := Sections.addAll_optionalSection h
  obtain ⟨hexports, s₅, limit₅, -, h⟩ := Sections.addAll_section h
  rw [← List.append_nil (optionalSection _ _ _)] at h
  obtain ⟨hbodies, -⟩ := Sections.addAll_optionalSection h
  -- A section that is left out is one of an empty list.
  have hempty {α : Type} (item : α → Bytes) : (vector item []).length < UInt32.size := by
    rw [vector, List.length_nil, unsigned_of_lt (by decide), List.flatMap_nil]
    decide
  by_cases hfuncs : t.funcs = []
  · refine ⟨?_, ?_, ?_, ?_, hexports, ?_⟩
    · rw [types, hfuncs]; exact hempty _
    · rw [imports, hfuncs]; exact hempty _
    · rw [functions, hfuncs]; exact hempty _
    · cases hm : t.memory with
      | none => exact hempty _
      | some m => exact hm ▸ hmemory (by rw [hm]; rfl)
    · rw [bodies, hfuncs]; exact hempty _
  · have hwanted : (!t.funcs.isEmpty) = true := by simpa using hfuncs
    refine ⟨htypes hwanted, himports hwanted, hfunctions hwanted, ?_, hexports, hbodies hwanted⟩
    cases hm : t.memory with
    | none => exact hempty _
    | some m => exact hm ▸ hmemory (by rw [hm]; rfl)

/-- Where the binary of a trampoline is decoded, it is decoded to what the trampoline stands for. -/
theorem eq_meaning_of_decode? (hnumeric : t.Numeric) (hencode : t.encode = some bytes)
    (h : Module.decode? bytes = some m) : t.Fits ∧ m = t.meaning := by
  have hfits := fits_of_decode? hencode h
  have hwanted : t.funcs ≠ [] ∨ t.memory.isSome := by
    rw [encode] at hencode
    split at hencode
    · cases hencode
    · rename_i hsome
      by_cases hfuncs : t.funcs = []
      · right
        simpa [hfuncs, Option.isSome_iff_ne_none] using hsome
      · exact .inl hfuncs
  obtain ⟨bytes', hencode', hdecode⟩ := decode?_encode hwanted hnumeric hfits
  cases hencode.symm.trans hencode'
  exact ⟨hfits, Option.some.inj (h.symm.trans hdecode)⟩

end Trampoline

/-! ## What the interpreter makes of trampolines -/

/-- The interpreter compiles what is decoded and valid. -/
theorem compile?_eq_some_iff {pageLimit : Nat} {bytes : Bytes} {m : Module} :
    Machine.compile? pageLimit bytes = some m ↔
      Module.decode? bytes = some m ∧ m.valid pageLimit = true := by
  change (Module.decode? bytes).bind (fun m => if m.valid pageLimit then some m else none) = _ ↔ _
  constructor
  · intro h
    obtain ⟨m', hdecode, hvalid⟩ := Option.bind_eq_some_iff.1 h
    split at hvalid
    · rename_i hm
      cases hvalid
      exact ⟨hdecode, hm⟩
    · cases hvalid
  · rintro ⟨hdecode, hvalid⟩
    rw [hdecode, Option.bind_some, if_pos hvalid]

/-- Reading locals one after the other leaves them on the stack, the last one on top. -/
theorem Silent.localGets (m : Module) (closing : Option Closing) (v : Scope) (code : List Instr)
    (stack : List UInt64) {ps : List UInt32} {locals words : List UInt64}
    (h : List.Forall₂ (fun p word => locals[p.toNat]? = some word) ps words) :
    Silent m closing v (Activation.mk locals (ps.map Instr.localGet ++ code) stack)
      (Activation.mk locals code (words.reverse ++ stack)) := by
  induction h generalizing stack with
  | nil => exact .refl _
  | @cons p word ps words hp _ ih =>
    have hget : Machine.step m closing v
        (Activation.mk locals ((p :: ps).map Instr.localGet ++ code) stack) =
        .ran v (Activation.mk locals (ps.map Instr.localGet ++ code) (word :: stack)) := by
      change Move.ran v (Activation.goOn _ ((locals[p.toNat]?).getD 0 :: stack)) = _
      rw [hp]
      rfl
    rw [List.reverse_cons, List.append_assoc]
    exact .step hget (ih _)

/-- The interpreter reads the arguments of a forwarded call, which are clipped to their types, and
passes them to the import. -/
instance interpreter_runsTrampolines : Machine.RunsTrampolines where
  accepts {t bytes pageLimit m} hnumeric hencode hcompile := by
    obtain ⟨hdecode, hvalid⟩ := compile?_eq_some_iff.1 hcompile
    obtain ⟨hfits, rfl⟩ := t.eq_meaning_of_decode? hnumeric hencode hdecode
    exact ⟨hfits, ((Trampoline.valid_meaning_iff hfits).1 hvalid).2, rfl⟩
  forwards {t i f} hfits hf htype closing v hi lo := by
    have hi' := (List.getElem?_eq_some_iff.1 hf).1
    have hcount := hfits.funcs_lt
    have hindex : i.toUInt32.toNat = i := UInt32.toNat_ofNat_of_lt (by omega)
    let words : List UInt64 := [hi.toUInt32.toUInt64, lo.toUInt32.toUInt64]
    have hwords : List.zipWith ValType.clip f.type.params [hi, lo] = words := by
      rw [htype]
      rfl
    have henter := Trampoline.start?_meaning hfits hf [hi, lo]
    rw [hwords, Trampoline.forwarder, htype] at henter
    have hcount' : words.length < UInt32.size := show 2 < UInt32.size by decide
    have hgets := Silent.localGets t.meaning closing v [.call i.toUInt32] []
      (Trampoline.forall₂_firstLocals hcount')
    have hcall : Machine.step t.meaning closing v
        (Activation.mk words [.call i.toUInt32] words.reverse) =
        .call i words (Activation.mk words [] []) := by
      change runInstr t.meaning v _ (.call i.toUInt32) = _
      rw [runInstr, hindex, Trampoline.funcType?_import hfits hf, htype]
      rfl
    refine ⟨_, _, _, _, words, [], henter, hgets, hcall, ?_, .refl _, rfl⟩
    simp only [words, signalOf?, UInt32.toUInt32_toUInt64]

end GuestThreads.Wasm
