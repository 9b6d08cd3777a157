import GuestThreads.Proofs.Layout

/-!
# Regions beyond the end of addresses

The end of a region is computed in 64 bits. For an index so large that the address does not fit, the
computation wraps around and starts again at low addresses. Up to there a region is handed out if
and only if it is among those that fit, and regions lie apart. Beyond, an index stands for the same
addresses as the one that lies a whole cycle before it.
-/

namespace GuestThreads

/-- The address belongs to the region. -/
def Region.Covers (r : Region) (address : Nat) : Prop :=
  r.base.toNat ≤ address ∧ address < r.finish.toNat

/-- The regions share no address. -/
def Region.Disjoint (r s : Region) : Prop := ∀ address, r.Covers address → ¬s.Covers address

namespace Layout

variable {l : Layout} {i j : Nat} {memSize : UInt32}

/-- There is a region of this number. -/
def Succeeds (l : Layout) (i : Nat) (memSize : UInt32) : Prop := ∃ r, l.region i memSize = .ok r

/-- The end of region `i` is too large an address, and what is left of it is inside the memory. -/
def Wraps (l : Layout) (i : Nat) (memSize : UInt32) : Prop :=
  UInt64.size ≤ l.start (i + 1) ∧ l.start (i + 1) % UInt64.size ≤ memSize.toNat

/-! ## What the computation gives -/

theorem Made.finish_toNat (h : l.Made) (i : Nat) :
    (l.base + i.toUInt64 * l.stride + l.stride).toNat = l.start (i + 1) % UInt64.size := by
  have hindex : i.toUInt64.toNat = i % UInt64.size := rfl
  have hoffset : (i.toUInt64 * l.stride).toNat = i * l.span % UInt64.size := by
    rw [UInt64.toNat_mul, hindex, h.stride_toNat]
    exact Nat.mod_mul_mod i l.span UInt64.size
  have hbase : (l.base + i.toUInt64 * l.stride).toNat = l.start i % UInt64.size := by
    rw [UInt64.toNat_add, hoffset]
    exact Nat.add_mod_mod l.base.toNat (i * l.span) UInt64.size
  rw [UInt64.toNat_add, hbase, h.stride_toNat, start_succ]
  exact Nat.mod_add_mod (l.start i) UInt64.size l.span

theorem succeeds_iff :
    l.Succeeds i memSize ↔ ¬memSize.toUInt64 < l.base + i.toUInt64 * l.stride + l.stride := by
  unfold Succeeds region
  rw [if_neg (by omega), Int.toNat_natCast]
  dsimp only
  split <;> simp_all

theorem Made.succeeds_iff_mod (h : l.Made) :
    l.Succeeds i memSize ↔ l.start (i + 1) % UInt64.size ≤ memSize.toNat := by
  rw [succeeds_iff, UInt64.lt_iff_toNat_lt, UInt32.toNat_toUInt64, h.finish_toNat, Nat.not_lt]

/-- A region is handed out if it is among those that fit, or if its address wraps around. -/
theorem Made.succeeds_iff_lt_capacity_or_wraps (h : l.Made) :
    l.Succeeds i memSize ↔ i < l.capacity memSize ∨ l.Wraps i memSize := by
  have hmem := memSize.toNat_lt
  rw [h.succeeds_iff_mod, h.lt_capacity_iff, Wraps]
  by_cases hwide : UInt64.size ≤ l.start (i + 1)
  · have hbeyond : memSize.toNat < l.start (i + 1) := by
      unfold UInt64.size at hwide
      omega
    simp [hwide, Nat.not_le.2 hbeyond]
  · rw [Nat.mod_eq_of_lt (by omega)]
    simp [hwide]

/-! ## Regions that lie apart -/

theorem Placed.disjoint {r s : Region} (hr : l.Placed i r) (hs : l.Placed j s) (hij : i ≠ j) :
    r.Disjoint s := by
  rintro address ⟨hlow, hhigh⟩ ⟨hlow', hhigh'⟩
  rcases Nat.lt_or_gt_of_ne hij with hlt | hlt
  · have hle := UInt32.le_iff_toNat_le.1 (hr.finish_le hs hlt)
    omega
  · have hle := UInt32.le_iff_toNat_le.1 (hs.finish_le hr hlt)
    omega

theorem Made.placed (h : l.Made) {r : Region} (hr : l.region i memSize = .ok r)
    (hexact : ¬l.Wraps i memSize) : l.Placed i r := by
  have hfits : i < l.capacity memSize :=
    (h.succeeds_iff_lt_capacity_or_wraps.1 ⟨r, hr⟩).resolve_right hexact
  obtain ⟨r', hr', hplaced⟩ := h.region_ok (h.lt_capacity_iff.1 hfits)
  cases hr.symm.trans hr'
  exact hplaced

/-! ## The cycle -/

/-- After this many regions the addresses have wrapped around to where they were. -/
def cycle : Nat := UInt64.size / 16

/-- Regions are aligned, so a whole cycle of them adds nothing in 64 bits. -/
theorem Made.cycle_offset (h : l.Made) (i : Nat) :
    (i + cycle).toUInt64 * l.stride = i.toUInt64 * l.stride := by
  obtain ⟨n, hn⟩ : 16 ∣ l.span := Nat.dvd_add h.stackSize_dvd h.tlsSize_dvd
  have hindex (i : Nat) : i.toUInt64.toNat = i % UInt64.size := rfl
  have hwrap : (i + cycle) * l.span = i * l.span + UInt64.size * n := by
    rw [Nat.add_mul, hn, ← Nat.mul_assoc cycle]
    rfl
  apply UInt64.toNat_inj.1
  rw [UInt64.toNat_mul, UInt64.toNat_mul, hindex, hindex, h.stride_toNat]
  change (i + cycle) % UInt64.size * l.span % UInt64.size = i % UInt64.size * l.span % UInt64.size
  rw [Nat.mod_mul_mod, Nat.mod_mul_mod, hwrap, Nat.add_mul_mod_self_left]

/-- A cycle later there is the same region again. -/
theorem Made.region_cycle (h : l.Made) {r : Region} (hr : l.region i memSize = .ok r) :
    l.region (i + cycle : Nat) memSize = .ok { r with index := i + cycle } := by
  unfold region at hr ⊢
  rw [if_neg (by omega), Int.toNat_natCast] at hr ⊢
  dsimp only at hr ⊢
  rw [h.cycle_offset]
  split at hr
  · cases hr
  · cases hr
    rw [if_neg ‹_›]

/-- Regions agree with the capacity and lie apart, as long as no address wraps around. Where one
region fits, however, some address does: the region of a number that is a cycle larger is the same
once more. -/
theorem region_agrees_unless_wrapped {l : Layout} {base stackSize tlsSize memSize : UInt32}
    (hstack : 1 ≤ stackSize) (hl : l = ofSizes base stackSize tlsSize) :
    (∀ i, l.Succeeds i memSize ↔ i < l.capacity memSize ∨ l.Wraps i memSize) ∧
      (∀ i j r s, i ≠ j → l.region (i : Nat) memSize = .ok r → l.region (j : Nat) memSize = .ok s →
        ¬l.Wraps i memSize → ¬l.Wraps j memSize → r.Disjoint s) ∧
      ∀ i r, l.region (i : Nat) memSize = .ok r →
        l.region (i + cycle : Nat) memSize = .ok { r with index := i + cycle } := by
  have hne : stackSize ≠ 0 := by
    rintro rfl
    exact absurd hstack (by decide)
  have hmade : l.Made := hl ▸ (ofSizes_rounds base stackSize tlsSize).made hne
  refine ⟨fun i => hmade.succeeds_iff_lt_capacity_or_wraps, ?_, fun i r hr => hmade.region_cycle hr⟩
  intro i j r s hij hr hs hexact hexact'
  exact (hmade.placed hr hexact).disjoint (hmade.placed hs hexact') hij

/-- One page without a base takes 4096 regions of sixteen bytes. -/
theorem region_agrees_in_one_page :
    let l := ofSizes 0 16 0
    (1 : UInt32) ≤ 16 ∧ l.capacity 65536 = 4096 ∧
      ∀ i, l.Succeeds i 65536 ↔ i < l.capacity 65536 ∨ l.Wraps i 65536 := by
  intro l
  exact ⟨by decide, by decide, (region_agrees_unless_wrapped (by decide) rfl).1⟩

/-- Only 4096 regions fit. There are regions of far larger numbers all the same, and one of them is
the first one once more. -/
theorem region_beyond_capacity :
    let l := ofSizes 0 16 0
    (l.Succeeds cycle 65536 ∧ ¬cycle < l.capacity 65536) ∧
      ∃ r s, l.region (0 : Nat) 65536 = .ok r ∧ l.region cycle 65536 = .ok s ∧ ¬r.Disjoint s := by
  intro l
  have hmade : l.Made := (ofSizes_rounds 0 16 0).made (by decide)
  have hfirst : l.region (0 : Nat) 65536 = .ok ⟨0, 0, 16, 16, 16⟩ := rfl
  have hagain := hmade.region_cycle hfirst
  rw [Nat.zero_add] at hagain
  refine ⟨⟨⟨_, hagain⟩, by decide⟩, _, _, hfirst, hagain, ?_⟩
  intro hdisjoint
  exact hdisjoint 0 ⟨by decide, by decide⟩ ⟨by decide, by decide⟩

end Layout

end GuestThreads
