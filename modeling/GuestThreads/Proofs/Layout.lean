import GuestThreads.Layout

/-!
# Where thread regions lie

The addresses of a layout as plain numbers. As long as a region starts within four gigabytes, the
64-bit computations on it give just these numbers, it is handed out if and only if it is among those
that fit, and its fields are not cut off by their 32 bits.
-/

namespace GuestThreads

namespace Layout

/-- The next multiple of sixteen. -/
def roundUp (n : Nat) : Nat := (n + 15) / 16 * 16

theorem le_roundUp (n : Nat) : n ≤ roundUp n := by
  unfold roundUp
  omega

theorem dvd_roundUp (n : Nat) : 16 ∣ roundUp n := Nat.dvd_mul_left 16 _

/-- What `UInt32` can address. -/
def addressable : Nat := 4294967296

theorem roundUp_le {n : Nat} (h : n < addressable) : roundUp n ≤ addressable := by
  unfold roundUp addressable at *
  omega

/-- Rounding up a 32-bit size does not wrap in 64 bits. -/
theorem alignUp_toNat (v : UInt32) :
    (v.toUInt64 + (alignment - 1)).toNat = v.toNat + 15 ∧
      (alignUp v.toUInt64).toNat = roundUp v.toNat := by
  have hv := v.toNat_lt
  have hsum : (v.toUInt64 + (alignment - 1)).toNat = v.toNat + 15 := by
    rw [UInt64.toNat_add, UInt32.toNat_toUInt64, show (alignment - 1).toNat = 15 from rfl]
    omega
  refine ⟨hsum, ?_⟩
  rw [alignUp, UInt64.toNat_mul, UInt64.toNat_div, hsum, show alignment.toNat = 16 from rfl,
    roundUp]
  omega

/-- The size of a region as a plain number. -/
def span (l : Layout) : Nat := l.stackSize.toNat + l.tlsSize.toNat

/-- The address of region `i` as a plain number. -/
def start (l : Layout) (i : Nat) : Nat := l.base.toNat + i * l.span

theorem start_succ (l : Layout) (i : Nat) : l.start (i + 1) = l.start i + l.span := by
  unfold start
  rw [Nat.succ_mul]
  omega

theorem start_mono (l : Layout) {i j : Nat} (h : i ≤ j) : l.start i ≤ l.start j :=
  Nat.add_le_add_left (Nat.mul_le_mul_right _ h) _

/-- A layout as it is made from 32-bit sizes, of which the first is not zero. -/
structure Made (l : Layout) : Prop where
  base_le : l.base.toNat ≤ addressable
  stackSize_le : l.stackSize.toNat ≤ addressable
  tlsSize_le : l.tlsSize.toNat ≤ addressable
  stackSize_pos : 0 < l.stackSize.toNat
  base_dvd : 16 ∣ l.base.toNat
  stackSize_dvd : 16 ∣ l.stackSize.toNat
  tlsSize_dvd : 16 ∣ l.tlsSize.toNat

/-- The sizes of a layout are the given ones, rounded up. -/
structure Rounds (l : Layout) (base stackSize tlsSize : UInt32) : Prop where
  base : l.base.toNat = roundUp base.toNat
  stackSize : l.stackSize.toNat = roundUp stackSize.toNat
  tlsSize : l.tlsSize.toNat = roundUp tlsSize.toNat

theorem ofSizes_rounds (base stackSize tlsSize : UInt32) :
    (ofSizes base stackSize tlsSize).Rounds base stackSize tlsSize :=
  ⟨(alignUp_toNat base).2, (alignUp_toNat stackSize).2, (alignUp_toNat tlsSize).2⟩

theorem Rounds.made {l : Layout} {base stackSize tlsSize : UInt32}
    (h : l.Rounds base stackSize tlsSize) (hstack : stackSize ≠ 0) : l.Made where
  base_le := h.base ▸ roundUp_le base.toNat_lt
  stackSize_le := h.stackSize ▸ roundUp_le stackSize.toNat_lt
  tlsSize_le := h.tlsSize ▸ roundUp_le tlsSize.toNat_lt
  stackSize_pos := by
    have hpos : stackSize.toNat ≠ 0 := fun hzero => hstack (UInt32.toNat_inj.1 hzero)
    have hle := le_roundUp stackSize.toNat
    rw [h.stackSize]
    omega
  base_dvd := h.base ▸ dvd_roundUp _
  stackSize_dvd := h.stackSize ▸ dvd_roundUp _
  tlsSize_dvd := h.tlsSize ▸ dvd_roundUp _

variable {l : Layout} {i : Nat} {memSize : UInt32}

theorem Made.span_pos (h : l.Made) : 0 < l.span := by
  have := h.stackSize_pos
  unfold span
  omega

/-- Every 64-bit computation on the way to region `i` gives the number it stands for. -/
structure Exact (l : Layout) (i : Nat) : Prop where
  stride : l.stride.toNat = l.span
  index : i.toUInt64.toNat = i
  offset : (i.toUInt64 * l.stride).toNat = i * l.span
  base : (l.base + i.toUInt64 * l.stride).toNat = l.start i
  stackTop : (l.base + i.toUInt64 * l.stride + l.stackSize).toNat = l.start i + l.stackSize.toNat
  finish : (l.base + i.toUInt64 * l.stride + l.stride).toNat = l.start (i + 1)

theorem Made.stride_toNat (h : l.Made) : l.stride.toNat = l.span := by
  have := h.stackSize_le
  have := h.tlsSize_le
  rw [stride, UInt64.toNat_add, span]
  unfold addressable at *
  omega

theorem Made.exact (h : l.Made) (hi : l.start i ≤ addressable) : l.Exact i := by
  have hspan := h.span_pos
  have hstack := h.stackSize_le
  have htls := h.tlsSize_le
  have hle : i ≤ i * l.span := Nat.le_mul_of_pos_right i hspan
  have hspan_eq : l.span = l.stackSize.toNat + l.tlsSize.toNat := rfl
  have hstart : l.start i = l.base.toNat + i * l.span := rfl
  unfold addressable at *
  have hindex : i.toUInt64.toNat = i := UInt64.toNat_ofNat_of_lt (by unfold UInt64.size; omega)
  have hoffset : (i.toUInt64 * l.stride).toNat = i * l.span := by
    rw [UInt64.toNat_mul, hindex, h.stride_toNat]
    omega
  have hbase : (l.base + i.toUInt64 * l.stride).toNat = l.start i := by
    rw [UInt64.toNat_add, hoffset]
    omega
  refine ⟨h.stride_toNat, hindex, hoffset, hbase, ?_, ?_⟩
  · rw [UInt64.toNat_add, hbase]
    omega
  · rw [UInt64.toNat_add, hbase, h.stride_toNat, start_succ]
    omega

/-- The regions that fit are those that end inside the memory. -/
theorem Made.lt_capacity_iff (h : l.Made) :
    i < l.capacity memSize ↔ l.start (i + 1) ≤ memSize.toNat := by
  have hspan := h.span_pos
  have hstride := h.stride_toNat
  have hne : l.stride ≠ 0 := by
    intro hzero
    rw [hzero] at hstride
    exact Nat.ne_of_lt hspan hstride
  have hstart : l.start (i + 1) = l.base.toNat + (i + 1) * l.span := rfl
  have hpos : 0 < (i + 1) * l.span := Nat.mul_pos (Nat.succ_pos i) hspan
  unfold capacity
  by_cases hbase : memSize.toUInt64 < l.base
  · have hlt : memSize.toNat < l.base.toNat := by
      have := UInt64.lt_iff_toNat_lt.1 hbase
      rwa [UInt32.toNat_toUInt64] at this
    rw [if_pos (.inr hbase)]
    omega
  · have hle : l.base.toNat ≤ memSize.toNat := by
      have := UInt64.le_iff_toNat_le.1 (UInt64.not_lt.1 hbase)
      rwa [UInt32.toNat_toUInt64] at this
    have hroom : (memSize.toUInt64 - l.base).toNat = memSize.toNat - l.base.toNat := by
      rw [UInt64.toNat_sub_of_le _ _ (UInt64.not_lt.1 hbase), UInt32.toNat_toUInt64]
    rw [if_neg (not_or.2 ⟨hne, hbase⟩), UInt64.toNat_div, hroom, hstride, ← Nat.add_one_le_iff,
      Nat.le_div_iff_mul_le hspan]
    omega

/-- A region lies where its number says, with the stack below the thread-local block. -/
structure Placed (l : Layout) (i : Nat) (r : Region) : Prop where
  index : r.index = i
  base : r.base.toNat = l.start i
  stackPtr : r.stackPtr.toNat = l.start i + l.stackSize.toNat
  tlsPtr : r.tlsPtr = r.stackPtr
  finish : r.finish.toNat = l.start (i + 1)

/-- A region that ends inside the memory is handed out, and none of its fields is cut off. -/
theorem Made.region_ok (h : l.Made) (hfits : l.start (i + 1) ≤ memSize.toNat) :
    ∃ r, l.region i memSize = .ok r ∧ l.Placed i r := by
  have hmem := memSize.toNat_lt
  have hsucc := l.start_succ i
  have hspan : l.span = l.stackSize.toNat + l.tlsSize.toNat := rfl
  have hexact := h.exact (i := i) (by unfold addressable; omega)
  have hinside : ¬memSize.toUInt64 < l.base + i.toUInt64 * l.stride + l.stride := by
    rw [UInt64.lt_iff_toNat_lt, UInt32.toNat_toUInt64, hexact.finish]
    omega
  have hcut {v : UInt64} {n : Nat} (hv : v.toNat = n) (hn : n ≤ memSize.toNat) :
      v.toUInt32.toNat = n := by
    rw [UInt64.toNat_toUInt32, hv]
    omega
  let base := l.base + i.toUInt64 * l.stride
  let r : Region := {
    index := i, base := base.toUInt32, stackPtr := (base + l.stackSize).toUInt32
    tlsPtr := (base + l.stackSize).toUInt32, finish := (base + l.stride).toUInt32 }
  refine ⟨r, ?_, rfl, hcut hexact.base (by omega), hcut hexact.stackTop (by omega), rfl,
    hcut hexact.finish hfits⟩
  rw [region, if_neg (by omega), Int.toNat_natCast]
  exact if_neg hinside

/-- A region that does not end inside the memory is refused. -/
theorem Made.region_error (h : l.Made) (hi : l.start i ≤ addressable)
    (hfull : memSize.toNat < l.start (i + 1)) : ∃ refusal, l.region i memSize = .error refusal := by
  have hexact := h.exact hi
  have houtside : memSize.toUInt64 < l.base + i.toUInt64 * l.stride + l.stride := by
    rw [UInt64.lt_iff_toNat_lt, UInt32.toNat_toUInt64, hexact.finish]
    exact hfull
  refine ⟨.outOfBounds (l.base + i.toUInt64 * l.stride) l.stride memSize.toUInt64, ?_⟩
  rw [region, if_neg (by omega), Int.toNat_natCast]
  exact if_pos houtside

/-- The next region is handed out if it is among those that fit. -/
theorem Made.reserve_ok (h : l.Made) (hroom : i < l.capacity memSize) :
    ∃ r, reserve { l with next := i } memSize = .ok (r, { l with next := i + 1 }) ∧ l.Placed i r ∧
      r.finish ≤ memSize := by
  have hfits := h.lt_capacity_iff.1 hroom
  obtain ⟨r, hregion, hplaced⟩ := h.region_ok hfits
  refine ⟨r, ?_, hplaced, ?_⟩
  · change (l.region i memSize >>= fun r => _) = _
    rw [hregion]
    rfl
  · rw [UInt32.le_iff_toNat_le, hplaced.finish]
    exact hfits

theorem Made.reserve_error (h : l.Made) (hi : l.start i ≤ addressable)
    (hfull : ¬i < l.capacity memSize) :
    ∃ refusal, reserve { l with next := i } memSize = .error refusal := by
  rw [h.lt_capacity_iff, Nat.not_le] at hfull
  obtain ⟨refusal, hregion⟩ := h.region_error hi hfull
  refine ⟨refusal, ?_⟩
  change (l.region i memSize >>= fun r => _) = _
  rw [hregion]
  rfl

/-! ## What threads may rely on -/

/-- A region is aligned, and large enough for a stack and a thread-local block of the given
sizes. -/
structure Roomy (stackSize tlsSize : UInt32) (r : Region) : Prop where
  base_dvd : 16 ∣ r.base.toNat
  stackPtr_dvd : 16 ∣ r.stackPtr.toNat
  tlsPtr_dvd : 16 ∣ r.tlsPtr.toNat
  finish_dvd : 16 ∣ r.finish.toNat
  tlsPtr_eq : r.tlsPtr = r.stackPtr
  stack : r.base.toNat + stackSize.toNat ≤ r.stackPtr.toNat
  tls : r.tlsPtr.toNat + tlsSize.toNat ≤ r.finish.toNat

theorem Made.start_dvd (h : l.Made) (i : Nat) : 16 ∣ l.start i :=
  Nat.dvd_add h.base_dvd (Nat.dvd_mul_left_of_dvd (Nat.dvd_add h.stackSize_dvd h.tlsSize_dvd) i)

theorem Placed.roomy {r : Region} {base stackSize tlsSize : UInt32} (hr : l.Placed i r)
    (h : l.Made) (hrounds : l.Rounds base stackSize tlsSize) : Roomy stackSize tlsSize r := by
  have htop : 16 ∣ r.stackPtr.toNat := hr.stackPtr ▸ Nat.dvd_add (h.start_dvd i) h.stackSize_dvd
  refine ⟨hr.base ▸ h.start_dvd i, htop, hr.tlsPtr ▸ htop, hr.finish ▸ h.start_dvd (i + 1),
    hr.tlsPtr, ?_, ?_⟩
  · have hle := le_roundUp stackSize.toNat
    rw [hr.base, hr.stackPtr, hrounds.stackSize]
    omega
  · have hle := le_roundUp tlsSize.toNat
    have hspan : l.span = l.stackSize.toNat + l.tlsSize.toNat := rfl
    rw [hr.tlsPtr, hr.stackPtr, hr.finish, start_succ, hspan, hrounds.tlsSize]
    omega

/-- Of two regions the one with the higher number lies above the other. -/
theorem Placed.finish_le {r s : Region} {j : Nat} (hr : l.Placed i r) (hs : l.Placed j s)
    (hij : i < j) : r.finish ≤ s.base := by
  rw [UInt32.le_iff_toNat_le, hr.finish, hs.base]
  exact l.start_mono hij

end Layout

end GuestThreads
