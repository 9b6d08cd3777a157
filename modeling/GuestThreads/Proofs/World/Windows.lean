import GuestThreads.Proofs.MemoryView
import GuestThreads.Proofs.World.Sharing
import GuestThreads.Wasm.Assembly

/-!
# Windows onto memory

A linear memory is read and written from outside through a shared memory, an instance, a bridge or a
loaded module. An access succeeds just if it lies inside the memory as it is then, and what is
written through one window is read through every other.
-/

namespace GuestThreads.World

/-- What a memory is looked at through. -/
inductive Window where
  /-- A shared memory, as it is or raw, or an instance. -/
  | view (view : View)
  | bridge (k : Nat)
  | module (k : Nat)

namespace Window

/-- The linear memory behind a window, by its number in the store. -/
def linear? (w : World) : Window → Option Nat
  | view v => v.linear? w
  | bridge k => w.bridgeMemory? k
  | module k => (w.modules[k]?).bind fun m => View.linear? w (.memory m.memory)

def memory? (w : World) (x : Window) : Option Wasm.Memory :=
  (x.linear? w).bind (w.store.memories[·]?)

/-- A window onto shared memory `id`. A bridge shows it while the bridge is open and the instance
behind it as well. -/
def Shows (w : World) (id : Nat) : Window → Prop
  | view v => v.Shows w id
  | bridge k => ∃ (b : BridgeEntry) (i : Nat), w.bridges[k]? = some b ∧ b.bridge.closed = false ∧
      b.guest = .live i ∧ View.Shows w id (.instance i)
  | module k => ∃ m : LoadedModule, w.modules[k]? = some m ∧ m.memory = id

/-- What is read or written. -/
inductive Datum where
  | bytes (bs : Bytes)
  | word (v : UInt32)
  | long (v : UInt64)
deriving DecidableEq

/-- What to read. -/
inductive Kind where
  | bytes (length : UInt32)
  | word
  | long

def Kind.width : Kind → Nat
  | bytes length => length.toNat
  | word => 4
  | long => 8

def Datum.kind : Datum → Kind
  | bytes bs => .bytes bs.length.toUInt32
  | word _ => .word
  | long _ => .long

def Datum.encoding : Datum → Bytes
  | bytes bs => bs
  | word v => Bytes.littleEndian 4 v.toNat
  | long v => Bytes.littleEndian 8 v.toNat

def fetch (x : Window) (offset : UInt32) : Kind → Try Datum
  | .bytes length => do
    return .bytes (← liftExcept (MemoryView.read (x.memory? (← get)) offset length))
  | .word => do return .word (← liftExcept (MemoryView.readU32 (x.memory? (← get)) offset))
  | .long => do return .long (← liftExcept (MemoryView.readU64 (x.memory? (← get)) offset))

def put (x : Window) (offset : UInt32) : Datum → Try Unit
  | .bytes bs => do alterMemory (x.linear? (← get)) (MemoryView.write · offset bs)
  | .word v => do alterMemory (x.linear? (← get)) (MemoryView.writeU32 · offset v)
  | .long v => do alterMemory (x.linear? (← get)) (MemoryView.writeU64 · offset v)

/-! ## Reading -/

/-- The datum that bytes spell. -/
def Kind.decode (bs : Bytes) : Kind → Datum
  | bytes _ => .bytes bs
  | word => .word (Bytes.toNat bs).toUInt32
  | long => .long (Bytes.toNat bs).toUInt64

theorem Datum.decode_encoding (d : Datum) : d.kind.decode d.encoding = d := by
  cases d with
  | bytes bs => rfl
  | word v =>
    have hv : Bytes.toNat (Bytes.ofNat 4 v.toNat) = v.toNat := Bytes.toNat_ofUInt32 v
    simp [kind, Kind.decode, encoding, ← Bytes.ofNat_eq_littleEndian, hv]
  | long v =>
    have hv : Bytes.toNat (Bytes.ofNat 8 v.toNat) = v.toNat := Bytes.toNat_ofUInt64 v
    simp [kind, Kind.decode, encoding, ← Bytes.ofNat_eq_littleEndian, hv]

@[simp] theorem Datum.length_encoding_word (v : UInt32) : (word v).encoding.length = 4 := by
  simp [encoding, Bytes.littleEndian]

@[simp] theorem Datum.length_encoding_long (v : UInt64) : (long v).encoding.length = 8 := by
  simp [encoding, Bytes.littleEndian]

theorem Datum.width_kind {d : Datum} (h : d.encoding.length < 2 ^ 32) :
    d.kind.width = d.encoding.length := by
  cases d with
  | bytes bs => exact UInt32.toNat_ofNat_of_lt' h
  | word v => simp [kind, Kind.width]
  | long v => simp [kind, Kind.width]

theorem Datum.encoding_long (v : UInt64) :
    (long v).encoding = (word v.toUInt32).encoding ++ (word (v >>> 32).toUInt32).encoding := by
  simp only [encoding, ← Bytes.ofNat_eq_littleEndian]
  exact Bytes.ofUInt64_eq_halves v

theorem Kind.encoding_decode {kind : Kind} {bs : Bytes} (h : bs.length = kind.width) :
    (kind.decode bs).encoding = bs ∧ (kind.decode bs).kind = kind := by
  cases kind with
  | bytes length =>
    have hlength : bs.length.toUInt32 = length := by
      rw [h, width]
      simp
    exact ⟨rfl, congrArg Kind.bytes hlength⟩
  | word =>
    refine ⟨?_, rfl⟩
    have hlt : Bytes.toNat bs < 2 ^ 32 := by simpa [h, width] using Bytes.toNat_lt bs
    rw [decode, Datum.encoding, Nat.toUInt32_eq, UInt32.toNat_ofNat_of_lt' hlt,
      ← Bytes.ofNat_eq_littleEndian]
    exact Bytes.ofNat_toNat h
  | long =>
    refine ⟨?_, rfl⟩
    have hlt : Bytes.toNat bs < 2 ^ 64 := by simpa [h, width] using Bytes.toNat_lt bs
    rw [decode, Datum.encoding, Nat.toUInt64_eq, UInt64.toNat_ofNat_of_lt' hlt,
      ← Bytes.ofNat_eq_littleEndian]
    exact Bytes.ofNat_toNat h

section

variable {w : World} {j : Nat} {m : Wasm.Memory} {x y : Window} {kind : Kind} {d : Datum}
  {offset : UInt32}

theorem memory?_eq (hx : x.linear? w = some j) (hm : w.store.memories[j]? = some m) :
    x.memory? w = some m := by
  rw [memory?, hx, Option.bind_some, hm]

theorem look_run {α : Type} (g : α → Datum) (r : World → Except Fault α) (w : World) :
    (do return g (← liftExcept (r (← get))) : Try Datum) w = ((r w).map g, w) := by
  rw [read_run, bind_run]
  cases r w <;> rfl

/-- What stands at an offset, if it lies inside the memory. -/
def found (m : Wasm.Memory) (offset : UInt32) (kind : Kind) : Except Fault Datum :=
  if offset.toNat + kind.width ≤ m.size then
    .ok (kind.decode (m.bytesAt offset.toNat kind.width))
  else .error (MemoryView.outOfBounds (some m) offset kind.width.toUInt32)

theorem fetch_run (hx : x.linear? w = some j) (hm : w.store.memories[j]? = some m) :
    x.fetch offset kind w = (found m offset kind, w) := by
  have hmemory := memory?_eq hx hm
  cases kind with
  | bytes length =>
    rw [fetch, look_run, hmemory, MemoryView.read_eq, found, Kind.width]
    split <;> simp [Except.map, Kind.decode]
  | word =>
    rw [fetch, look_run, hmemory, MemoryView.readU32_eq, found, Kind.width]
    split <;> rfl
  | long =>
    rw [fetch, look_run, hmemory, MemoryView.readU64_eq, found, Kind.width]
    split <;> rfl

/-! ## Writing -/

/-- A world with another linear memory in place of number `j`. -/
def replaced (w : World) (j : Nat) (m : Wasm.Memory) : World :=
  { w with store := w.store.setMemory j m }

theorem linear?_replaced (y : Window) : y.linear? (replaced w j m) = y.linear? w := by
  cases y with
  | view v => cases v <;> rfl
  | bridge k => rfl
  | module k => rfl

theorem memories_replaced_self (hm : w.store.memories[j]? = some m) (m' : Wasm.Memory) :
    (replaced w j m').store.memories[j]? = some m' :=
  Array.getElem?_setIfInBounds_self_of_lt (Array.getElem?_eq_some_iff.1 hm).1

theorem memories_replaced_ne {i : Nat} (h : i ≠ j) :
    (replaced w j m).store.memories[i]? = w.store.memories[i]? :=
  Array.getElem?_setIfInBounds_ne (Ne.symm h)

theorem replaced_replaced (m' : Wasm.Memory) :
    replaced (replaced w j m) j m' = replaced w j m' := by
  simp [replaced, Wasm.Store.setMemory]

theorem put_bytes_run (hx : x.linear? w = some j) (hm : w.store.memories[j]? = some m)
    (bs : Bytes) : x.put offset (.bytes bs) w =
      if offset.toNat + bs.length ≤ m.size then
        (.ok (), replaced w j (m.store offset.toNat bs))
      else (.error (MemoryView.outOfBounds (some m) offset bs.length.toUInt32), w) := by
  rw [put, read_run, alterMemory, read_run, bind_run, hx, Option.bind_some, hm, MemoryView.write_eq]
  by_cases h : offset.toNat + bs.length ≤ m.size
  · rw [if_pos h, if_pos h]
    rfl
  · rw [if_neg h, if_neg h]
    rfl

/-- Words are written as their bytes. -/
theorem put_encoding (x : Window) (offset : UInt32) (d : Datum) :
    x.put offset d = x.put offset (.bytes d.encoding) := by
  cases d with
  | bytes bs => rfl
  | word v => rw [Datum.encoding, ← Bytes.ofNat_eq_littleEndian]; rfl
  | long v => rw [Datum.encoding, ← Bytes.ofNat_eq_littleEndian]; rfl

theorem put_inside (hx : x.linear? w = some j) (hm : w.store.memories[j]? = some m)
    (h : offset.toNat + d.encoding.length ≤ m.size) :
    x.put offset d w = (.ok (), replaced w j (m.store offset.toNat d.encoding)) := by
  rw [put_encoding, put_bytes_run hx hm, if_pos h]

theorem put_outside (hx : x.linear? w = some j) (hm : w.store.memories[j]? = some m)
    (h : m.size < offset.toNat + d.encoding.length) :
    x.put offset d w =
      (.error (MemoryView.outOfBounds (some m) offset d.encoding.length.toUInt32), w) := by
  rw [put_encoding, put_bytes_run hx hm, if_neg (Nat.not_le.2 h)]

theorem put_ok_iff {w' : World} (hx : x.linear? w = some j) (hm : w.store.memories[j]? = some m) :
    x.put offset d w = (.ok (), w') ↔ offset.toNat + d.encoding.length ≤ m.size ∧
      w' = replaced w j (m.store offset.toNat d.encoding) := by
  constructor
  · intro hput
    rcases Nat.lt_or_ge m.size (offset.toNat + d.encoding.length) with h | h
    · rw [put_outside hx hm h] at hput
      cases hput
    · rw [put_inside hx hm h] at hput
      cases hput
      exact ⟨h, rfl⟩
  · rintro ⟨h, rfl⟩
    exact put_inside hx hm h

/-! ## Agreement -/

/-- In `w'` a datum stands at an offset of linear memory `j`, and all else is as it is in `w`. -/
structure Written (w w' : World) (j : Nat) (offset : UInt32) (d : Datum) : Prop where
  rest : w' = { w with store := { w.store with memories := w'.store.memories } }
  others : ∀ i, i ≠ j → w'.store.memories[i]? = w.store.memories[i]?
  windows : ∀ y : Window, y.linear? w' = y.linear? w
  size : ∀ y : Window, y.linear? w = some j →
    MemoryView.size (y.memory? w') = MemoryView.size (y.memory? w)
  /-- It is read back through every window onto the memory. -/
  back : ∀ y : Window, y.linear? w = some j → y.fetch offset d.kind w' = (.ok d, w')
  beside : ∀ (y : Window) (address : UInt32) (kind : Kind), y.linear? w = some j →
    address.toNat + kind.width ≤ offset.toNat ∨
      offset.toNat + d.encoding.length ≤ address.toNat →
    (y.fetch address kind w').1 = (y.fetch address kind w).1

theorem written_replaced (hm : w.store.memories[j]? = some m) (hsize : m.size < 2 ^ 32)
    (h : offset.toNat + d.encoding.length ≤ m.size) :
    Written w (replaced w j (m.store offset.toNat d.encoding)) j offset d := by
  have hm' := memories_replaced_self hm (m.store offset.toNat d.encoding)
  have hlinear {y : Window} (hy : y.linear? w = some j) :
      y.linear? (replaced w j (m.store offset.toNat d.encoding)) = some j :=
    (linear?_replaced y).trans hy
  constructor
  case rest => rfl
  case others => exact fun i hi => memories_replaced_ne hi
  case windows => exact linear?_replaced
  case size =>
    intro y hy
    rw [memory?_eq (hlinear hy) hm', memory?_eq hy hm]
    simp [MemoryView.size, Wasm.Memory.size32]
  case back =>
    intro y hy
    have hwidth : d.kind.width = d.encoding.length := Datum.width_kind (by omega)
    rw [fetch_run (hlinear hy) hm', found, hwidth, if_pos (by simpa using h),
      Wasm.Memory.bytesAt_store_self h, d.decode_encoding]
  case beside =>
    intro y address kind hy hbeside
    rw [fetch_run (hlinear hy) hm', fetch_run hy hm]
    simp [found, Wasm.Memory.bytesAt_store_beside hbeside, MemoryView.outOfBounds, MemoryView.size,
      Wasm.Memory.size32]

/-- In a memory below the largest size, the offset of the second half does not wrap around. -/
theorem put_long_iff {z : Window} {v : UInt64} {w' : World} (hm : w.store.memories[j]? = some m)
    (hsize : m.size < 2 ^ 32) (hx : x.linear? w = some j) (hy : y.linear? w = some j)
    (hz : z.linear? w = some j) :
    x.put offset (.long v) w = (.ok (), w') ↔
      ∃ w₁, y.put offset (.word v.toUInt32) w = (.ok (), w₁) ∧
        z.put (offset + 4) (.word (v >>> 32).toUInt32) w₁ = (.ok (), w') := by
  have hnext (h : offset.toNat + 4 ≤ m.size) : (offset + 4).toNat = offset.toNat + 4 := by
    rw [UInt32.toNat_add]
    exact Nat.mod_eq_of_lt (by simpa using Nat.lt_of_le_of_lt h hsize)
  have hsecond (m₁ : Wasm.Memory) {u : World} {d : Datum} :
      z.put (offset + 4) d (replaced w j m₁) = (.ok (), u) ↔
        (offset + 4).toNat + d.encoding.length ≤ m₁.size ∧
          u = replaced w j (m₁.store (offset + 4).toNat d.encoding) := by
    rw [put_ok_iff ((linear?_replaced z).trans hz) (memories_replaced_self hm m₁),
      replaced_replaced]
  rw [put_ok_iff hx hm, Datum.encoding_long, Wasm.Memory.store_append, List.length_append]
  simp only [Datum.length_encoding_word]
  constructor
  · rintro ⟨h, rfl⟩
    refine ⟨_, (put_ok_iff hy hm).2 ⟨by simp; omega, rfl⟩, (hsecond _).2 ⟨?_, ?_⟩⟩
    · rw [hnext (by omega)]
      simp
      omega
    · rw [hnext (by omega)]
  · rintro ⟨w₁, hfirst, hlast⟩
    obtain ⟨h, rfl⟩ := (put_ok_iff hy hm).1 hfirst
    obtain ⟨h', rfl⟩ := (hsecond _).1 hlast
    simp only [Datum.length_encoding_word, Wasm.Memory.size_store] at h h'
    rw [hnext h] at h' ⊢
    exact ⟨by omega, rfl⟩

/-- How windows onto linear memory `j` of a world work while it is `m`. -/
structure Checked (w : World) (j : Nat) (m : Wasm.Memory) : Prop where
  reads : ∀ (x : Window) (offset : UInt32) (kind : Kind), x.linear? w = some j →
    offset.toNat + kind.width ≤ m.size → ∃ d, x.fetch offset kind w = (.ok d, w) ∧ d.kind = kind ∧
      d.encoding = m.bytesAt offset.toNat kind.width
  reads_outside : ∀ (x : Window) (offset : UInt32) (kind : Kind), x.linear? w = some j →
    m.size < offset.toNat + kind.width →
    ∃ f, x.fetch offset kind w = (.error f, w) ∧ MemoryView.IsOutOfBounds f
  writes : ∀ (x : Window) (offset : UInt32) (d : Datum), x.linear? w = some j →
    offset.toNat + d.encoding.length ≤ m.size →
    ∃ w', x.put offset d w = (.ok (), w') ∧ Written w w' j offset d
  writes_outside : ∀ (x : Window) (offset : UInt32) (d : Datum), x.linear? w = some j →
    m.size < offset.toNat + d.encoding.length →
    ∃ f, x.put offset d w = (.error f, w) ∧ MemoryView.IsOutOfBounds f
  /-- Words can be written as bytes. -/
  encoded : ∀ (x : Window) (offset : UInt32) (d : Datum),
    x.put offset d w = x.put offset (.bytes d.encoding) w
  /-- Long words can be written as two words, whatever windows those are written through. -/
  halves : ∀ (x y z : Window) (offset : UInt32) (v : UInt64) (w' : World),
    x.linear? w = some j → y.linear? w = some j → z.linear? w = some j →
    (x.put offset (.long v) w = (.ok (), w') ↔
      ∃ w₁, y.put offset (.word v.toUInt32) w = (.ok (), w₁) ∧
        z.put (offset + 4) (.word (v >>> 32).toUInt32) w₁ = (.ok (), w'))

theorem checked (hm : w.store.memories[j]? = some m) (hsize : m.size < 2 ^ 32) :
    Checked w j m where
  reads x offset kind hx h := by
    have hlength : (m.bytesAt offset.toNat kind.width).length = kind.width := by
      simp [Wasm.Memory.bytesAt]
    obtain ⟨hencoding, hkind⟩ := Kind.encoding_decode hlength
    refine ⟨_, ?_, hkind, hencoding⟩
    rw [fetch_run hx hm, found, if_pos h]
  reads_outside x offset kind hx h := by
    refine ⟨_, ?_, MemoryView.isOutOfBounds (some m) offset kind.width.toUInt32⟩
    rw [fetch_run hx hm, found, if_neg (Nat.not_le.2 h)]
  writes x offset d hx h := ⟨_, put_inside hx hm h, written_replaced hm hsize h⟩
  writes_outside x offset d hx h := ⟨_, put_outside hx hm h, MemoryView.isOutOfBounds _ _ _⟩
  encoded x offset d := congrFun (put_encoding x offset d) w
  halves x y z offset v w' hx hy hz := put_long_iff hm hsize hx hy hz

/-- All windows onto a shared memory show one linear memory. -/
theorem Shows.linear?_eq [Wasm.Machine] {id : Nat} {shared : SharedMemory} (h : Populated w)
    (hshared : w.memories[id]? = some shared) (hx : x.Shows w id) :
    x.linear? w = some shared.linear := by
  have hview {v : View} (hv : v.Shows w id) : v.linear? w = some shared.linear :=
    h.view_linear hshared hv (.refl _)
  cases x with
  | view v => exact hview hx
  | bridge k =>
    obtain ⟨b, i, hb, hopen, hguest, hi⟩ := hx
    have hlive : w.bridgeMemory? k = w.instanceMemory? i := by
      simp [bridgeMemory?, hb, hopen, hguest, Guest.memory?]
    exact hlive.trans (hview hi)
  | module k =>
    obtain ⟨loaded, hloaded, rfl⟩ := hx
    rw [linear?, hloaded]
    exact hview (v := .memory loaded.memory) rfl

end

/-- Every access to a memory is checked against its size, and what is written through one window is
read through all. After any history, and whatever bridges and modules there are, all that show a
shared memory are windows onto one linear memory. -/
theorem windows_are_checked_and_agree [Wasm.Machine] [Wasm.Machine.RunsTrampolines] :
    (∀ (w : World) (j : Nat) (m : Wasm.Memory), w.store.memories[j]? = some m →
      m.size < 2 ^ 32 → Checked w j m) ∧
    ∀ (w₀ w : World) (history : List Request) (id : Nat) (shared : SharedMemory), Blank w₀ →
      BesideSignals (afterAll history w₀) w → w.memories[id]? = some shared →
      ∀ x : Window, x.Shows w id → x.linear? w = some shared.linear := by
  refine ⟨fun w j m => checked, ?_⟩
  intro w₀ w history id shared hblank hw hshared x hx
  have hpopulated : Populated w := hw.populated (populated_afterAll hblank history)
  exact hx.linear?_eq hpopulated hshared

/-- A guest that imports a memory and does nothing. -/
def onlooker : Wasm.Assembly where
  memory := some { module := "env", name := "memory", min := 1, max := 2, shared := true }

def arrival : List Request :=
  [.newEngine none, .newMemory 0 1 2, .instantiate 0 onlooker.encode (some 0) none false]

/-- A memory of one page with an instance, a bridge and a loaded module that show it. -/
def lookout : World :=
  { afterAll arrival {} with
    bridges := #[{ guest := .live 0, bridge := {} }]
    modules := #[{
      runtime := 0, engine := 0, memory := 0, bytes := []
      layout := { base := 0, stackSize := 0, tlsSize := 0 } }] }

theorem lookout_instance : View.Shows lookout 0 (.instance 0) := by
  have hopen : ((lookout.instances[0]?).map fun i => (i.isOpen, i.memory,
      (lookout.store.instances[i.inst]?).map (·.module.importedMemories.isEmpty))) =
        some (true, 0, some false) := by
    decide +kernel
  obtain ⟨i, hi, hopen⟩ := Option.map_eq_some_iff.1 hopen
  obtain ⟨hopen, hgiven⟩ := Prod.mk.inj hopen
  obtain ⟨hgiven, himports⟩ := Prod.mk.inj hgiven
  obtain ⟨x, hx, himports⟩ := Option.map_eq_some_iff.1 himports
  exact ⟨i, hi, hopen, hgiven, x, hx, by simpa using himports⟩

/-- A long word fits in the last eight bytes of the page and not a byte later. It is written through
the bridge and read through the instance and the module. -/
theorem lookout_agrees :
    (∃ w', (bridge 0).put 65528 (.long 0x0102030405060708) lookout = (.ok (), w') ∧
      (view (.instance 0)).fetch 65528 .long w' = (.ok (.long 0x0102030405060708), w') ∧
      (module 0).fetch 65528 .long w' = (.ok (.long 0x0102030405060708), w')) ∧
    ∃ f, (view (.memory 0)).put 65529 (.long 0x0102030405060708) lookout = (.error f, lookout) ∧
      MemoryView.IsOutOfBounds f := by
  have hshared : (lookout.memories[0]?).map (·.linear) = some 0 := by decide +kernel
  have hpage : (lookout.store.memories[0]?).map (·.size) = some 65536 := by decide +kernel
  obtain ⟨shared, hshared, hlinear⟩ := Option.map_eq_some_iff.1 hshared
  obtain ⟨m, hm, hsize⟩ := Option.map_eq_some_iff.1 hpage
  have hchecked := windows_are_checked_and_agree.1 lookout 0 m hm (by omega)
  have hshows := windows_are_checked_and_agree.2 {} lookout arrival 0 shared ⟨rfl, rfl, rfl, rfl⟩
    ⟨rfl, rfl, rfl, rfl⟩ hshared
  rw [hlinear] at hshows
  have hbridge := hshows (bridge 0) ⟨_, 0, rfl, rfl, rfl, lookout_instance⟩
  obtain ⟨w', hput, hwritten⟩ := hchecked.writes (bridge 0) 65528 (.long 0x0102030405060708) hbridge
    (by simp [hsize])
  refine ⟨⟨w', hput, ?_, ?_⟩, ?_⟩
  · exact hwritten.back _ (hshows (view (.instance 0)) lookout_instance)
  · exact hwritten.back _ (hshows (module 0) ⟨_, rfl, rfl⟩)
  · exact hchecked.writes_outside _ _ _ (hshows (view (.memory 0)) rfl) (by simp [hsize])

end Window

end GuestThreads.World
