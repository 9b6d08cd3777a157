import GuestThreads.Proofs.World.Lineup

/-!
# What a validated configuration is good for

Validation bounds the pages of the memory, so that an engine whose page limit is in range takes
them. It neither bounds the page limit nor compares names: guests have to import the memory and the
signal function under two names, and not both from the module that the host keeps for itself.
`validated_usable_iff` says that nothing else is in the way of an engine with its memory.
-/

namespace GuestThreads.World

open Wasm (Trampoline)

/-! ## The bounds -/

/-- The bounds of the memory are in order, and within the page limit where there is one. -/
structure Bounded (c : Config) : Prop where
  min_pos : c.memory.minPages ≠ 0
  min_le : c.memory.minPages ≤ c.memory.maxPages
  max_le : c.memory.maxPages ≤ 65536
  limit : c.engine.memoryLimitPages ≠ 0 → c.memory.maxPages ≤ c.engine.memoryLimitPages

theorem bounded_of_valid {c : Config} (h : c.validate = .ok ()) : Bounded c := by
  have hvalid : c.invalid? = none := by
    rw [Config.validate] at h
    split at h
    · assumption
    · cases h
  simp only [Config.invalid?] at hvalid
  constructor <;> grind

theorem Bounded.min_le_pageLimit {c : Config} (h : Bounded c) :
    c.memory.minPages.toNat ≤ Engine.pageLimit { config := c } := by
  have hmin := UInt32.le_iff_toNat_le.1 h.min_le
  rw [Engine.pageLimit]
  split
  · exact hmin.trans (UInt32.le_iff_toNat_le.1 h.max_le)
  · next hlimit => exact hmin.trans (UInt32.le_iff_toNat_le.1 (h.limit hlimit))

/-! ## The names -/

/-- The names are in each other's way: one name is exported twice, or the module that forwards to
the host takes the name of the host's own. -/
def Clashing (c : Config) : Prop :=
  c.signal = c.memory.importName ∨
    c.signal.module = hostModule ∧ c.memory.importName.module = hostModule

instance : DecidablePred Clashing := fun c =>
  inferInstanceAs (Decidable (c.signal = c.memory.importName ∨
    c.signal.module = hostModule ∧ c.memory.importName.module = hostModule))

theorem exportNames_nodup_iff {c : Config} {min max : UInt32} :
    (trampoline c min max).exportNames.Nodup ↔ c.signal ≠ c.memory.importName := by
  have hsame : c.signal = c.memory.importName ↔
      c.signal.module = c.memory.importName.module ∧ c.signal.name = c.memory.importName.name := by
    cases c.signal
    cases c.memory.importName
    simp
  by_cases hmerged : c.signal.module = c.memory.importName.module
  · have hnames : (trampoline c min max).exportNames =
        [c.memory.importName.name, c.signal.name] := by
      simp [Trampoline.exportNames, trampoline, hmerged]
    simp [hnames, hsame, hmerged, eq_comm]
  · simp [Trampoline.exportNames, trampoline, hsame, hmerged]

theorem hostName_ne_iff {c : Config} : hostName c ≠ c.memory.importName.module ↔
    ¬(c.signal.module = hostModule ∧ c.memory.importName.module = hostModule) := by
  unfold hostName merged
  grind

/-! ## An engine with its memory -/

section

variable {c : Config}

/-- The module that defines the memory can be encoded. -/
def EnvFits (c : Config) : Prop := (trampoline c c.memory.minPages c.memory.maxPages).Fits

theorem accepts_iff (hbounded : Bounded c) :
    Accepts { config := c } c.memory.minPages c.memory.maxPages ↔
      EnvFits c ∧ c.signal ≠ c.memory.importName := by
  have hvalid (hfits : EnvFits c) :
      (trampoline c c.memory.minPages c.memory.maxPages).meaning.valid
          (Engine.pageLimit { config := c }) = true ↔ c.signal ≠ c.memory.importName := by
    rw [Trampoline.valid_meaning_iff hfits, exportNames_nodup_iff]
    refine and_iff_right fun m hm => ?_
    cases hm
    exact ⟨hbounded.min_le_pageLimit, hbounded.min_le, UInt32.le_iff_toNat_le.1 hbounded.max_le⟩
  constructor
  · intro h
    obtain ⟨hfits, -, hmeaning⟩ := h.meaning
    obtain ⟨bytes, -, haccept⟩ := Option.bind_eq_some_iff.1 hmeaning
    exact ⟨hfits, (hvalid hfits).1 (Wasm.compile?_eq_some_iff.1 (accept?_ok haccept).2).2⟩
  · rintro ⟨hfits, hnames⟩
    obtain ⟨bytes, hencode, hdecode⟩ :=
      Trampoline.decode?_encode (.inr rfl) (trampoline_numeric _ _ _) hfits
    have hok := (hvalid hfits).2 hnames
    have hcompile := Wasm.compile?_eq_some_iff.2 ⟨hdecode, hok⟩
    simp [Accepts, hencode, Engine.accept?, hcompile]

/-- The bounds are no obstacle for the memory of a configuration. -/
theorem creatable_iff (hbounded : Bounded c) :
    Creatable c c.memory.minPages c.memory.maxPages ↔ EnvFits c ∧ ¬Clashing c := by
  have hbounds : ¬(c.memory.minPages = 0 ∨ c.memory.maxPages < c.memory.minPages) :=
    not_or.2 ⟨hbounded.min_pos, UInt32.not_lt.2 hbounded.min_le⟩
  have haccepts := accepts_iff hbounded
  constructor
  · intro h
    obtain ⟨hfits, hnames⟩ := haccepts.1 h.accepts
    exact ⟨hfits, not_or.2 ⟨hnames, hostName_ne_iff.1 h.apart⟩⟩
  · rintro ⟨hfits, hclash⟩
    obtain ⟨hnames, hhost⟩ := not_or.1 hclash
    exact ⟨hbounds, hostName_ne_iff.2 hhost, haccepts.2 ⟨hfits, hnames⟩⟩

/-- A validated configuration makes an engine unless its page limit is out of range. -/
theorem newEngine_of_valid (hvalid : c.validate = .ok ()) (w : World) :
    (c.engine.memoryLimitPages.toNat ≤ Wasm.maxPages ∧ ∃ record, newEngine (some c) w =
      (.ok w.engines.size, { w with
        engines := w.engines.push { config := c }
        logs := w.logs.push record })) ∨
    (Wasm.maxPages < c.engine.memoryLimitPages.toNat ∧
      newEngine (some c) w = (.error (.external (.pageLimit c.engine.memoryLimitPages)), w)) := by
  unfold newEngine
  simp only [Option.getD_some, hvalid]
  split
  · next hlimit => exact .inr ⟨hlimit, rfl⟩
  · next hlimit => exact .inl ⟨Nat.not_lt.1 hlimit, _, rfl⟩

/-- Names are all that can be in the way of the memory. -/
theorem newMemory_of_valid (hvalid : c.validate = .ok ()) {w w' : World} {k : Nat}
    (hk : newEngine (some c) w = (.ok k, w')) :
    (∃ id w'', newMemory k c.memory.minPages c.memory.maxPages w' = (.ok id, w'')) ↔
      EnvFits c ∧ ¬Clashing c := by
  obtain ⟨-, record, hnew⟩ | ⟨-, hnew⟩ := newEngine_of_valid hvalid w
  · cases hnew.symm.trans hk
    have horderly : Orderly w w.engines.size { config := c } := orderly_of_none rfl rfl
    calc (∃ id w'', newMemory _ c.memory.minPages c.memory.maxPages _ = (.ok id, w''))
      _ ↔ Admits { config := c } c.memory.minPages c.memory.maxPages :=
        newMemory_succeeds_iff Array.getElem?_push_size
      _ ↔ Creatable c c.memory.minPages c.memory.maxPages := horderly.admits_iff rfl rfl
      _ ↔ EnvFits c ∧ ¬Clashing c := creatable_iff (bounded_of_valid hvalid)
  · cases hnew.symm.trans hk

/-- Names that clash leave an engine without a memory. -/
theorem no_memory_of_clashing (hvalid : c.validate = .ok ()) (hclashing : Clashing c)
    (hlimit : c.engine.memoryLimitPages.toNat ≤ Wasm.maxPages) (w : World) :
    ∃ k w', newEngine (some c) w = (.ok k, w') ∧
      ¬∃ id w'', newMemory k c.memory.minPages c.memory.maxPages w' = (.ok id, w'') := by
  obtain ⟨-, record, hnew⟩ | ⟨hlarge, -⟩ := newEngine_of_valid hvalid w
  · exact ⟨_, _, hnew, fun h => ((newMemory_of_valid hvalid hnew).1 h).2 hclashing⟩
  · exact absurd hlimit (Nat.not_le.2 hlarge)

/-- A validated configuration makes an engine just when its page limit is in range, and a memory on
that engine just when its names do not clash. The names are texts, so that a configuration whose
document gives one of them as bytes that are not UTF-8 is not spoken of. -/
theorem validated_usable_iff (hvalid : c.validate = .ok ()) (w : World) :
    ((∃ k w', newEngine (some c) w = (.ok k, w')) ↔
        c.engine.memoryLimitPages.toNat ≤ Wasm.maxPages) ∧
      ∀ k w', newEngine (some c) w = (.ok k, w') →
        ((∃ id w'', newMemory k c.memory.minPages c.memory.maxPages w' = (.ok id, w'')) ↔
          EnvFits c ∧ ¬Clashing c) := by
  refine ⟨?_, fun k w' hk => newMemory_of_valid hvalid hk⟩
  obtain ⟨hlimit, record, hnew⟩ | ⟨hlimit, hnew⟩ := newEngine_of_valid hvalid w
  · exact iff_of_true ⟨_, _, hnew⟩ hlimit
  · rw [hnew]
    exact iff_of_false nofun (Nat.not_le.2 hlimit)

end

/-- As many pages as there can be, and a signal function in the module of the host. -/
def widest : Config where
  engine := { memoryLimitPages := 65536 }
  memory := { importName := ⟨"env", "post"⟩, minPages := 1, maxPages := 65536 }
  signal := ⟨hostModule, "post"⟩

theorem widest_is_usable : ∃ k w', newEngine (some widest) {} = (.ok k, w') ∧
    ∃ id w'', newMemory k 1 65536 w' = (.ok id, w'') := by
  have husable := validated_usable_iff (c := widest) rfl {}
  obtain ⟨k, w', hk⟩ := husable.1.2 (by decide)
  exact ⟨k, w', hk, (husable.2 k w' hk).2 ⟨by constructor <;> decide +kernel, by decide⟩⟩

/-- The page limit is out of range by one page. -/
def unlimited : Config := { engine := { memoryLimitPages := 65537 } }

/-- Both imports have one name. -/
def namesakes : Config := { signal := ⟨"env", "memory"⟩ }

/-- Both imports are from the module of the host. -/
def intruding : Config where
  memory := { importName := ⟨hostModule, "memory"⟩ }
  signal := ⟨hostModule, "post"⟩

/-- Three configurations pass validation and are of no use: one makes no engine, and the others no
memory on their engines. -/
theorem validated_not_usable :
    (unlimited.validate = .ok () ∧
        newEngine (some unlimited) {} = (.error (.external (.pageLimit 65537)), {})) ∧
      ∀ c ∈ [namesakes, intruding], c.validate = .ok () ∧
        ∃ k w', newEngine (some c) {} = (.ok k, w') ∧
          ¬∃ id w'', newMemory k c.memory.minPages c.memory.maxPages w' = (.ok id, w'') := by
  refine ⟨⟨rfl, rfl⟩, ?_⟩
  simp only [List.mem_cons, List.not_mem_nil, or_false, forall_eq_or_imp, forall_eq]
  exact ⟨⟨rfl, no_memory_of_clashing rfl (by decide) (by decide) {}⟩,
    rfl, no_memory_of_clashing rfl (by decide) (by decide) {}⟩

end GuestThreads.World
