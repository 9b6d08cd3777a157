import GuestThreads.Proofs.Wasm.Decoded
import GuestThreads.Proofs.World.Requests

/-!
# One shared memory for each engine

After any history of requests, an engine that is not closed has one open memory at most, which is
the one it uses, and guests can import from the modules of that memory and from no others. A memory
that cannot be created leaves everything as it was.
-/

namespace GuestThreads.World

/-- What guests can import from while memory `id` is open, which instance `env` defines. -/
def offered (c : Config) (id env : Nat) : List (String × Wasm.Provider) :=
  [(c.memory.importName.module, .instance env), (hostName c, .host [hostFunc c id])]

/-- Memory `id` is the one that engine `k` uses. -/
structure InUse (k : Nat) (e : Engine) (id : Nat) (m : SharedMemory) : Prop where
  engine : m.engine = k
  isOpen : m.isOpen = true
  names : m.names = [hostName e.config, e.config.memory.importName.module]
  modules : e.modules = offered e.config id m.env

/-- An engine offers the modules of the memory that it uses, and nothing without one. -/
def Orderly (w : World) (k : Nat) (e : Engine) : Prop :=
  match e.memory with
  | none => e.modules = []
  | some id => e.closed = false ∧ ∃ m, w.memories[id]? = some m ∧ InUse k e id m

/-- All engines are orderly, and the open memories are those in use. -/
structure Tidy (w : World) : Prop where
  engine : ∀ k e, w.engines[k]? = some e → Orderly w k e
  memory : ∀ id (m : SharedMemory), w.memories[id]? = some m → m.isOpen = true →
    ∃ e : Engine, w.engines[m.engine]? = some e ∧ (e.closed = false → e.memory = some id)

section

variable {w w' : World} {k id : Nat} {e e' : Engine} {m : SharedMemory}

theorem Orderly.of_none (h : Orderly w k e) (hmemory : e.memory = none) : e.modules = [] := by
  rwa [Orderly, hmemory] at h

theorem Orderly.of_some (h : Orderly w k e) (hmemory : e.memory = some id) :
    e.closed = false ∧ ∃ m, w.memories[id]? = some m ∧ InUse k e id m := by
  rwa [Orderly, hmemory] at h

theorem orderly_of_none (hmemory : e.memory = none) (h : e.modules = []) : Orderly w k e := by
  rwa [Orderly, hmemory]

theorem orderly_of_some (hmemory : e.memory = some id) (hclosed : e.closed = false)
    (hm : w.memories[id]? = some m) (h : InUse k e id m) : Orderly w k e := by
  rw [Orderly, hmemory]
  exact ⟨hclosed, m, hm, h⟩

theorem essence_inj (h : essence e' = essence e) : e'.config = e.config ∧
    e'.memory = e.memory ∧ e'.modules = e.modules ∧ e'.closed = e.closed := by
  simpa [essence] using h

/-- What the engine has compiled and instantiated does not matter. -/
theorem Orderly.congr (h : Orderly w k e) (he : essence e' = essence e)
    (hmemories : ∀ (id : Nat) (m : SharedMemory), w.memories[id]? = some m → m.engine = k →
      m.isOpen = true → w'.memories[id]? = some m) : Orderly w' k e' := by
  obtain ⟨hconfig, hmemory, hmodules, hclosed⟩ := essence_inj he
  cases hm : e.memory with
  | none => exact orderly_of_none (hmemory.trans hm) (hmodules.trans (h.of_none hm))
  | some id =>
    obtain ⟨hrunning, m, hid, huse⟩ := h.of_some hm
    refine orderly_of_some (hmemory.trans hm) (hclosed.trans hrunning)
      (hmemories id m hid huse.engine huse.isOpen) ⟨huse.engine, huse.isOpen, ?_, ?_⟩
    · rw [hconfig, huse.names]
    · rw [hconfig, hmodules, huse.modules]

/-! ## What each request keeps -/

theorem Tidy.sameLineup (h : Tidy w) (hw : SameLineup w w') : Tidy w' where
  engine k e' he' := by
    obtain ⟨e, he, hessence⟩ := getElem?_of_map_eq hw.engines he'
    refine (h.engine k e he).congr hessence fun id m hm _ _ => ?_
    rwa [hw.memories]
  memory id m hm hopen := by
    rw [hw.memories] at hm
    obtain ⟨e, he, hmemory⟩ := h.memory id m hm hopen
    obtain ⟨e', he', heq⟩ := getElem?_of_map_eq hw.engines.symm he
    refine ⟨e', he', fun hclosed => ?_⟩
    obtain ⟨-, hsame, -, hrunning⟩ := essence_inj heq.symm
    exact hsame.trans (hmemory (hrunning.symm.trans hclosed))

theorem newEngine_cases (config : Option Config) (w : World) :
    (∃ f, newEngine config w = (.error f, w)) ∨ ∃ record, newEngine config w =
      (.ok w.engines.size, { w with
        engines := w.engines.push { config := config.getD {} }
        logs := w.logs.push record }) := by
  unfold newEngine
  dsimp only
  cases (config.getD {}).validate with
  | error f => exact .inl ⟨f, rfl⟩
  | ok =>
    dsimp only
    split
    · exact .inl ⟨_, rfl⟩
    · exact .inr ⟨_, rfl⟩

theorem Tidy.newEngine (h : Tidy w) (config : Option Config) :
    Tidy (World.newEngine config w).2 := by
  rcases newEngine_cases config w with ⟨f, hf⟩ | ⟨record, hnew⟩
  · rw [hf]
    exact h
  rw [hnew]
  constructor
  · intro k e he
    rw [Array.getElem?_push] at he
    split at he
    · cases he
      exact orderly_of_none rfl rfl
    · exact (h.engine k e he).congr rfl fun _ _ hm _ _ => hm
  · intro id m hm hopen
    obtain ⟨e, he, hmemory⟩ := h.memory id m hm hopen
    have hlt := (Array.getElem?_eq_some_iff.1 he).1
    refine ⟨e, ?_, hmemory⟩
    rw [Array.getElem?_push, if_neg (by omega), he]

/-- An engine once it is closed. -/
def retire (e : Engine) : Engine :=
  { e with memory := none, cache := [], modules := [], closed := true }

theorem closeEngine_run (he : w.engines[k]? = some e) : World.closeEngine k w = (.ok (), { w with
    store := e.instances.foldl (·.close · .released) w.store
    engines := w.engines.modify k retire }) := by
  rw [World.closeEngine, bind_run, (engine_finds k).run he]
  rfl

theorem Tidy.closeEngine (h : Tidy w) (k : Nat) : Tidy (World.closeEngine k w).2 := by
  cases he : w.engines[k]? with
  | none =>
    rw [World.closeEngine, bind_run, (engine_finds k).miss he]
    exact h
  | some e =>
    rw [closeEngine_run he]
    constructor
    · intro k' e' he'
      by_cases hk : k = k'
      · subst hk
        cases (getElem?_modify_self he).symm.trans he'
        exact orderly_of_none rfl rfl
      · rw [getElem?_modify_ne hk] at he'
        exact (h.engine k' e' he').congr rfl fun _ _ hm _ _ => hm
    · intro id m hm hopen
      obtain ⟨e', he', hmemory⟩ := h.memory id m hm hopen
      by_cases hk : k = m.engine
      · subst hk
        exact ⟨_, getElem?_modify_self he, nofun⟩
      · exact ⟨e', (getElem?_modify_ne hk).trans he', hmemory⟩

/-- The engine of a memory that was just created. -/
theorem created_engine {min max : UInt32} (he : w.engines[k]? = some e) :
    (created w k e min max).engines[k]? = some { e with
      memory := some w.memories.size
      modules := (e.config.memory.importName.module, .instance w.store.instances.size) ::
        (hostName e.config, .host [hostFunc e.config w.memories.size]) :: e.modules
      instances :=
        .host w.memories.size :: .instance w.store.instances.size :: e.instances } :=
  getElem?_modify_self (getElem?_modify_self he)

theorem created_engine_ne {min max : UInt32} {k' : Nat} (hk : k ≠ k') :
    (created w k e min max).engines[k']? = w.engines[k']? :=
  (getElem?_modify_ne hk).trans (getElem?_modify_ne hk)

theorem created_memory (min max : UInt32) : (created w k e min max).memories =
    w.memories.push (memoryEntry k e.config min max w.store.instances.size
      w.store.memories.size) := rfl

theorem getElem?_push_of_some {α : Type} {xs : Array α} {i : Nat} {a : α} (b : α)
    (h : xs[i]? = some a) : (xs.push b)[i]? = some a := by
  have hlt := (Array.getElem?_eq_some_iff.1 h).1
  rw [Array.getElem?_push, if_neg (by omega), h]

theorem Tidy.created [Wasm.Machine] {min max : UInt32} (h : Tidy w) (he : w.engines[k]? = some e)
    (hadmits : Admits e min max) : Tidy (created w k e min max) := by
  constructor
  · intro k' e' he'
    by_cases hk : k = k'
    · subst hk
      cases (created_engine he).symm.trans he'
      refine orderly_of_some rfl hadmits.running Array.getElem?_push_size ⟨rfl, rfl, rfl, ?_⟩
      rw [(h.engine k e he).of_none hadmits.idle]
      rfl
    · rw [created_engine_ne hk] at he'
      exact (h.engine k' e' he').congr rfl fun _ _ hm _ _ => getElem?_push_of_some _ hm
  · intro id m hm hopen
    rw [created_memory, Array.getElem?_push] at hm
    split at hm
    · rename_i hid
      cases hm
      exact ⟨_, created_engine he, fun _ => hid ▸ rfl⟩
    · obtain ⟨e', he', hmemory⟩ := h.memory id m hm hopen
      by_cases hk : k = m.engine
      · -- The engine was idle, so that none of its memories is open.
        subst hk
        cases he.symm.trans he'
        cases hadmits.idle.symm.trans (hmemory hadmits.running)
      · exact ⟨e', (created_engine_ne hk).trans he', hmemory⟩

theorem Tidy.newMemory [Wasm.Machine] [Wasm.Machine.RunsTrampolines] (h : Tidy w) (k : Nat)
    (min max : UInt32) : Tidy (World.newMemory k min max w).2 := by
  by_cases hadmits : ∃ e, w.engines[k]? = some e ∧ Admits e min max
  · obtain ⟨e, he, hadmits⟩ := hadmits
    rw [newMemory_run he hadmits]
    exact h.created he hadmits
  · obtain ⟨f, hf⟩ := newMemory_refuses fun e he hadmits' => hadmits ⟨e, he, hadmits'⟩
    rw [hf]
    exact h

/-- Nothing is offered any more once the memory in use is closed. -/
theorem InUse.release (h : InUse k e id m) (hmemory : e.memory = some id) :
    (release id m.names e).memory = none ∧ (release id m.names e).modules = [] := by
  simp [World.release, dropModules, hmemory, h.names, h.modules, offered]

/-- A closed engine uses no memory. -/
theorem Orderly.of_closed (h : Orderly w k e) (hclosed : e.closed = true) : e.memory = none := by
  cases hmemory : e.memory with
  | none => rfl
  | some id => cases hclosed.symm.trans (h.of_some hmemory).1

theorem Tidy.released (h : Tidy w) (hm : w.memories[id]? = some m) (hopen : m.isOpen = true) :
    Tidy (released w id m) := by
  obtain ⟨e, he, hmemory⟩ := h.memory id m hm hopen
  have horderly := h.engine m.engine e he
  have hidle : (release id m.names e).memory = none ∧ (release id m.names e).modules = [] := by
    cases hclosed : e.closed with
    | true =>
      have hnone := horderly.of_closed hclosed
      simp [release, dropModules, hnone, horderly.of_none hnone]
    | false =>
      obtain ⟨-, m', hm', huse⟩ := horderly.of_some (hmemory hclosed)
      cases hm.symm.trans hm'
      exact huse.release (hmemory hclosed)
  constructor
  · intro k' e' he'
    by_cases hk : m.engine = k'
    · subst hk
      cases (getElem?_modify_self he).symm.trans he'
      exact orderly_of_none hidle.1 hidle.2
    · have he' := (getElem?_modify_ne hk).symm.trans he'
      refine (h.engine k' e' he').congr rfl fun j n hn hengine _ => ?_
      have hj : id ≠ j := by
        rintro rfl
        cases hm.symm.trans hn
        exact hk hengine
      exact (getElem?_modify_ne hj).trans hn
  · intro j n hn hopen'
    by_cases hj : id = j
    · subst hj
      cases (getElem?_modify_self hm).symm.trans hn
      cases hopen'
    · have hn := (getElem?_modify_ne hj).symm.trans hn
      obtain ⟨e', he', hmemory'⟩ := h.memory j n hn hopen'
      by_cases hk : m.engine = n.engine
      · rw [← hk] at he' ⊢
        cases he.symm.trans he'
        refine ⟨_, getElem?_modify_self he, fun hclosed => ?_⟩
        cases (hmemory hclosed).symm.trans (hmemory' hclosed)
        exact absurd rfl hj
      · exact ⟨e', (getElem?_modify_ne hk).trans he', hmemory'⟩

/-- A memory that is closed is not the one in use. -/
theorem Tidy.not_current (h : Tidy w) (hm : w.memories[id]? = some m) (hclosed : m.isOpen = false)
    (he : w.engines[k]? = some e) : e.memory ≠ some id := by
  intro hmemory
  obtain ⟨-, m', hm', huse⟩ := (h.engine k e he).of_some hmemory
  cases hm.symm.trans hm'
  cases hclosed.symm.trans huse.isOpen

theorem Tidy.closeMemory (h : Tidy w) (id : Nat) : Tidy (World.closeMemory id w).2 := by
  cases hm : w.memories[id]? with
  | none =>
    rw [closeMemory_unknown hm]
    exact h
  | some m =>
    cases hopen : m.isOpen with
    | true =>
      rw [closeMemory_run hm hopen]
      exact h.released hm hopen
    | false =>
      rw [closeMemory_again hm hopen fun e he => h.not_current hm hopen he]
      exact h

theorem Tidy.after [Wasm.Machine] [Wasm.Machine.RunsTrampolines] (h : Tidy w) (r : Request) :
    Tidy (r.after w) := by
  cases r with
  | newEngine config => exact Request.after_newEngine w config ▸ h.newEngine config
  | closeEngine k => exact Request.after_closeEngine w k ▸ h.closeEngine k
  | newMemory k min max => exact Request.after_newMemory w k min max ▸ h.newMemory k min max
  | closeMemory id => exact Request.after_closeMemory w id ▸ h.closeMemory id
  | _ => exact h.sameLineup (Request.Minor.sameLineup (by exact trivial) w)

theorem Blank.tidy (h : Blank w) : Tidy w where
  engine k e he := by simp [h.engines] at he
  memory id m hm := by simp [h.memories] at hm

theorem tidy_afterAll [Wasm.Machine] [Wasm.Machine.RunsTrampolines] (h : Blank w)
    (history : List Request) : Tidy (afterAll history w) :=
  afterAll_induction (fun r _ hw => hw.after r) h.tidy history

/-! ## One memory at a time -/

/-- A memory with these bounds can be created under this configuration. -/
structure Creatable [Wasm.Machine] (c : Config) (min max : UInt32) : Prop where
  bounds : ¬(min = 0 ∨ max < min)
  apart : hostName c ≠ c.memory.importName.module
  accepts : Accepts { config := c } min max

/-- An engine that uses no memory creates one wherever a new engine would. -/
theorem Orderly.admits_iff [Wasm.Machine] {min max : UInt32} (h : Orderly w k e)
    (hmemory : e.memory = none) (hclosed : e.closed = false) :
    Admits e min max ↔ Creatable e.config min max := by
  have haccept : e.accept? = Engine.accept? { config := e.config } := by
    funext bytes
    rw [Engine.accept?, Engine.accept?, hclosed]
    rfl
  have haccepts : Accepts e min max ↔ Accepts { config := e.config } min max := by
    rw [Accepts, haccept, Accepts]
  have hmodules := h.of_none hmemory
  constructor
  · intro hadmits
    exact ⟨hadmits.bounds, hadmits.apart, haccepts.1 hadmits.accepts⟩
  · intro hcreatable
    exact ⟨hmemory, hcreatable.bounds, hclosed, by simp [hmodules], by simp [hmodules],
      hcreatable.apart, haccepts.2 hcreatable.accepts⟩

/-- Engine `k` has one open memory at most, and none that it does not use. -/
structure OneMemory [Wasm.Machine] (w : World) (k : Nat) (e : Engine) : Prop where
  /-- The memory in use is the one that is open. -/
  current : ∀ id : Nat, e.memory = some id ↔
    ∃ m : SharedMemory, w.memories[id]? = some m ∧ m.engine = k ∧ m.isOpen = true
  /-- Guests can import from the modules of the memory in use. -/
  offers : ∀ (id : Nat) (m : SharedMemory), e.memory = some id → w.memories[id]? = some m →
    e.modules = offered e.config id m.env
  /-- Without a memory, all names are free. -/
  offersNothing : e.memory = none → e.modules = []
  /-- A second memory is refused, and everything stays as it is. -/
  refuses : ∀ min max, e.memory ≠ none → ∃ f, newMemory k min max w = (.error f, w)
  /-- Without a memory, one is created wherever the configuration allows it. -/
  creates : ∀ min max, e.memory = none →
    ((∃ id w', newMemory k min max w = (.ok id, w')) ↔ Creatable e.config min max)
  /-- A memory that is not created leaves no trace. -/
  leavesNoTrace : ∀ min max f w', newMemory k min max w = (.error f, w') → w' = w
  /-- The memory in use can be closed, and then there is none. -/
  closes : ∀ id : Nat, e.memory = some id → ∃ w' e', closeMemory id w = (.ok (), w') ∧
    w'.engines[k]? = some e' ∧ e'.memory = none ∧ e'.modules = [] ∧ e'.closed = false
  /-- Closing a memory again changes nothing. -/
  closesOnce : ∀ (id : Nat) (m : SharedMemory), w.memories[id]? = some m → m.isOpen = false →
    closeMemory id w = (.ok (), w)

theorem newMemory_failed [Wasm.Machine] [Wasm.Machine.RunsTrampolines] {min max : UInt32}
    {f : Fault} (h : World.newMemory k min max w = (.error f, w')) : w' = w := by
  by_cases hadmits : ∃ e, w.engines[k]? = some e ∧ Admits e min max
  · obtain ⟨e, he, hadmits⟩ := hadmits
    cases (newMemory_run he hadmits).symm.trans h
  · obtain ⟨f', hf'⟩ := newMemory_refuses fun e he hadmits' => hadmits ⟨e, he, hadmits'⟩
    cases hf'.symm.trans h
    rfl

theorem newMemory_succeeds_iff [Wasm.Machine] [Wasm.Machine.RunsTrampolines] {min max : UInt32}
    (he : w.engines[k]? = some e) :
    (∃ id w', World.newMemory k min max w = (.ok id, w')) ↔ Admits e min max := by
  constructor
  · rintro ⟨id, w', hrun⟩
    by_contra hadmits
    have hnone : ∀ e', w.engines[k]? = some e' → ¬Admits e' min max := by
      intro e' he'
      cases he.symm.trans he'
      exact hadmits
    obtain ⟨f, hf⟩ := newMemory_refuses hnone
    cases hf.symm.trans hrun
  · intro hadmits
    exact ⟨_, _, newMemory_run he hadmits⟩

theorem Tidy.oneMemory [Wasm.Machine] [Wasm.Machine.RunsTrampolines] (h : Tidy w)
    (he : w.engines[k]? = some e) (hclosed : e.closed = false) : OneMemory w k e := by
  have horderly := h.engine k e he
  constructor
  case current =>
    intro id
    constructor
    · intro hmemory
      obtain ⟨-, m, hm, huse⟩ := horderly.of_some hmemory
      exact ⟨m, hm, huse.engine, huse.isOpen⟩
    · rintro ⟨m, hm, rfl, hopen⟩
      obtain ⟨e', he', hmemory⟩ := h.memory id m hm hopen
      cases he.symm.trans he'
      exact hmemory hclosed
  case offers =>
    intro id m hmemory hm
    obtain ⟨-, m', hm', huse⟩ := horderly.of_some hmemory
    cases hm.symm.trans hm'
    exact huse.modules
  case offersNothing => exact horderly.of_none
  case refuses =>
    intro min max hmemory
    refine newMemory_refuses fun e' he' hadmits => hmemory ?_
    cases he.symm.trans he'
    exact hadmits.idle
  case creates =>
    intro min max hmemory
    exact (newMemory_succeeds_iff he).trans (horderly.admits_iff hmemory hclosed)
  case leavesNoTrace =>
    intro min max f w' hfailed
    exact newMemory_failed hfailed
  case closes =>
    intro id hmemory
    obtain ⟨-, m, hm, huse⟩ := horderly.of_some hmemory
    obtain ⟨hidle, hmodules⟩ := huse.release hmemory
    have he' : (World.released w id m).engines[k]? = some (release id m.names e) := by
      rw [← huse.engine] at he ⊢
      exact getElem?_modify_self he
    exact ⟨_, _, closeMemory_run hm huse.isOpen, he', hidle, hmodules, hclosed⟩
  case closesOnce =>
    intro id m hm hm'
    exact closeMemory_again hm hm' fun e' he' => h.not_current hm hm' he'

/-- After any history, an engine that is not closed has one open memory at most, and a memory that
is not created leaves no trace. -/
theorem engine_uses_one_memory [Wasm.Machine] [Wasm.Machine.RunsTrampolines] (h : Blank w)
    (history : List Request) (he : (afterAll history w).engines[k]? = some e)
    (hclosed : e.closed = false) :
    OneMemory (afterAll history w) k e :=
  (tidy_afterAll h history).oneMemory he hclosed

end

/-- A memory is refused twice, because its engine has one already and because of its bounds, and is
created again once the first one is closed. The first one is closed twice. -/
def recreation : List Request :=
  [.newEngine none, .newMemory 0 1 2, .newMemory 0 1 2, .closeMemory 0, .newMemory 0 0 1,
    .newMemory 0 1 1, .closeMemory 0]

theorem recreation_uses_one_memory : ∃ e, (afterAll recreation {}).engines[0]? = some e ∧
    e.closed = false ∧ e.memory = some 1 ∧ OneMemory (afterAll recreation {}) 0 e := by
  have hengine : ((afterAll recreation {}).engines[0]?.map fun e => (e.closed, e.memory)) =
      some (false, some 1) := by
    decide +kernel
  obtain ⟨e, he, hclosed⟩ := Option.map_eq_some_iff.1 hengine
  obtain ⟨hclosed, hmemory⟩ := Prod.mk.inj hclosed
  exact ⟨e, he, hclosed, hmemory,
    engine_uses_one_memory ⟨rfl, rfl, rfl, rfl⟩ recreation he hclosed⟩

end GuestThreads.World
