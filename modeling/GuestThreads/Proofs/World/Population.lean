import GuestThreads.Proofs.World.Instantiation

/-!
# Who lives in a store

Every memory is defined by an instance of its own, which forwards signals, and every guest is a
resident next to the instance that defines its memory. No two of them are the same instance. All of
this holds after any history of requests.
-/

namespace GuestThreads.World

/-! ## The invariant -/

/-- Instance `env` defines linear memory `linear` and forwards signals. -/
def Founded (s : Wasm.Store) (env linear : Nat) : Prop :=
  ∃ (t : Wasm.Trampoline) (functions : List Wasm.HostFunc), t.Signals functions ∧
    t.Stands functions s env ∧ s.linearOf? env = some linear ∧ linear < s.memories.size

/-- Instance `inst` is a guest that shares the memory of instance `env`, if it imports one. -/
def Lodged (s : Wasm.Store) (env linear inst : Nat) : Prop :=
  ∃ (m : Wasm.Module) (callees : List Wasm.Callee), Wasm.Resident s env inst m callees ∧
    (m.importedMemories ≠ [] → s.linearOf? inst = some linear)

section

variable {s s' : Wasm.Store} {env linear inst : Nat}

theorem linearOf?_later (hs : Wasm.Evolves s s') (h : s.linearOf? inst = some linear) :
    s'.linearOf? inst = some linear := by
  obtain ⟨x, hx, hmemory⟩ := Option.bind_eq_some_iff.1 h
  obtain ⟨x', hx', hstays⟩ := hs.instances inst x hx
  rw [Wasm.Store.linearOf?, hx', Option.bind_some, hstays.memory, hmemory]

theorem Founded.later (h : Founded s env linear) (hs : Wasm.Evolves s s') :
    Founded s' env linear := by
  obtain ⟨t, functions, hsignals, hstands, hlinear, hlt⟩ := h
  exact ⟨t, functions, hsignals, hs.code? hstands, linearOf?_later hs hlinear,
    Nat.lt_of_lt_of_le hlt hs.memories⟩

theorem Lodged.later (h : Lodged s env linear inst) (hs : Wasm.Evolves s s') :
    Lodged s' env linear inst := by
  obtain ⟨m, callees, hresident, hlinear⟩ := h
  exact ⟨m, callees, hresident.later hs, fun himports => linearOf?_later hs (hlinear himports)⟩

theorem Founded.lt_size (h : Founded s env linear) : env < s.instances.size := by
  obtain ⟨t, functions, -, hstands, -⟩ := h
  obtain ⟨x, hx, -⟩ := hstands.instance
  exact (Array.getElem?_eq_some_iff.1 hx).1

theorem Lodged.lt_size (h : Lodged s env linear inst) : inst < s.instances.size := by
  obtain ⟨m, callees, hresident, -⟩ := h
  exact hresident.lt_size

end

variable [Wasm.Machine]

/-- Every memory is founded, and every guest is lodged with one. -/
structure Populated (w : World) : Prop where
  tidy : Tidy w
  cached : Cached w
  founded : ∀ (id : Nat) (m : SharedMemory), w.memories[id]? = some m →
    Founded w.store m.env m.linear
  lodged : ∀ (j : Nat) (i : LiveInstance), w.instances[j]? = some i →
    ∃ m : SharedMemory, w.memories[i.memory]? = some m ∧ Lodged w.store m.env m.linear i.inst
  /-- No guest defines a memory. -/
  apart : ∀ (j id : Nat) (i : LiveInstance) (m : SharedMemory), w.instances[j]? = some i →
    w.memories[id]? = some m → i.inst ≠ m.env
  distinct : ∀ (j j' : Nat) (i i' : LiveInstance), w.instances[j]? = some i →
    w.instances[j']? = some i' → j ≠ j' → i.inst ≠ i'.inst

/-! ## What keeps it -/

/-- What of a memory never changes. -/
def site (m : SharedMemory) : Nat × Nat := (m.env, m.linear)

/-- What of an instance never changes. -/
def lodging (i : LiveInstance) : Nat × Nat := (i.inst, i.memory)

section

variable {w w' : World}

theorem Populated.evolve (h : Populated w) (htidy : Tidy w') (hcached : Cached w')
    (hs : Wasm.Evolves w.store w'.store)
    (hmemories : w'.memories.map site = w.memories.map site)
    (hinstances : w'.instances.map lodging = w.instances.map lodging) : Populated w' where
  tidy := htidy
  cached := hcached
  founded id m hm := by
    obtain ⟨m₀, hm₀, hsite⟩ := getElem?_of_map_eq hmemories hm
    obtain ⟨henv, hlinear⟩ := Prod.mk.inj hsite
    rw [henv, hlinear]
    exact (h.founded id m₀ hm₀).later hs
  lodged j i hi := by
    obtain ⟨i₀, hi₀, hlodging⟩ := getElem?_of_map_eq hinstances hi
    obtain ⟨hinst, hmemory⟩ := Prod.mk.inj hlodging
    obtain ⟨m₀, hm₀, hlodged⟩ := h.lodged j i₀ hi₀
    obtain ⟨m, hm, hsite⟩ := getElem?_of_map_eq hmemories.symm hm₀
    obtain ⟨henv, hlinear⟩ := Prod.mk.inj hsite
    rw [hinst, hmemory]
    exact ⟨m, hm, henv ▸ hlinear ▸ hlodged.later hs⟩
  apart j id i m hi hm := by
    obtain ⟨i₀, hi₀, hlodging⟩ := getElem?_of_map_eq hinstances hi
    obtain ⟨m₀, hm₀, hsite⟩ := getElem?_of_map_eq hmemories hm
    rw [(Prod.mk.inj hlodging).1, (Prod.mk.inj hsite).1]
    exact h.apart j id i₀ m₀ hi₀ hm₀
  distinct j j' i i' hi hi' hj := by
    obtain ⟨i₀, hi₀, hlodging⟩ := getElem?_of_map_eq hinstances hi
    obtain ⟨i₀', hi₀', hlodging'⟩ := getElem?_of_map_eq hinstances hi'
    rw [(Prod.mk.inj hlodging).1, (Prod.mk.inj hlodging').1]
    exact h.distinct j j' i₀ i₀' hi₀ hi₀' hj

/-- The worlds in which the invariant holds, seen as a frame. -/
def populating : Frame where
  rel w w' := Populated w → Populated w'
  refl _ := id
  trans h g := g ∘ h

theorem populating_passive : populating.Passive where
  store w store hs h := h.evolve (h.tidy.sameLineup ⟨rfl, rfl⟩) h.cached hs rfl rfl
  compiled w k e bytes m he haccept h := by
    refine h.evolve (h.tidy.sameLineup ?_) (cached_of_compiled h.cached he haccept rfl) (.refl _)
      rfl rfl
    exact sameLineup_lenient.compiled w k e bytes m he haccept
  installed w k inst h := by
    refine h.evolve (h.tidy.sameLineup ?_) (cached_of_installed h.cached rfl) (.refl _) rfl rfl
    exact sameLineup_lenient.installed w k inst
  recorded w r _ h := h.evolve (h.tidy.sameLineup ⟨rfl, rfl⟩) h.cached (.refl _) rfl rfl

theorem BesideSignals.populated (hw : BesideSignals w w') (h : Populated w) : Populated w' := by
  refine h.evolve (h.tidy.sameLineup ⟨congrArg _ hw.engines, hw.memories⟩) ?_ ?_ ?_ ?_
  · intro k e he
    exact h.cached k e (hw.engines ▸ he)
  · rw [hw.store]
    exact .refl _
  · rw [hw.memories]
  · rw [hw.instances]

theorem postSignal_populating (sink : Option Sink) (s : Signal) :
    Keeps populating (postSignal sink s) :=
  fun w => BesideSignals.populated (postSignal_besideSignals sink s w)

namespace Populated

theorem closeInstance (h : Populated w) (j : Nat) : Populated (World.closeInstance j w).2 := by
  cases hi : w.instances[j]? with
  | none =>
    rw [World.closeInstance, bind_run, (liveInstance_finds j).miss hi]
    exact h
  | some i =>
    rw [World.closeInstance, bind_run, (liveInstance_finds j).run hi]
    have hlodging : (w.instances.modify j fun i => { i with isOpen := false }).map lodging =
        w.instances.map lodging := by
      apply map_modify
      intro i
      rfl
    exact h.evolve (h.tidy.sameLineup ⟨rfl, rfl⟩) h.cached (.closeInstance _ _ _) rfl hlodging

theorem newEngine (h : Populated w) (config : Option Config) :
    Populated (World.newEngine config w).2 := by
  have htidy := h.tidy.newEngine config
  rcases newEngine_cases config w with ⟨f, hf⟩ | ⟨record, hnew⟩
  · rw [hf]
    exact h
  · rw [hnew] at htidy ⊢
    refine h.evolve htidy ?_ (.refl _) rfl rfl
    intro k e he
    rw [Array.getElem?_push] at he
    split at he
    · cases he
      exact nofun
    · exact h.cached k e he

theorem closeEngine (h : Populated w) (k : Nat) : Populated (World.closeEngine k w).2 := by
  have htidy := h.tidy.closeEngine k
  cases he : w.engines[k]? with
  | none =>
    rw [World.closeEngine, bind_run, (engine_finds k).miss he]
    exact h
  | some e =>
    rw [closeEngine_run he] at htidy ⊢
    refine h.evolve htidy ?_ (.closeAll _ _) rfl rfl
    intro k' e' he'
    by_cases hk : k = k'
    · subst hk
      cases (getElem?_modify_self he).symm.trans he'
      simp [retire, Accepted]
    · rw [getElem?_modify_ne hk] at he'
      exact h.cached k' e' he'

theorem closeMemory (h : Populated w) (id : Nat) : Populated (World.closeMemory id w).2 := by
  have htidy := h.tidy.closeMemory id
  cases hm : w.memories[id]? with
  | none =>
    rw [closeMemory_unknown hm]
    exact h
  | some m =>
    cases hopen : m.isOpen with
    | false =>
      rw [closeMemory_again hm hopen fun e he => h.tidy.not_current hm hopen he]
      exact h
    | true =>
      rw [closeMemory_run hm hopen] at htidy ⊢
      have hsites : (w.memories.modify id fun m => { m with isOpen := false }).map site =
          w.memories.map site := by
        apply map_modify
        intro m
        rfl
      refine h.evolve htidy ?_ ((Wasm.Evolves.closeInstance _ _ _).trans (.close _ (.host id) _))
        hsites rfl
      intro k e he
      change (w.engines.modify m.engine _)[k]? = _ at he
      rw [Array.getElem?_modify] at he
      split at he
      · obtain ⟨e₀, he₀, rfl⟩ := Option.map_eq_some_iff.1 he
        exact h.cached k e₀ he₀
      · exact h.cached k e he

end Populated

end

/-! ## New memories -/

section

variable {w : World} {k : Nat} {e : Engine} {min max : UInt32}

omit [Wasm.Machine] in
/-- The trampoline of a configuration forwards signals. -/
theorem trampoline_signals {c : Config} (home : Nat) (hfits : (trampoline c min max).Fits) :
    (trampoline c min max).Signals (forwarded c home) := by
  by_cases h : merged c
  · rw [forwarded, if_pos h]
    refine ⟨hfits, by rw [trampoline_funcs_merged h]; rfl, ?_, ?_⟩
    · rw [trampoline_funcs_merged h]
      simp
    · simp [hostFunc]
  · rw [forwarded, if_neg h]
    refine ⟨hfits, by rw [trampoline_funcs_apart h]; rfl, ?_, by simp⟩
    rw [trampoline_funcs_apart h]
    simp

theorem created_founded [Wasm.Machine.RunsTrampolines] (hadmits : Admits e min max) :
    Founded (created w k e min max).store w.store.instances.size w.store.memories.size := by
  have hfits := hadmits.accepts.meaning.1
  refine ⟨_, _, trampoline_signals w.memories.size hfits, ?_, ?_, ?_⟩
  · change ((w.store.instances.push _)[_]?).map _ = _
    rw [Array.getElem?_push_size]
    rfl
  · change ((w.store.instances.push _)[_]?).bind _ = _
    rw [Array.getElem?_push_size]
    rfl
  · change _ < (w.store.memories.push _).size
    rw [Array.size_push]
    exact Nat.lt_succ_self _

omit [Wasm.Machine] in
theorem created_evolves : Wasm.Evolves w.store (created w k e min max).store :=
  .extend _ _ #[_]

theorem Populated.created [Wasm.Machine.RunsTrampolines] (h : Populated w)
    (he : w.engines[k]? = some e) (hadmits : Admits e min max) :
    Populated (created w k e min max) where
  tidy := h.tidy.created he hadmits
  cached k' e' he' := by
    by_cases hk : k = k'
    · subst hk
      cases (created_engine he).symm.trans he'
      exact h.cached k e he
    · rw [created_engine_ne hk] at he'
      exact h.cached k' e' he'
  founded id m hm := by
    rw [created_memory, Array.getElem?_push] at hm
    split at hm
    · cases hm
      exact created_founded hadmits
    · exact (h.founded id m hm).later created_evolves
  lodged j i hi := by
    obtain ⟨m, hm, hlodged⟩ := h.lodged j i hi
    exact ⟨m, getElem?_push_of_some _ hm, hlodged.later created_evolves⟩
  apart j id i m hi hm := by
    rw [created_memory, Array.getElem?_push] at hm
    split at hm
    · cases hm
      obtain ⟨m₀, -, hlodged⟩ := h.lodged j i hi
      exact hlodged.lt_size.ne
    · exact h.apart j id i m hi hm
  distinct := h.distinct

theorem Populated.newMemory [Wasm.Machine.RunsTrampolines] (h : Populated w) (k : Nat)
    (min max : UInt32) :
    Populated (World.newMemory k min max w).2 := by
  by_cases hadmits : ∃ e, w.engines[k]? = some e ∧ Admits e min max
  · obtain ⟨e, he, hadmits⟩ := hadmits
    rw [newMemory_run he hadmits]
    exact h.created he hadmits
  · obtain ⟨f, hf⟩ := newMemory_refuses fun e he hadmits' => hadmits ⟨e, he, hadmits'⟩
    rw [hf]
    exact h

end

/-! ## New instances -/

/-- Guests run, and nothing else happens. -/
structure Executes (w w' : World) : Prop where
  store : Wasm.Evolves w.store w'.store
  memories : w'.memories = w.memories
  instances : w'.instances = w.instances

def executing : Frame where
  rel := Executes
  refl _ := ⟨.refl _, rfl, rfl⟩
  trans h g := ⟨h.1.trans g.1, g.2.trans h.2, g.3.trans h.3⟩

theorem executing_passive : executing.Passive where
  store _ _ hs := ⟨hs, rfl, rfl⟩
  compiled _ _ _ _ _ _ _ := ⟨.refl _, rfl, rfl⟩
  installed _ _ _ := ⟨.refl _, rfl, rfl⟩
  recorded _ _ _ := ⟨.refl _, rfl, rfl⟩

omit [Wasm.Machine] in
theorem postSignal_executing (sink : Option Sink) (s : Signal) :
    Keeps executing (postSignal sink s) := by
  intro w
  have h : BesideSignals w (postSignal sink s w).2 := postSignal_besideSignals sink s w
  refine ⟨?_, h.memories, h.instances⟩
  rw [h.store]
  exact .refl _

/-- A store only ever evolves. -/
def evolving : Frame where
  rel w w' := Wasm.Evolves w.store w'.store
  refl _ := .refl _
  trans h g := h.trans g

theorem evolving_lenient : evolving.Lenient where
  store _ _ hs := hs
  compiled _ _ _ _ _ _ _ := .refl _
  installed _ _ _ := .refl _
  recorded _ _ _ := .refl _
  enlisted _ _ := .refl _
  closed _ _ := .refl _

omit [Wasm.Machine] in
theorem postSignal_evolving (sink : Option Sink) (s : Signal) :
    Keeps evolving (postSignal sink s) := fun w => (postSignal_executing sink s w).store

section

variable {w w' : World} {k id inst : Nat} {e : Engine} {mem : SharedMemory} {m : Wasm.Module}
  {bytes : Bytes} {store : Wasm.Store} {sink : Option Sink} {cancelled : Bool}

/-- An instance that is linked is in the store, and its start function has run. -/
theorem link_ok (he : w.engines[k]? = some e) (h : link k m sink cancelled w = (.ok inst, w')) :
    ∃ store, w.store.instantiate e.modules e.pageLimit m = .ok (inst, store) ∧
      Executes (installed w k inst store) w' := by
  cases hinst : w.store.instantiate e.modules e.pageLimit m with
  | error reason => cases (link_refused he hinst).symm.trans h
  | ok out =>
    obtain ⟨inst', store⟩ := out
    rcases hfill : store.fill inst' with ⟨refusal, filled⟩
    cases refusal with
    | some reason => cases (link_unfilled he hinst hfill).symm.trans h
    | none =>
      have hfilled : Executes (installed w k inst' store) (installed w k inst' filled) :=
        ⟨fill_evolves hfill, rfl, rfl⟩
      cases hstart : m.start with
      | none =>
        cases (link_plain he hinst hfill hstart).symm.trans h
        exact ⟨store, rfl, hfilled⟩
      | some start =>
        rcases hcall : callFunction e sink cancelled inst' start [] (.startTrap (startName m start))
          (installed w k inst' filled) with ⟨r, w₂⟩
        have hexecutes : Executes (installed w k inst' filled) w₂ :=
          Keeps.of_run
            (callFunction_keeps executing_passive (postSignal_executing sink) _ _ _ _ _ _) hcall
        have hlink := (link_start he hinst hfill hstart hcall).symm.trans h
        cases r with
        | error f => cases hlink
        | ok results =>
          cases hlink
          exact ⟨store, rfl, executing.trans hfilled hexecutes⟩

/-- An engine offers its guests the memory that they are given, and the signal function. -/
theorem Populated.offers (h : Populated w) (hv : Vetted w k bytes e id mem m) :
    ∀ name p, e.modules.lookup name = some p → Wasm.Offers w.store mem.env mem.linear p := by
  obtain ⟨hclosed, -⟩ := accept?_ok hv.accepted
  obtain ⟨e', he', hmemory⟩ := h.tidy.memory id mem hv.memory hv.isOpen
  cases hv.own
  cases hv.engine.symm.trans he'
  obtain ⟨-, mem', hmem', huse⟩ := (h.tidy.engine _ e he').of_some (hmemory hclosed)
  cases hv.memory.symm.trans hmem'
  intro name p hp
  rw [huse.modules, offered, List.lookup_cons] at hp
  split at hp
  · cases hp
    obtain ⟨t, functions, hsignals, hstands, hlinear, -⟩ := h.founded id mem hv.memory
    exact .env hsignals hstands hlinear
  · rw [List.lookup_cons] at hp
    split at hp
    · cases hp
      refine .host fun f hf => ?_
      rw [List.mem_singleton.1 hf]
      rfl
    · cases hp

theorem Populated.lodges (h : Populated w) (hv : Vetted w k bytes e id mem m)
    (hinst : w.store.instantiate e.modules e.pageLimit m = .ok (inst, store)) :
    inst = w.store.instances.size ∧ Lodged store mem.env mem.linear inst := by
  obtain ⟨hsize, ⟨callees, hresident⟩, hlinear⟩ :=
    Wasm.instantiate_resident (h.offers hv) hinst
  exact ⟨hsize, m, callees, hresident, hlinear⟩

theorem Populated.enlist (h : Populated w) (hmem : w.memories[id]? = some mem)
    (hlodged : Lodged w.store mem.env mem.linear inst)
    (hinst : ∀ (j : Nat) i, w.instances[j]? = some i → i.inst ≠ inst)
    (henv : ∀ (id : Nat) (m : SharedMemory), w.memories[id]? = some m → m.env ≠ inst) :
    Populated (enlisted w k id inst sink) where
  tidy := h.tidy.sameLineup ⟨rfl, rfl⟩
  cached := h.cached
  founded := h.founded
  lodged j i hi := by
    change (w.instances.push _)[j]? = _ at hi
    rw [Array.getElem?_push] at hi
    split at hi
    · cases hi
      exact ⟨mem, hmem, hlodged⟩
    · exact h.lodged j i hi
  apart j id' i m hi hm := by
    change (w.instances.push _)[j]? = _ at hi
    rw [Array.getElem?_push] at hi
    split at hi
    · cases hi
      exact (henv id' m hm).symm
    · exact h.apart j id' i m hi hm
  distinct j j' i i' hi hi' hj := by
    change (w.instances.push _)[j]? = _ at hi
    change (w.instances.push _)[j']? = _ at hi'
    rw [Array.getElem?_push] at hi hi'
    split at hi
    · split at hi'
      · omega
      · cases hi
        exact (hinst j' i' hi').symm
    · split at hi'
      · cases hi'
        exact hinst j i hi
      · exact h.distinct j j' i i' hi hi' hj

theorem Populated.instantiate (h : Populated w) (k : Nat) (bytes : Bytes) (shared : Option Nat)
    (sink : Option Sink) (cancelled : Bool) :
    Populated (World.instantiate k bytes shared sink cancelled w).2 := by
  obtain ⟨w₁, -, hvet, hattempt⟩ := instantiate_attempt h.cached k bytes shared sink cancelled
  have h₁ : Populated w₁ := Keeps.of_run (vet_keeps populating_passive k bytes shared) hvet h
  generalize World.instantiate k bytes shared sink cancelled w = out at hattempt
  cases hattempt with
  | rejected => exact h₁
  | failed _ _ hlink =>
    exact Keeps.of_run (link_keeps populating_passive (postSignal_populating sink) k _ cancelled)
      hlink h₁
  | @entered e id inst mem m w₂ _ hv hlink =>
    have h₂ : Populated w₂ := Keeps.of_run
      (link_keeps populating_passive (postSignal_populating sink) k m cancelled) hlink h₁
    obtain ⟨store, hinst, hexecutes⟩ := link_ok hv.engine hlink
    obtain ⟨rfl, hlodged⟩ := h₁.lodges hv hinst
    refine h₂.enlist (hexecutes.memories ▸ hv.memory) (hlodged.later hexecutes.store) ?_ ?_
    · intro j i hi
      rw [hexecutes.instances] at hi
      obtain ⟨mem', -, hlodged'⟩ := h₁.lodged j i hi
      exact hlodged'.lt_size.ne
    · intro id' m' hm'
      rw [hexecutes.memories] at hm'
      exact (h₁.founded id' m' hm').lt_size.ne

/-! ## All requests -/

theorem Populated.after [Wasm.Machine.RunsTrampolines] (h : Populated w) (r : Request) :
    Populated (r.after w) := by
  cases r with
  | newEngine config => exact Request.after_newEngine w config ▸ h.newEngine config
  | closeEngine k => exact Request.after_closeEngine w k ▸ h.closeEngine k
  | newMemory k min max => exact Request.after_newMemory w k min max ▸ h.newMemory k min max
  | closeMemory id => exact Request.after_closeMemory w id ▸ h.closeMemory id
  | instantiate k bytes shared sink cancelled =>
    exact Request.after_instantiate w k bytes shared sink cancelled ▸
      h.instantiate k bytes shared sink cancelled
  | close j => exact Request.after_close w j ▸ h.closeInstance j
  | _ =>
    exact Request.Ordinary.keeps (by exact trivial) populating_passive postSignal_populating w h

theorem Blank.populated (h : Blank w) : Populated w where
  tidy := h.tidy
  cached k e he := by simp [h.engines] at he
  founded id m hm := by simp [h.memories] at hm
  lodged j i hi := by simp [h.instances] at hi
  apart j id i m hi := by simp [h.instances] at hi
  distinct j j' i i' hi := by simp [h.instances] at hi

theorem populated_afterAll [Wasm.Machine.RunsTrampolines] (h : Blank w) (history : List Request) :
    Populated (afterAll history w) :=
  afterAll_induction (fun r _ hw => hw.after r) h.populated history

end

end GuestThreads.World
