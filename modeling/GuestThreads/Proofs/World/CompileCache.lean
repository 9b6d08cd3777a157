import GuestThreads.Wasm.Assembly
import GuestThreads.Proofs.World.Lookalike

/-!
# What an engine has compiled

An engine keeps what it compiles and hands it out again for the same binary. That is all that comes
of it: `compile_cache_is_transparent` compares an engine with one that forgets, before each request,
what it has compiled.
-/

namespace GuestThreads.World

variable {w w' : World} {k : Nat}

/-! ## Without what was compiled -/

/-- The world, had its engines compiled nothing so far. -/
def uncompiled (w : World) : World := { w with engines := w.engines.map unstocked }

theorem lookalike_uncompiled [Wasm.Machine] (h : Cached w) : Lookalike w w.uncompiled := by
  refine ⟨?_, h, ?_⟩
  · rw [Array.map_map]
    rfl
  · intro k e he
    obtain ⟨e₀, -, rfl⟩ := Option.map_eq_some_iff.1 ((Array.getElem?_map ..).symm.trans he)
    exact fun bytes m hmem => absurd hmem List.not_mem_nil

/-- A reply, but for the place of a compiled module. -/
def Request.told : Request → Except Fault Reply → Except Fault Reply
  | .compile _ _, x => x.map fun _ => .done
  | _, x => x

/-- Lookalikes reply alike. -/
theorem Lookalike.perform [Wasm.Machine] (h : Lookalike w w') (r : Request) :
    r.told (r.perform w').1 = r.told (r.perform w).1 ∧ Lookalike (r.after w) (r.after w') := by
  have hblind {x : Try Reply} (hx : Blind x.run) :
      (x w').1 = (x w).1 ∧ Lookalike (x w).2 (x w').2 := hx h
  cases r with
  | newEngine config => exact hblind (.bind (newEngine_blind config) fun _ => .ok _)
  | closeEngine k => exact hblind (.bind (closeEngine_blind k) fun _ => .ok _)
  | compile k bytes =>
    have hrun (w : World) : ((do let _ ← compile k bytes; return .done : Try Reply) w) =
        ((Request.compile k bytes).told ((Request.compile k bytes).perform w).1,
          (Request.compile k bytes).after w) := by
      rw [Request.after, Request.perform, bind_run, bind_run]
      rcases compile k bytes w with ⟨_ | _, _⟩ <;> rfl
    have halike := hblind (compileThen_blind k bytes (fun _ _ => rfl) fun _ => .ok Reply.done)
    rwa [hrun, hrun] at halike
  | newMemory k min max => exact hblind (.bind (newMemory_blind k min max) fun _ => .ok _)
  | closeMemory id => exact hblind (.bind (closeMemory_blind id) fun _ => .ok _)
  | instantiate k bytes shared sink cancelled =>
    exact hblind (.bind (instantiate_blind k bytes shared sink cancelled) fun _ => .ok _)
  | call i name args cancelled =>
    exact hblind (.bind (callInstance_blind i name args cancelled) fun _ => .ok _)
  | global i name =>
    refine hblind (.readThen (fun _ _ h => by cases h; rfl) fun _ => ?_)
    exact .bind (liftExcept_blind _) fun _ => .ok _
  | setGlobal i name v => exact hblind (.bind (setInstanceGlobal_blind i name v) fun _ => .ok _)
  | close i => exact hblind (.bind (closeInstance_blind i) fun _ => .ok _)
  | read view offset length =>
    refine hblind (.readThen (fun _ _ h => by cases h; rfl) fun _ => ?_)
    exact .bind (liftExcept_blind _) fun _ => .ok _
  | write view offset bytes =>
    refine hblind (.readThen (fun _ _ h => by cases h; rfl) fun _ => ?_)
    exact .bind (alterMemory_blind _ _) fun _ => .ok _

/-- The outcomes of a session in which the world is prepared for each request. -/
def outcomes [Wasm.Machine] (prepare : World → World) :
    List Request → World → List (Except Fault Reply)
  | [], _ => []
  | r :: session, w =>
    r.told (r.perform (prepare w)).1 :: outcomes prepare session (r.after (prepare w))

theorem Lookalike.outcomes [Wasm.Machine] (h : Lookalike w w') (session : List Request) :
    outcomes uncompiled session w' = outcomes id session w := by
  induction session generalizing w w' with
  | nil => rfl
  | cons r session ih =>
    obtain ⟨htold, hnext⟩ := (h.trans (lookalike_uncompiled h.symm.cached)).perform r
    rw [World.outcomes, World.outcomes, ih hnext]
    exact congrArg (· :: _) htold

theorem Blank.cached [Wasm.Machine] (h : Blank w) : Cached w := by
  intro k e he
  rw [h.engines] at he
  simp at he

theorem cached_afterAll [Wasm.Machine] (h : Blank w) (history : List Request) :
    Cached (afterAll history w) :=
  afterAll_induction (P := Cached) (fun r _ hw => ((Lookalike.refl hw).perform r).2.cached)
    h.cached history

/-! ## What is kept -/

section

variable {e e' : Engine} {bytes : Bytes} {c : Compiled}

/-- What is found under a binary. -/
theorem cached?_eq_some_iff : e.cached? bytes = some c ↔
    e.cache.findIdx? (·.1 = bytes) = some c.place ∧ e.cache[c.place]? = some (bytes, c.module) := by
  constructor
  · intro h
    obtain ⟨place, hplace, h⟩ := Option.bind_eq_some_iff.1 h
    obtain ⟨⟨b, m⟩, hentry, h⟩ := Option.bind_eq_some_iff.1 h
    cases h
    obtain ⟨hlt, hfound, -⟩ := List.findIdx?_eq_some_iff_getElem.1 hplace
    rw [(List.getElem?_eq_some_iff.1 hentry).2] at hfound
    obtain rfl : b = bytes := by simpa using hfound
    exact ⟨hplace, hentry⟩
  · rintro ⟨hplace, hentry⟩
    simp [Engine.cached?, hplace, hentry]

theorem findIdx?_of_not_cached (h : e.cached? bytes = none) :
    e.cache.findIdx? (·.1 = bytes) = none := by
  by_contra hne
  obtain ⟨place, hplace⟩ := Option.ne_none_iff_exists'.1 hne
  have hlt := (List.findIdx?_eq_some_iff_getElem.1 hplace).1
  simp [Engine.cached?, hplace, List.getElem?_eq_getElem hlt] at h

/-- More modules do not get in the way of those that are there. -/
theorem cached?_of_initial (h : e.cached? bytes = some c) (hcache : e.cache <+: e'.cache) :
    e'.cached? bytes = some c := by
  obtain ⟨more, hmore⟩ := hcache
  obtain ⟨hplace, hentry⟩ := cached?_eq_some_iff.1 h
  have hlt := (List.getElem?_eq_some_iff.1 hentry).1
  refine cached?_eq_some_iff.2 ⟨?_, ?_⟩
  · rw [← hmore, List.findIdx?_append, hplace]
    rfl
  · rw [← hmore, List.getElem?_append_left hlt, hentry]

theorem compile_of_cached [Wasm.Machine] (he : w.engines[k]? = some e)
    (h : e.cached? bytes = some c) : compile k bytes w = (.ok c, w) := by
  rw [compile, bind_run, (engine_finds k).run he]
  dsimp only
  rw [h]
  rfl

/-- What compiling comes to: it fails and leaves no trace, or what it yields can be found. -/
theorem compile_cases [Wasm.Machine] (k : Nat) (bytes : Bytes) (w : World) :
    (∃ f, compile k bytes w = (.error f, w)) ∨
      ∃ c w' e, compile k bytes w = (.ok c, w') ∧ w'.engines[k]? = some e ∧
        e.cached? bytes = some c := by
  cases he : w.engines[k]? with
  | none =>
    rw [compile, bind_run, (engine_finds k).miss he]
    exact .inl ⟨_, rfl⟩
  | some e =>
    cases hcache : e.cached? bytes with
    | some c => exact .inr ⟨c, w, e, compile_of_cached he hcache, he, hcache⟩
    | none =>
      rw [compile, bind_run, (engine_finds k).run he]
      dsimp only
      rw [hcache]
      dsimp only
      cases e.accept? bytes with
      | none => exact .inl ⟨_, rfl⟩
      | some m =>
        refine .inr ⟨_, _, _, rfl, getElem?_modify_self he, cached?_eq_some_iff.2 ⟨?_, by simp⟩⟩
        rw [List.findIdx?_append, findIdx?_of_not_cached hcache]
        simp

end

/-- Engine `k` has at the same places what it had compiled. -/
def retaining (k : Nat) : Frame where
  rel w w' := ∀ e, w.engines[k]? = some e → ∃ e', w'.engines[k]? = some e' ∧ e.cache <+: e'.cache
  refl _ e he := ⟨e, he, List.prefix_rfl⟩
  trans h g e he := by
    obtain ⟨e', he', hcache⟩ := h e he
    obtain ⟨e'', he'', hcache'⟩ := g e' he'
    exact ⟨e'', he'', hcache.trans hcache'⟩

theorem retaining_modify {j : Nat} {f : Engine → Engine} (hf : ∀ e, e.cache <+: (f e).cache)
    (w : World) : (retaining k).rel w { w with engines := w.engines.modify j f } := by
  intro e he
  by_cases hj : j = k
  · subst hj
    exact ⟨f e, getElem?_modify_self he, hf e⟩
  · exact ⟨e, (getElem?_modify_ne hj).trans he, List.prefix_rfl⟩

theorem retaining_of_eq (h : w'.engines = w.engines) : (retaining k).rel w w' :=
  fun e he => ⟨e, h ▸ he, List.prefix_rfl⟩

theorem retaining_lenient [Wasm.Machine] : (retaining k).Lenient where
  store _ _ _ := retaining_of_eq rfl
  compiled w _ _ _ _ _ _ := retaining_modify (fun _ => List.prefix_append _ _) w
  installed w _ _ := by
    apply retaining_modify
    exact fun _ => List.prefix_rfl
  recorded _ _ _ := retaining_of_eq rfl
  enlisted _ _ := retaining_of_eq rfl
  closed _ _ := retaining_of_eq rfl

theorem postSignal_retaining (sink : Option Sink) (s : Signal) :
    Keeps (retaining k) (postSignal sink s) := fun w =>
  retaining_of_eq (postSignal_besideSignals sink s w).engines

/-- What each engine has compiled. -/
def caches (w : World) : Array (List (Bytes × Wasm.Module)) := w.engines.map (·.cache)

theorem retaining_of_caches (h : w'.caches = w.caches) : (retaining k).rel w w' := by
  intro e he
  obtain ⟨e', he', hcache⟩ := getElem?_of_map_eq h.symm he
  exact ⟨e', he', hcache ▸ List.prefix_rfl⟩

def sameCaches : Frame where
  rel w w' := w'.caches = w.caches
  refl _ := rfl
  trans h g := g.trans h

theorem sameCaches_furnishing : sameCaches.Furnishing where
  store _ _ _ := rfl
  recorded _ _ _ := rfl
  memories _ _ := rfl
  offered _ _ _ hf := map_modify fun e => by
    obtain ⟨modules, instances, memory, heq⟩ := hf e
    rw [heq]

/-- Neither memories nor instances take anything with them when they are closed. -/
theorem closeMemory_sameCaches (id : Nat) : Keeps sameCaches (closeMemory id).run := by
  have hset {j : Nat} {f : Engine → Engine} (hf : ∀ e, (f e).cache = e.cache) :
      Keeps sameCaches (setEngine j f) := fun _ => map_modify hf
  have hforget (m : SharedMemory) : Keeps sameCaches (setEngine m.engine fun e =>
      if e.memory = some id then { e with memory := none } else e) :=
    hset fun e => by split <;> rfl
  refine .bind (memory_finds id).keeps fun m => ?_
  split
  · refine .bind (.alter fun _ => rfl) fun _ => ?_
    exact .bind (.lift (hset fun _ => rfl)) fun _ => .lift (hforget m)
  · exact .lift (hforget m)

theorem closeInstance_sameCaches (i : Nat) : Keeps sameCaches (closeInstance i).run :=
  .bind (liveInstance_finds i).keeps fun _ => .alter fun _ => rfl

/-- Only when it is closed does an engine forget what it has compiled. -/
theorem Request.retains [Wasm.Machine] {r : Request} (h : r ≠ .closeEngine k) (w : World) :
    (retaining k).rel w (r.after w) := by
  cases r with
  | newEngine config =>
    rw [after_newEngine]
    rcases newEngine_cases config w with ⟨f, hf⟩ | ⟨record, hnew⟩
    · rw [hf]
      exact (retaining k).refl w
    · rw [hnew]
      exact fun e he => ⟨e, getElem?_push_of_some _ he, List.prefix_rfl⟩
  | closeEngine j =>
    have hj : j ≠ k := fun heq => h (heq ▸ rfl)
    rw [after_closeEngine]
    cases he : w.engines[j]? with
    | none =>
      rw [World.closeEngine, bind_run, (engine_finds j).miss he]
      exact (retaining k).refl w
    | some e =>
      rw [closeEngine_run he]
      exact fun e' he' => ⟨e', (getElem?_modify_ne hj).trans he', List.prefix_rfl⟩
  | newMemory j min max =>
    rw [after_newMemory]
    exact retaining_of_caches (newMemory_keeps sameCaches_furnishing j min max w)
  | closeMemory id =>
    rw [after_closeMemory]
    exact retaining_of_caches (closeMemory_sameCaches id w)
  | _ => exact Minor.keeps (by trivial) retaining_lenient postSignal_retaining w

theorem afterAll_retains [Wasm.Machine] {later : List Request} (h : .closeEngine k ∉ later)
    (w : World) : (retaining k).rel w (afterAll later w) := by
  induction later generalizing w with
  | nil => exact (retaining k).refl w
  | cons r later ih =>
    rw [List.mem_cons, not_or] at h
    exact (retaining k).trans (Request.retains (Ne.symm h.1) w) (ih h.2 (r.after w))

/-! ## Transparency -/

/-- A request that closes an instance or a memory. -/
def Request.Closing : Request → Prop
  | .close _ | .closeMemory _ => True
  | _ => False

/-- What can be relied on of the modules that engine `k` compiles. -/
structure CacheLaws [Wasm.Machine] (w : World) (k : Nat) : Prop where
  /-- Nothing depends on what was compiled before. -/
  outcome : ∀ r : Request, r.told (r.perform w.uncompiled).1 = r.told (r.perform w).1
  module : ∀ bytes, (compile k bytes w.uncompiled).1.map (·.module) =
    (compile k bytes w).1.map (·.module)
  failed : ∀ {bytes f w'}, compile k bytes w = (.error f, w') → w' = w
  closing : ∀ {r : Request}, r.Closing → (r.after w).caches = w.caches
  /-- What was compiled is found again until the engine is closed. -/
  lasting : ∀ {bytes c w' later}, compile k bytes w = (.ok c, w') → .closeEngine k ∉ later →
    compile k bytes (afterAll later w') = (.ok c, afterAll later w')
  /-- Compiled modules are the same just when their binaries are. -/
  identity : ∀ {bytes c w' later bytes' c' w''}, compile k bytes w = (.ok c, w') →
    .closeEngine k ∉ later → compile k bytes' (afterAll later w') = (.ok c', w'') →
    (c' = c ↔ bytes' = bytes) ∧ (c'.place = c.place ↔ bytes' = bytes)

section

variable {bytes bytes' : Bytes} {c c' : Compiled} {later : List Request}

theorem cached?_later [Wasm.Machine] (h : compile k bytes w = (.ok c, w'))
    (hlater : .closeEngine k ∉ later) :
    ∃ e, (afterAll later w').engines[k]? = some e ∧ e.cached? bytes = some c := by
  rcases compile_cases k bytes w with ⟨f, hf⟩ | ⟨c₁, w₁, e₁, hok, he₁, hcache₁⟩
  · cases hf.symm.trans h
  · cases hok.symm.trans h
    obtain ⟨e, he, hinitial⟩ := afterAll_retains hlater _ e₁ he₁
    exact ⟨e, he, cached?_of_initial hcache₁ hinitial⟩

/-- An engine holds no two binaries under one place. -/
theorem cached?_identity {e : Engine} (h : e.cached? bytes = some c)
    (h' : e.cached? bytes' = some c') :
    (c' = c ↔ bytes' = bytes) ∧ (c'.place = c.place ↔ bytes' = bytes) := by
  have hentry := (cached?_eq_some_iff.1 h).2
  have hentry' := (cached?_eq_some_iff.1 h').2
  have hsame : bytes' = bytes → c' = c := fun heq => Option.some.inj (h'.symm.trans (heq ▸ h))
  have hplace : c'.place = c.place → bytes' = bytes := fun heq => by
    rw [heq, hentry] at hentry'
    exact (congrArg Prod.fst (Option.some.inj hentry')).symm
  exact ⟨⟨fun heq => hplace (congrArg _ heq), hsame⟩, hplace, fun heq => congrArg _ (hsame heq)⟩

theorem compiled_identity [Wasm.Machine] {w'' : World} (h : compile k bytes w = (.ok c, w'))
    (hlater : .closeEngine k ∉ later)
    (h' : compile k bytes' (afterAll later w') = (.ok c', w'')) :
    (c' = c ↔ bytes' = bytes) ∧ (c'.place = c.place ↔ bytes' = bytes) := by
  -- In the end the engine holds both modules.
  obtain ⟨e, he, hcache⟩ := cached?_later h hlater
  have hretains := Request.retains (r := .compile k bytes') (k := k) (by simp) (afterAll later w')
  obtain ⟨e₂, he₂, hinitial⟩ := hretains e he
  rw [Request.after_compile, h'] at he₂
  obtain ⟨e', he', hcache'⟩ := cached?_later h' List.not_mem_nil
  cases he₂.symm.trans he'
  exact cached?_identity (cached?_of_initial hcache hinitial) hcache'

end

theorem cacheLaws [Wasm.Machine] (h : Cached w) (k : Nat) : CacheLaws w k where
  outcome r := ((lookalike_uncompiled h).perform r).1
  module bytes := compile_alike (lookalike_uncompiled h) k bytes
  failed {bytes _ _} hrun := by
    rcases compile_cases k bytes w with ⟨f, hf⟩ | ⟨c, w₁, e, hok, -⟩
    · cases hf.symm.trans hrun
      rfl
    · cases hok.symm.trans hrun
  closing {r} hclosing := by
    cases r with
    | close i =>
      rw [Request.after_close]
      exact closeInstance_sameCaches i w
    | closeMemory id =>
      rw [Request.after_closeMemory]
      exact closeMemory_sameCaches id w
    | _ => exact hclosing.elim
  lasting hrun hlater := by
    obtain ⟨e, he, hcache⟩ := cached?_later hrun hlater
    exact compile_of_cached he hcache
  identity hrun hlater hrun' := compiled_identity hrun hlater hrun'

/-- **That an engine keeps what it compiles does not show**, other than in that it hands out the
same module for the same binary: whatever is asked of the engines, all replies are those of engines
that forget before each request what they have compiled. -/
theorem compile_cache_is_transparent [Wasm.Machine] (h : Blank w) (history : List Request) :
    outcomes uncompiled history w = outcomes id history w ∧
      ∀ k, CacheLaws (afterAll history w) k :=
  ⟨(Lookalike.refl h.cached).outcomes history, cacheLaws (cached_afterAll h history)⟩

/-- A guest with nothing but a memory. -/
def idler : Wasm.Assembly where
  memory := some { module := "env", name := "memory", min := 1, max := 2, shared := true }

/-- Two modules are compiled, one of them for an instance that is closed again, and a binary is
refused. The first is then compiled once more. -/
def recompilation : List Request :=
  [.newEngine none, .compile 0 Wasm.header, .compile 0 [], .newMemory 0 1 2,
    .instantiate 0 idler.encode (some 0) none false, .close 0, .closeMemory 0,
    .compile 0 Wasm.header]

theorem recompilation_is_transparent :
    outcomes uncompiled recompilation {} = outcomes id recompilation {} ∧
      (outcomes id recompilation {}).map (·.toBool) =
        [true, true, false, true, true, true, true, true] ∧
      (afterAll recompilation {}).caches.toList.map (·.map (·.1)) =
        [[Wasm.header, idler.encode]] ∧
      CacheLaws (afterAll recompilation {}) 0 := by
  have hall := compile_cache_is_transparent (w := {}) ⟨rfl, rfl, rfl, rfl⟩ recompilation
  have hreplies : (outcomes id recompilation {}).map (·.toBool) =
      [true, true, false, true, true, true, true, true] := by
    decide +kernel
  have hcaches : (afterAll recompilation {}).caches.toList.map (·.map (·.1)) =
      [[Wasm.header, idler.encode]] := by
    decide +kernel
  exact ⟨hall.1, hreplies, hcaches, hall.2 0⟩

end GuestThreads.World
