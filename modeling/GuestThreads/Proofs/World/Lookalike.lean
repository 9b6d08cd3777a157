import GuestThreads.Proofs.World.Instantiation

/-!
# Worlds that differ in what was compiled

An engine looks at what it has compiled only to compile, and a module from there is the one that the
binary denotes. So a request to an engine comes to the same in two worlds that differ in nothing but
what their engines have compiled and in the records: no action can tell them apart.
-/

namespace GuestThreads.World

variable {α β : Type}

/-! ## Lookalikes -/

/-- The engine, had it compiled nothing. -/
def unstocked (e : Engine) : Engine := { e with cache := [] }

theorem eq_of_unstocked {e e' : Engine} (h : unstocked e' = unstocked e) :
    e' = { e with cache := e'.cache } := by
  cases e
  cases e'
  simpa [unstocked] using h

theorem map_modify_congr {k : Nat} {xs ys : Array α} {f : α → α} {g : α → β}
    (h : xs.map g = ys.map g) (hf : ∀ a b, g a = g b → g (f a) = g (f b)) :
    (xs.modify k f).map g = (ys.modify k f).map g := by
  apply Array.ext_getElem?
  intro i
  have hi := congrArg (·[i]?) h
  simp only [Array.getElem?_map, Array.getElem?_modify] at hi ⊢
  cases hx : xs[i]? with
  | none =>
    rw [hx] at hi
    cases hy : ys[i]? with
    | none => rfl
    | some b => simp [hy] at hi
  | some a =>
    rw [hx] at hi
    cases hy : ys[i]? with
    | none => simp [hy] at hi
    | some b =>
      simp only [hy, Option.map_some, Option.some.injEq] at hi
      by_cases hk : k = i
      · simpa [hk] using hf a b hi
      · simpa [hk] using hi

variable [Wasm.Machine]

/-- What the engines have compiled, and the records, may differ; what was compiled is what the
engines accept. -/
inductive Lookalike (w : World) : World → Prop
  | mk {engines : Array Engine} {logs : Array Log.Record}
      (hengines : engines.map unstocked = w.engines.map unstocked) (hcached : Cached w)
      (hcached' : Cached { w with engines := engines }) :
      Lookalike w { w with engines := engines, logs := logs }

namespace Lookalike

variable {w w' w'' : World}

theorem refl (h : Cached w) : Lookalike w w := ⟨rfl, h, h⟩

theorem symm (h : Lookalike w w') : Lookalike w' w := by
  obtain ⟨hengines, hcached, hcached'⟩ := h
  exact ⟨hengines.symm, hcached', hcached⟩

theorem trans (h : Lookalike w w') (h' : Lookalike w' w'') : Lookalike w w'' := by
  obtain ⟨hengines, hcached, -⟩ := h
  obtain ⟨hengines', -, hcached'⟩ := h'
  exact ⟨hengines'.trans hengines, hcached, hcached'⟩

theorem cached (h : Lookalike w w') : Cached w := by
  obtain ⟨-, hcached, -⟩ := h
  exact hcached

theorem store (h : Lookalike w w') : w'.store = w.store := by
  cases h
  rfl

theorem memories (h : Lookalike w w') : w'.memories = w.memories := by
  cases h
  rfl

theorem instances (h : Lookalike w w') : w'.instances = w.instances := by
  cases h
  rfl

theorem engines (h : Lookalike w w') : w'.engines.map unstocked = w.engines.map unstocked := by
  obtain ⟨hengines, -, -⟩ := h
  exact hengines

theorem engine (h : Lookalike w w') {k : Nat} {e : Engine} (he : w.engines[k]? = some e) :
    ∃ cache, w'.engines[k]? = some { e with cache := cache } := by
  obtain ⟨e', he', heq⟩ := getElem?_of_map_eq h.engines.symm he
  exact ⟨e'.cache, he'.trans (congrArg some (eq_of_unstocked heq.symm))⟩

theorem engine_none (h : Lookalike w w') {k : Nat} (he : w.engines[k]? = none) :
    w'.engines[k]? = none := by
  have hsize := congrArg Array.size h.engines
  rw [Array.size_map, Array.size_map] at hsize
  rw [Array.getElem?_eq_none_iff] at he ⊢
  omega

end Lookalike

/-! ## Actions that cannot tell lookalikes apart -/

/-- Run in lookalikes, the action yields the same and leaves lookalikes. -/
def Blind (x : Act α) : Prop :=
  ∀ ⦃w w' : World⦄, Lookalike w w' → (x w').1 = (x w).1 ∧ Lookalike (x w).2 (x w').2

namespace Blind

theorem done (a : α) : Blind (pure a : Act α) := fun _ _ h => ⟨rfl, h⟩

theorem seq {x : Act α} {f : α → Act β} (hx : Blind x) (hf : ∀ a, Blind (f a)) :
    Blind (x >>= f) := by
  intro w w' h
  obtain ⟨hsame, hnext⟩ := hx h
  change (f (x w').1 (x w').2).1 = (f (x w).1 (x w).2).1 ∧
    Lookalike (f (x w).1 (x w).2).2 (f (x w').1 (x w').2).2
  rw [hsame]
  exact hf (x w).1 hnext

theorem change {f : World → World} (h : ∀ ⦃w w'⦄, Lookalike w w' → Lookalike (f w) (f w')) :
    Blind (modify f : Act Unit) := fun _ _ hw => ⟨rfl, h hw⟩

theorem forEach {l : List α} {f : α → Act Unit} (h : ∀ a, Blind (f a)) : Blind (l.forM f) := by
  induction l with
  | nil => exact done ()
  | cons a l ih => exact seq (h a) fun _ => ih

theorem ok (a : α) : Blind (pure a : Try α).run := fun _ _ h => ⟨rfl, h⟩

theorem fail (f : Fault) : Blind (throw f : Try α).run := fun _ _ h => ⟨rfl, h⟩

theorem lift {x : Act α} (hx : Blind x) : Blind (liftM x : Try α).run := by
  intro w w' h
  obtain ⟨hsame, hnext⟩ := hx h
  exact ⟨congrArg Except.ok hsame, hnext⟩

/-- The change has nothing to do with engines and records. -/
theorem beside {f : World → World} (h : ∀ w engines logs,
    f { w with engines := engines, logs := logs } =
      { f w with engines := engines, logs := logs }) : Blind (modify f : Act Unit) := by
  refine change fun w w' hw => ?_
  obtain ⟨hengines, hcached, hcached'⟩ := hw
  rename_i engines logs
  have hself : (f w).engines = w.engines := by
    have hown := h w w.engines w.logs
    exact (congrArg World.engines hown :)
  rw [h w engines logs]
  refine ⟨by rw [hself]; exact hengines, fun k e he => ?_, hcached'⟩
  rw [hself] at he
  exact hcached k e he

/-- What is done next may depend on what lookalikes have in common. -/
theorem look {f : World → Act α} (hsame : ∀ ⦃w w'⦄, Lookalike w w' → f w' = f w)
    (hf : ∀ w, Blind (f w)) : Blind (get >>= f) := by
  intro w w' h
  change (f w' w').1 = (f w w).1 ∧ Lookalike (f w w).2 (f w' w').2
  rw [hsame h]
  exact hf w h

theorem bind {x : Try α} {f : α → Try β} (hx : Blind x.run) (hf : ∀ a, Blind (f a).run) :
    Blind (x >>= f).run := by
  intro w w' h
  have hfirst : (x w').1 = (x w).1 ∧ Lookalike (x w).2 (x w').2 := hx h
  change ((x >>= f) w').1 = ((x >>= f) w).1 ∧ Lookalike ((x >>= f) w).2 ((x >>= f) w').2
  rw [bind_run, bind_run]
  rcases hw : x w with ⟨e | a, v⟩ <;> rcases hw' : x w' with ⟨e' | a', v'⟩ <;>
    rw [hw, hw'] at hfirst
  · cases hfirst.1
    exact ⟨rfl, hfirst.2⟩
  · cases hfirst.1
  · cases hfirst.1
  · cases hfirst.1
    exact hf a hfirst.2

theorem readThen {f : World → Try α} (hsame : ∀ ⦃w w'⦄, Lookalike w w' → f w' = f w)
    (hf : ∀ w, Blind (f w).run) : Blind (get >>= f).run := by
  intro w w' h
  change (f w' w').1 = (f w w).1 ∧ Lookalike (f w w).2 (f w' w').2
  rw [hsame h]
  exact hf w h

theorem failThen (f : Fault) (g : α → Try β) : Blind ((throw f : Try α) >>= g).run :=
  fun _ _ h => ⟨rfl, h⟩

theorem forAll {l : List α} {f : α → Try Unit} (h : ∀ a, Blind (f a).run) :
    Blind (l.forM f).run := by
  induction l with
  | nil => exact ok ()
  | cons a l ih => exact bind (h a) fun _ => ih

theorem orElse {x : Try α} {handler : Fault → Try α} (hx : Blind x.run)
    (hhandler : ∀ f, Blind (handler f).run) : Blind (tryCatch x handler).run := by
  intro w w' h
  have hfirst : (x w').1 = (x w).1 ∧ Lookalike (x w).2 (x w').2 := hx h
  change ((tryCatch x handler) w').1 = ((tryCatch x handler) w).1 ∧
    Lookalike ((tryCatch x handler) w).2 ((tryCatch x handler) w').2
  rw [tryCatch_run, tryCatch_run]
  rcases hw : x w with ⟨e | a, v⟩ <;> rcases hw' : x w' with ⟨e' | a', v'⟩ <;>
    rw [hw, hw'] at hfirst
  · cases hfirst.1
    exact hhandler e hfirst.2
  · cases hfirst.1
  · cases hfirst.1
  · exact hfirst

end Blind

/-! ## Engines and their store -/

section

variable {w w' : World} {k : Nat}

/-- The change does not depend on what an engine has compiled, and leaves it acceptable. -/
structure Neutral (f : Engine → Engine) : Prop where
  unstocked : ∀ e cache, unstocked (f { e with cache := cache }) = unstocked (f e)
  accepted : ∀ e, Accepted e → Accepted (f e)

theorem neutral_of_eq {f : Engine → Engine}
    (hunstocked : ∀ e cache, unstocked (f { e with cache := cache }) = unstocked (f e))
    (hf : ∀ e, (f e).config = e.config ∧ (f e).closed = e.closed ∧ (f e).cache = e.cache) :
    Neutral f := by
  refine ⟨hunstocked, fun e h bytes m hmem => ?_⟩
  obtain ⟨hconfig, hclosed, hcache⟩ := hf e
  rw [hcache] at hmem
  rw [accept?_congr hconfig hclosed]
  exact h bytes m hmem

theorem Cached.modify {f : Engine → Engine} (hf : Neutral f) (h : Cached w) :
    Cached { w with engines := w.engines.modify k f } := by
  intro j e he
  dsimp only at he
  rw [Array.getElem?_modify] at he
  split at he
  · obtain ⟨e₀, he₀, rfl⟩ := Option.map_eq_some_iff.1 he
    exact hf.accepted e₀ (h j e₀ he₀)
  · exact h j e he

theorem Lookalike.modify {f : Engine → Engine} (hf : Neutral f) (h : Lookalike w w') :
    Lookalike { w with engines := w.engines.modify k f }
      { w' with engines := w'.engines.modify k f } := by
  obtain ⟨hengines, hcached, hcached'⟩ := h
  refine ⟨map_modify_congr hengines fun a b hab => ?_, hcached.modify hf, hcached'.modify hf⟩
  rw [eq_of_unstocked hab, hf.unstocked]

theorem setEngine_blind {f : Engine → Engine} (hf : Neutral f) (k : Nat) :
    Blind (setEngine k f) :=
  .change fun _ _ h => h.modify hf

theorem log_blind (source : Log.Source) (level : Log.Level) (message : String)
    (fields : List (String × Log.Value)) : Blind (log source level message fields) := by
  refine .change fun _ _ h => ?_
  obtain ⟨hengines, hcached, hcached'⟩ := h
  exact ⟨hengines, hcached, hcached'⟩

theorem engineThen_blind {f : Engine → Try α} (k : Nat)
    (hsame : ∀ e cache, f { e with cache := cache } = f e) (hf : ∀ e, Blind (f e).run) :
    Blind (engine k >>= f).run := by
  intro w w' h
  change ((engine k >>= f) w').1 = ((engine k >>= f) w).1 ∧
    Lookalike ((engine k >>= f) w).2 ((engine k >>= f) w').2
  rw [bind_run, bind_run]
  cases he : w.engines[k]? with
  | none =>
    rw [(engine_finds k).miss he, (engine_finds k).miss (h.engine_none he)]
    exact ⟨rfl, h⟩
  | some e =>
    obtain ⟨cache, he'⟩ := h.engine he
    rw [(engine_finds k).run he, (engine_finds k).run he']
    dsimp only
    rw [hsame]
    exact hf e h

theorem memory_blind (k : Nat) : Blind (memory k).run := by
  refine .readThen (fun _ _ h => by rw [h.memories]) fun w => ?_
  cases w.memories[k]? with
  | none => exact .fail _
  | some m => exact .ok m

theorem liveInstance_blind (k : Nat) : Blind (liveInstance k).run := by
  refine .readThen (fun _ _ h => by rw [h.instances]) fun w => ?_
  cases w.instances[k]? with
  | none => exact .fail _
  | some i => exact .ok i

theorem liftExcept_blind (r : Except Fault α) : Blind (liftExcept r).run := fun _ _ h => ⟨rfl, h⟩

end

/-! ## Signals and calls -/

theorem deliver_blind (outbox : Outbox) (s : Signal) : Blind (deliver outbox s) := by
  cases outbox <;> exact .beside fun _ _ _ => rfl

theorem postSignal_blind (sink : Option Sink) (s : Signal) : Blind (postSignal sink s) := by
  unfold postSignal
  split
  · exact log_blind _ _ _ _
  · exact deliver_blind _ _
  · refine .look (fun _ _ h => ?_) fun w => ?_
    · cases h
      rfl
    · split
      · exact .done ()
      · exact .seq (.beside fun _ _ _ => rfl) fun _ => .forEach fun s => deliver_blind _ s

theorem enterCallee_blind (callee : Wasm.Callee) (args : List UInt64) :
    Blind (enterCallee callee args).run := by
  cases callee with
  | host function => exact .ok _
  | code definer target =>
    refine .readThen (fun _ _ h => by rw [h.store]) fun w => ?_
    split
    · exact .fail _
    · exact .ok _

theorem enterCall_blind (e : Engine) (cancelled : Bool) (inst index : Nat) (args : List UInt64) :
    Blind (enterCall e cancelled inst index args).run := by
  refine .readThen (fun _ _ h => by rw [h.store]) fun w => ?_
  split
  · split
    · split
      · dsimp only
        split
        · exact .failThen _ _
        · split
          · refine .bind (.lift (.beside fun _ _ _ => rfl)) fun _ => ?_
            refine .readThen (fun _ _ h => by rw [h.store]) fun _ => .failThen _ _
          · exact enterCallee_blind _ _
      · exact .fail _
    · exact .fail _
  · exact .fail _

theorem execute_blind (sink : Option Sink) (trap : Wasm.Trap → List Wasm.Call → Cause)
    (entry : Entry) : Blind (execute sink trap entry).run := by
  unfold execute
  cases entry with
  | code frame =>
    refine .readThen (fun _ _ h => by rw [h.store]) fun w => ?_
    generalize Wasm.run Wasm.signalHost Wasm.Machine.stepLimit [] w.store [frame] = out
    obtain ⟨ending, signals, store⟩ := out
    refine .bind (.lift (.beside fun _ _ _ => rfl)) fun _ => ?_
    exact .bind (.forAll fun s => .lift (postSignal_blind sink s)) fun _ => liftExcept_blind _
  | host args =>
    dsimp only
    split
    · exact .fail _
    · exact .bind (.lift (postSignal_blind sink _)) fun _ => .ok _

theorem unlessClosed_blind (owner : Wasm.Owner) (results : List UInt64) :
    Blind (unlessClosed owner results).run := by
  refine .readThen (fun _ _ h => by rw [h.store]) fun w => ?_
  split
  · exact .fail _
  · exact .ok _

theorem callFunction_blind (e : Engine) (sink : Option Sink) (cancelled : Bool) (inst index : Nat)
    (args : List UInt64) (trap : Wasm.Trap → List Wasm.Call → Cause) :
    Blind (callFunction e sink cancelled inst index args trap).run :=
  .bind (enterCall_blind e cancelled inst index args) fun entered =>
    .bind (execute_blind sink trap entered.2) fun results => unlessClosed_blind entered.1 results

/-! ## Compiling -/

section

variable {w w' : World} {k : Nat} {bytes : Bytes}

/-- Compiling may add to what was compiled, and to the records. -/
theorem compile_lookalike (h : Cached w) (k : Nat) (bytes : Bytes) :
    Lookalike w (compile k bytes w).2 := by
  rw [compile, bind_run]
  cases he : w.engines[k]? with
  | none =>
    rw [(engine_finds k).miss he]
    exact .refl h
  | some e =>
    rw [(engine_finds k).run he]
    dsimp only
    cases e.cached? bytes with
    | some c => exact .refl h
    | none =>
      dsimp only
      cases haccept : e.accept? bytes with
      | none => exact .refl h
      | some m =>
        have hengines : (w.engines.modify k fun e => { e with
            cache := e.cache ++ [(bytes, m)] }).map unstocked = w.engines.map unstocked :=
          map_modify fun _ => rfl
        exact ⟨hengines, h, cached_of_compiled h he haccept rfl⟩

/-- Lookalikes compile alike, but for the place of what they compile. -/
theorem compile_alike (h : Lookalike w w') (k : Nat) (bytes : Bytes) :
    (compile k bytes w').1.map (·.module) = (compile k bytes w).1.map (·.module) := by
  cases he : w.engines[k]? with
  | none =>
    rw [compile, bind_run, bind_run, (engine_finds k).miss he,
      (engine_finds k).miss (h.engine_none he)]
  | some e =>
    obtain ⟨cache, he'⟩ := h.engine he
    obtain ⟨place, v, hrun, -⟩ := compile_run h.cached he bytes
    obtain ⟨place', v', hrun', -⟩ := compile_run h.symm.cached he' bytes
    have haccepting : accepting { e with cache := cache } bytes = accepting e bytes := rfl
    rw [hrun, hrun', haccepting]
    cases accepting e bytes <;> rfl

/-- The place of a compiled module is of no consequence. -/
theorem compileThen_blind {f : Compiled → Try α} (k : Nat) (bytes : Bytes)
    (hsame : ∀ c place, f { c with place := place } = f c) (hf : ∀ c, Blind (f c).run) :
    Blind (compile k bytes >>= f).run := by
  intro w w' h
  have hnext : Lookalike (compile k bytes w).2 (compile k bytes w').2 :=
    ((compile_lookalike h.cached k bytes).symm.trans h).trans
      (compile_lookalike h.symm.cached k bytes)
  have halike := compile_alike h k bytes
  change ((compile k bytes >>= f) w').1 = ((compile k bytes >>= f) w).1 ∧
    Lookalike ((compile k bytes >>= f) w).2 ((compile k bytes >>= f) w').2
  rw [bind_run, bind_run]
  rcases hw : compile k bytes w with ⟨e | c, v⟩ <;>
    rcases hw' : compile k bytes w' with ⟨e' | c', v'⟩ <;> rw [hw, hw'] at halike hnext
  · cases halike
    exact ⟨rfl, hnext⟩
  · cases halike
  · cases halike
  · have hmodule : c'.module = c.module := Except.ok.inj halike
    have hc : c' = { c with place := c'.place } := by rw [← hmodule]
    dsimp only
    rw [hc, hsame]
    exact hf c hnext

end

/-! ## Instances -/

theorem vet_blind (k : Nat) (bytes : Bytes) (shared : Option Nat) :
    Blind (vet k bytes shared).run := by
  refine engineThen_blind k (fun _ _ => rfl) fun e => ?_
  split
  · refine .bind (memory_blind _) fun m => ?_
    dsimp only
    split
    · exact .failThen _ _
    · split
      · exact .failThen _ _
      · refine .readThen (fun w w' h => ?_) fun w => ?_
        · cases h
          rfl
        · split
          · exact .failThen _ _
          · exact compileThen_blind k bytes (fun _ _ => rfl) fun _ => .ok _
  · exact .fail _

theorem Lookalike.installed {w w' : World} (h : Lookalike w w') (k inst : Nat)
    (store : Wasm.Store) :
    Lookalike (World.installed w k inst store) (World.installed w' k inst store) := by
  have hmodify : Lookalike { w with engines := w.engines.modify k fun e =>
        { e with instances := .instance inst :: e.instances } }
      { w' with engines := w'.engines.modify k fun e =>
        { e with instances := .instance inst :: e.instances } } := by
    refine h.modify ?_
    exact neutral_of_eq (fun _ _ => rfl) fun _ => ⟨rfl, rfl, rfl⟩
  cases h
  obtain ⟨hengines, hcached, hcached'⟩ := hmodify
  exact ⟨hengines, hcached, hcached'⟩

theorem link_blind (k : Nat) (m : Wasm.Module) (sink : Option Sink) (cancelled : Bool) :
    Blind (link k m sink cancelled).run := by
  intro w w' h
  change (link k m sink cancelled w').1 = (link k m sink cancelled w).1 ∧
    Lookalike (link k m sink cancelled w).2 (link k m sink cancelled w').2
  cases he : w.engines[k]? with
  | none =>
    rw [link, bind_run, bind_run, install, bind_run, bind_run, (engine_finds k).miss he,
      (engine_finds k).miss (h.engine_none he)]
    exact ⟨rfl, h⟩
  | some e =>
    obtain ⟨cache, he'⟩ := h.engine he
    have hsame : w'.store.instantiate e.modules e.pageLimit m =
        w.store.instantiate e.modules e.pageLimit m := by rw [h.store]
    cases hinst : w.store.instantiate e.modules e.pageLimit m with
    | error reason =>
      rw [link_refused he hinst, link_refused he' (hsame.trans hinst)]
      exact ⟨rfl, h⟩
    | ok installed =>
      obtain ⟨inst, store⟩ := installed
      have hinst' := hsame.trans hinst
      rcases hfill : store.fill inst with ⟨_ | reason, filled⟩
      · have hinstalled := h.installed k inst filled
        cases hstart : m.start with
        | none =>
          rw [link_plain he hinst hfill hstart, link_plain he' hinst' hfill hstart]
          exact ⟨rfl, hinstalled⟩
        | some start =>
          have hcall := callFunction_blind e sink cancelled inst start []
            (.startTrap (startName m start)) hinstalled
          rcases hrun : callFunction e sink cancelled inst start []
            (.startTrap (startName m start)) (World.installed w k inst filled) with ⟨r, v⟩
          rcases hrun' : callFunction e sink cancelled inst start []
            (.startTrap (startName m start)) (World.installed w' k inst filled) with ⟨r', v'⟩
          rw [ExceptT.run, hrun, hrun'] at hcall
          rw [link_start he hinst hfill hstart hrun, link_start he' hinst' hfill hstart hrun']
          exact ⟨congrArg (Except.map fun _ => inst) hcall.1, hcall.2⟩
      · rw [link_unfilled he hinst hfill, link_unfilled he' hinst' hfill]
        exact ⟨rfl, h.installed k inst filled⟩

theorem enlist_blind (k memoryId inst : Nat) (sink : Option Sink) :
    Blind (enlist k memoryId inst sink) := by
  intro w w' h
  obtain ⟨hengines, hcached, hcached'⟩ := h
  exact ⟨rfl, hengines, hcached, hcached'⟩

theorem instantiate_blind (k : Nat) (bytes : Bytes) (shared : Option Nat) (sink : Option Sink)
    (cancelled : Bool) : Blind (instantiate k bytes shared sink cancelled).run := by
  refine .orElse (.bind (vet_blind k bytes shared) fun vetted => ?_) fun f => .fail _
  exact .bind (link_blind k _ sink cancelled) fun inst => .lift (enlist_blind k _ inst sink)

theorem findFunction_alike {w w' : World} (h : Lookalike w w') (k : Nat) (name : String) :
    (∃ f, findFunction k name w = (.error f, w) ∧ findFunction k name w' = (.error f, w')) ∨
      ∃ i e cache index, findFunction k name w = (.ok (i, e, index), w) ∧
        findFunction k name w' = (.ok (i, { e with cache := cache }, index), w') := by
  rw [findFunction, bind_run, bind_run]
  cases hi : w.instances[k]? with
  | none =>
    have hi' : w'.instances[k]? = none := h.instances ▸ hi
    rw [(liveInstance_finds k).miss hi, (liveInstance_finds k).miss hi']
    exact .inl ⟨_, rfl, rfl⟩
  | some i =>
    have hi' : w'.instances[k]? = some i := h.instances ▸ hi
    rw [(liveInstance_finds k).run hi, (liveInstance_finds k).run hi']
    dsimp only
    rw [read_run, read_run]
    have hexport : w'.export? i .func name = w.export? i .func name := by
      cases h
      rfl
    rw [hexport]
    cases w.export? i .func name with
    | none => exact .inl ⟨_, rfl, rfl⟩
    | some found =>
      dsimp only
      rw [bind_run, bind_run]
      cases he : w.engines[i.engine]? with
      | none =>
        rw [(engine_finds _).miss he, (engine_finds _).miss (h.engine_none he)]
        exact .inl ⟨_, rfl, rfl⟩
      | some e =>
        obtain ⟨cache, he'⟩ := h.engine he
        rw [(engine_finds _).run he, (engine_finds _).run he']
        exact .inr ⟨i, e, cache, found.2.index, rfl, rfl⟩

theorem callInstance_blind (k : Nat) (name : String) (args : List UInt64) (cancelled : Bool) :
    Blind (callInstance k name args cancelled).run := by
  intro w w' h
  change (callInstance k name args cancelled w').1 = (callInstance k name args cancelled w).1 ∧
    Lookalike (callInstance k name args cancelled w).2 (callInstance k name args cancelled w').2
  rw [callInstance, bind_run, bind_run]
  rcases findFunction_alike h k name with ⟨f, hw, hw'⟩ | ⟨i, e, cache, index, hw, hw'⟩
  · rw [hw, hw']
    exact ⟨rfl, h⟩
  · rw [hw, hw']
    exact callFunction_blind e i.sink cancelled i.inst index args .trap h

theorem setInstanceGlobal_blind (k : Nat) (name : String) (v : UInt32) :
    Blind (setInstanceGlobal k name v).run := by
  refine .bind (liveInstance_blind k) fun i => ?_
  dsimp only
  split
  · exact .failThen _ _
  · refine .readThen (fun _ _ h => by cases h; rfl) fun w => ?_
    split
    · exact .fail _
    · split
      · exact .fail _
      · split
        · exact .failThen _ _
        · split
          · exact .failThen _ _
          · exact .lift (.beside fun _ _ _ => rfl)

theorem closeInstance_blind (k : Nat) : Blind (closeInstance k).run :=
  .bind (liveInstance_blind k) fun _ => .lift (.beside fun _ _ _ => rfl)

theorem alterMemory_blind (k : Option Nat) (f : Option Wasm.Memory → Except Fault Wasm.Memory) :
    Blind (alterMemory k f).run :=
  .readThen (fun _ _ h => by rw [h.store]) fun _ =>
    .bind (liftExcept_blind _) fun _ => .lift (.beside fun _ _ _ => rfl)

/-! ## Engines and memories -/

theorem Cached.push {w : World} (h : Cached w) (c : Config) :
    Cached { w with engines := w.engines.push { config := c } } := by
  intro k e he
  dsimp only at he
  rw [Array.getElem?_push] at he
  split at he
  · cases he
    exact fun bytes m hmem => absurd hmem List.not_mem_nil
  · exact h k e he

theorem newEngine_blind (config : Option Config) : Blind (newEngine config).run := by
  have hpush : Blind (modifyGet fun w =>
      (w.engines.size, { w with engines := w.engines.push { config := config.getD {} } })) := by
    intro w w' h
    have hsize : w'.engines.size = w.engines.size := by
      simpa using congrArg Array.size h.engines
    refine ⟨hsize, ?_⟩
    obtain ⟨hengines, hcached, hcached'⟩ := h
    refine ⟨?_, hcached.push _, hcached'.push _⟩
    change Array.map unstocked (Array.push _ _) = Array.map unstocked (Array.push _ _)
    rw [Array.map_push, Array.map_push, hengines]
  unfold newEngine
  dsimp only
  split
  · exact .failThen _ _
  · split
    · exact .failThen _ _
    · exact .bind (.lift (log_blind _ _ _ _)) fun _ => .lift hpush

theorem closeEngine_blind (k : Nat) : Blind (closeEngine k).run := by
  refine engineThen_blind k (fun _ _ => rfl) fun e => ?_
  refine .bind (.lift (.beside fun _ _ _ => rfl)) fun _ => .lift (setEngine_blind ?_ k)
  exact ⟨fun _ _ => rfl, fun e _ bytes m hmem => absurd hmem List.not_mem_nil⟩

theorem unregister_blind (k : Nat) (names : List String) : Blind (unregister k names) := by
  refine setEngine_blind ?_ k
  exact neutral_of_eq (fun _ _ => rfl) fun _ => ⟨rfl, rfl, rfl⟩

theorem registerHost_blind (k : Nat) (name function detail : String) :
    Blind (registerHost k name function detail).run := by
  refine engineThen_blind k (fun _ _ => rfl) fun e => ?_
  dsimp only
  split
  · exact .failThen _ _
  · split
    · exact .failThen _ _
    · refine .readThen (fun _ _ h => by rw [h.memories]) fun w => .lift (setEngine_blind ?_ k)
      exact neutral_of_eq (fun _ _ => rfl) fun _ => ⟨rfl, rfl, rfl⟩

theorem registerEnv_blind (k : Nat) (min max : UInt32) : Blind (registerEnv k min max).run := by
  refine engineThen_blind k (fun _ _ => rfl) fun e => ?_
  dsimp only
  split
  · exact .fail _
  · split
    · exact .failThen _ _
    · refine .readThen (fun _ _ h => by rw [h.store]) fun w => ?_
      split
      · exact .fail _
      · refine .bind (.lift (.beside fun _ _ _ => rfl)) fun _ => ?_
        refine .bind (.lift (setEngine_blind ?_ k)) fun _ => .ok _
        exact neutral_of_eq (fun _ _ => rfl) fun _ => ⟨rfl, rfl, rfl⟩

theorem attachMemory_blind (k : Nat) (host : String) (memoryName : Config.ImportName)
    (min max : UInt32) : Blind (attachMemory k host memoryName min max).run := by
  have henv : Blind (tryCatch (registerEnv k min max) fun f => do
      unregister k [host]
      throw f).run :=
    .orElse (registerEnv_blind k min max) fun f =>
      .bind (.lift (unregister_blind k [host])) fun _ => .fail f
  refine .bind henv fun env => .readThen (fun _ _ h => by rw [h.store]) fun w => ?_
  split
  · refine .bind (.lift (.beside fun _ _ _ => rfl)) fun _ => ?_
    exact .bind (.lift (unregister_blind k _)) fun _ => .fail _
  · refine .readThen (fun _ _ h => by rw [h.memories]) fun w => ?_
    refine .bind (.lift (.beside fun _ _ _ => rfl)) fun _ => ?_
    refine .bind (.lift (setEngine_blind ?_ k)) fun _ => ?_
    · exact neutral_of_eq (fun _ _ => rfl) fun _ => ⟨rfl, rfl, rfl⟩
    · exact .bind (.lift (log_blind _ _ _ _)) fun _ => .ok _

theorem newMemory_blind (k : Nat) (min max : UInt32) : Blind (newMemory k min max).run := by
  unfold newMemory
  dsimp only
  split
  · exact .failThen _ _
  · refine engineThen_blind k (fun _ _ => rfl) fun e => ?_
    split
    · exact .failThen _ _
    · split
      · exact .bind (registerHost_blind k _ _ _) fun _ => attachMemory_blind k _ _ min max
      · exact .bind (registerHost_blind k _ _ _) fun _ => attachMemory_blind k _ _ min max

theorem closeMemory_blind (k : Nat) : Blind (closeMemory k).run := by
  have hforget (m : SharedMemory) : Blind (setEngine m.engine fun e =>
      if e.memory = some k then { e with memory := none } else e) := by
    refine setEngine_blind (neutral_of_eq (fun e cache => ?_) fun e => ?_) m.engine
    · by_cases h : e.memory = some k <;> simp [h, unstocked]
    · by_cases h : e.memory = some k <;> simp [h]
  refine .bind (memory_blind k) fun m => ?_
  split
  · refine .bind (.lift (.beside fun _ _ _ => rfl)) fun _ => ?_
    exact .bind (.lift (unregister_blind _ _)) fun _ => .lift (hforget m)
  · exact .lift (hforget m)

end GuestThreads.World
