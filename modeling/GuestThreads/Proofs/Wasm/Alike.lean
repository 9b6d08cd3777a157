import GuestThreads.Proofs.Wasm.Posting

/-!
# Stores that differ in their wiring

Where the imports of a guest come from does not matter to its code. Two stores are alike if their
memories are the same, and their guests but for the names and the bindings of imports. Guest code
then does the same on both, if the functions that post signals are forwarders on the one store and
the host's own on the other, as long as there is room for the forwarders.
-/

namespace GuestThreads.Wasm

/-! ## What is alike -/

/-- A module without the names of the modules that it imports from. -/
def Module.bare (m : Module) : Module :=
  { m with imports := m.imports.map fun i => { i with module := "" } }

@[simp] theorem Module.importedFuncs_bare (m : Module) :
    m.bare.importedFuncs = m.importedFuncs := by
  simp only [importedFuncs, bare, List.filterMap_map]
  rfl

@[simp] theorem Module.importedGlobals_bare (m : Module) :
    m.bare.importedGlobals = m.importedGlobals := by
  simp only [importedGlobals, bare, List.filterMap_map]
  rfl

theorem Module.bare_bare (m : Module) : m.bare.bare = m.bare := by
  simp only [bare, List.map_map, Function.comp_def]

theorem Module.funcType?_bare (m : Module) (index : Nat) :
    m.bare.funcType? index = m.funcType? index := by
  rw [funcType?, importedFuncs_bare]
  rfl

theorem Module.globalType?_bare (m : Module) (index : Nat) :
    m.bare.globalType? index = m.globalType? index := by
  rw [globalType?, importedGlobals_bare]
  rfl

/-- An instance without what is particular to its imports. -/
def Instance.bare (x : Instance) : Instance := { x with module := x.module.bare, callees := #[] }

/-- The memories are the same, and so are all instances other than `env` but for their wiring. -/
structure Alike (env : Nat) (s s' : Store) : Prop where
  memories : s'.memories = s.memories
  size : s'.instances.size = s.instances.size
  guests : ∀ k : Nat, k ≠ env →
    (s'.instances[k]?).map Instance.bare = (s.instances[k]?).map Instance.bare

namespace Alike

variable {env k : Nat} {s s' : Store}

/-- What does not look at the wiring finds the same. -/
theorem bind {β : Type} {g : Instance → Option β} (h : Alike env s s') (hk : k ≠ env)
    (hg : ∀ x, g x.bare = g x) : (s'.instances[k]?).bind g = (s.instances[k]?).bind g := by
  have hsame (o : Option Instance) : (o.map Instance.bare).bind g = o.bind g := by
    cases o with
    | none => rfl
    | some x => exact hg x
  rw [← hsame, h.guests k hk, hsame]

theorem «instance» (h : Alike env s s') (hk : k ≠ env) {x : Instance}
    (hx : s.instances[k]? = some x) : ∃ x', s'.instances[k]? = some x' ∧ x'.bare = x.bare := by
  have hbare := h.guests k hk
  rw [hx] at hbare
  exact Option.map_eq_some_iff.1 hbare

theorem global (h : Alike env s s') (hk : k ≠ env) (index : Nat) :
    s'.global k index = s.global k index :=
  congrArg (Option.getD · 0) (h.bind hk fun _ => rfl)

theorem closing? (h : Alike env s s') (hk : k ≠ env) :
    s'.closing? (.instance k) = s.closing? (.instance k) :=
  h.bind hk fun _ => rfl

theorem linearOf? (h : Alike env s s') (hk : k ≠ env) : s'.linearOf? k = s.linearOf? k :=
  h.bind hk fun _ => rfl

theorem moduleOf (h : Alike env s s') (hk : k ≠ env) :
    (s'.moduleOf k).bare = (s.moduleOf k).bare := by
  have hmodule (s : Store) : (s.moduleOf k).bare =
      ((s.instances[k]?).bind fun x => some x.module.bare).getD {} := by
    rw [Store.moduleOf]
    cases s.instances[k]? <;> rfl
  rw [hmodule, hmodule, h.bind hk fun x => by rw [Instance.bare, Module.bare_bare]]

/-- Code finds the same. -/
theorem scope (h : Alike env s s') (hk : k ≠ env) : s'.scope k = s.scope k := by
  have hscope (s : Store) : s.scope k =
      ((s.instances[k]?).bind fun x =>
        some (Scope.mk x.globals (x.memory.bind (s.memories[·]?)) x.rest)).getD {} := by
    rw [Store.scope]
    cases s.instances[k]? <;> rfl
  rw [hscope, hscope, h.memories, h.bind hk fun _ => rfl]

theorem importCount (h : Alike env s s') (hk : k ≠ env) :
    Wasm.importCount s' k = Wasm.importCount s k := by
  have hcount (s : Store) : Wasm.importCount s k =
      ((s.instances[k]?).bind fun x => some x.module.importedFuncs.length).getD 0 := by
    rw [Wasm.importCount, Option.map_eq_bind]
    rfl
  rw [hcount, hcount, h.bind hk fun x => by rw [Instance.bare, Module.importedFuncs_bare]]

/-! ## What keeps stores alike -/

/-- The same is done to an instance, whatever its wiring is. -/
theorem modify (h : Alike env s s') (k : Nat) {g : Instance → Instance}
    (hg : ∀ x, (g x).bare = g x.bare) : Alike env { s with instances := s.instances.modify k g }
      { s' with instances := s'.instances.modify k g } where
  memories := h.memories
  size := by
    dsimp only
    rw [Array.size_modify, Array.size_modify, h.size]
  guests j hj := by
    have hmap (o : Option Instance) :
        (o.map g).map Instance.bare = (o.map Instance.bare).map g := by
      cases o with
      | none => rfl
      | some x => exact congrArg some (hg x)
    dsimp only
    rw [Array.getElem?_modify, Array.getElem?_modify]
    split
    · rw [hmap, hmap, h.guests j hj]
    · exact h.guests j hj

theorem setGlobal (h : Alike env s s') (k index : Nat) (v : UInt64) :
    Alike env (s.setGlobal k index v) (s'.setGlobal k index v) :=
  h.modify k fun _ => rfl

theorem closeInstance (h : Alike env s s') (k : Nat) (why : Closing) :
    Alike env (s.closeInstance k why) (s'.closeInstance k why) := by
  refine h.modify k fun x => ?_
  change (if x.closing.isSome then x else { x with closing := some why }).bare =
    if x.closing.isSome then x.bare else { x.bare with closing := some why }
  split <;> rfl

theorem setMemory (h : Alike env s s') (j : Nat) (memory : Memory) :
    Alike env (s.setMemory j memory) (s'.setMemory j memory) where
  memories := congrArg (·.setIfInBounds j memory) h.memories
  size := h.size
  guests := h.guests

/-- The same scope is left. -/
theorem leave (h : Alike env s s') (hk : k ≠ env) (v : Scope) :
    Alike env (s.leave k v) (s'.leave k v) := by
  have hmodify := h.modify k (g := fun x => { x with globals := v.globals, rest := v.rest })
    fun _ => rfl
  refine ⟨?_, hmodify.size, hmodify.guests⟩
  rw [Store.leave, Store.leave, h.memories, h.linearOf? hk]

end Alike

/-- There was room for all calls of imports, and the run has come to its end. -/
def Unhindered (noted : List Mark) : Prop := .cramped ∉ noted ∧ .givenUp ∉ noted

theorem Unhindered.of_append {noted noted' : List Mark} (h : Unhindered (noted ++ noted')) :
    Unhindered noted' :=
  ⟨fun hmem => h.1 (List.mem_append_right _ hmem), fun hmem => h.2 (List.mem_append_right _ hmem)⟩

/-- All imports are functions of the host. -/
def Direct (m : Module) (callees : List Callee) : Prop :=
  ∀ i < m.importedFuncs.length, ∃ function, callees[i]? = some (.host function)

section Machines

variable [Machine]

/-! ## Machines that take no notice of names -/

/-- How the code of a module runs does not depend on the names that it imports from. -/
class Machine.IgnoresNames : Prop where
  enter? : ∀ {m m' : Module}, m'.bare = m.bare → Machine.enter? m' = Machine.enter? m
  step : ∀ {m m' : Module}, m'.bare = m.bare → Machine.step m' = Machine.step m
  fill : ∀ {m m' : Module}, m'.bare = m.bare → Machine.fill m' = Machine.fill m

section

variable [Machine.IgnoresNames] {env inst : Nat} {s s' : Store} {f : Frame}

namespace Alike

theorem move (h : Alike env s s') (hf : f.inst ≠ env) : f.move s' = f.move s := by
  rw [Frame.move, Frame.move, Machine.IgnoresNames.step (h.moduleOf hf), h.closing? hf, h.scope hf]

theorem enter? (h : Alike env s s') (hinst : inst ≠ env) (index : Nat) (args : List UInt64) :
    s'.enter? inst index args = s.enter? inst index args := by
  refine h.bind hinst fun x => ?_
  have hbare : x.bare.module.bare = x.module.bare := x.module.bare_bare
  have htype : x.bare.module.funcType? index = x.module.funcType? index :=
    x.module.funcType?_bare index
  rw [htype, Machine.IgnoresNames.enter? hbare]

/-- Instances are set up in the same way. -/
theorem fill (h : Alike env s s') (hinst : inst ≠ env) :
    (s'.fill inst).1 = (s.fill inst).1 ∧ Alike env (s.fill inst).2 (s'.fill inst).2 := by
  rw [Store.fill, Store.fill, Machine.IgnoresNames.fill (h.moduleOf hinst), h.scope hinst]
  exact ⟨rfl, h.leave hinst _⟩

end Alike

end

/-! ## Runs -/

/-- What guest code comes to on stores that are alike: the same ending, the same signals, and stores
that are alike. -/
structure SameOutcome (env : Nat) (out out' : Ending × List Signal × Store) : Prop where
  ending : out'.1 = out.1
  signals : out'.2.1 = out.2.1
  store : Alike env out.2.2 out'.2.2

section

variable [Machine.IgnoresNames] {env inst : Nat} {s s' : Store} {f : Frame}
  {rest frames : List Frame} {m m' : Module} {callees callees' : List Callee}

omit [Machine] [Machine.IgnoresNames] in
/-- Residents of stores that are alike have the same functions. -/
theorem Alike.funcType? (h : Alike env s s') (hinst : inst ≠ env)
    (hres : Resident s env inst m callees) (hres' : Resident s' env inst m' callees')
    (index : Nat) : m'.funcType? index = m.funcType? index := by
  obtain ⟨x, hx, rfl, -⟩ := hres.found
  obtain ⟨x', hx', rfl, -⟩ := hres'.found
  have hsame := h.bind (g := fun x => x.module.funcType? index) hinst
    fun x => x.module.funcType?_bare index
  rwa [hx, hx'] at hsame

omit [Machine] [Machine.IgnoresNames] in
theorem Alike.importedFuncs_length (h : Alike env s s') (hinst : inst ≠ env)
    (hres : Resident s env inst m callees) (hres' : Resident s' env inst m' callees') :
    m'.importedFuncs.length = m.importedFuncs.length := by
  rw [← hres'.importCount_eq, h.importCount hinst, hres.importCount_eq]

omit [Machine.IgnoresNames] in
theorem Unhindered.pos {steps : Nat} (h : Unhindered (marks inst steps s frames)) :
    0 < steps := by
  refine Nat.pos_of_ne_zero fun hzero => h.2 ?_
  rw [hzero]
  exact List.mem_singleton_self _

omit [Machine.IgnoresNames] in
theorem Unhindered.of_running {steps : Nat} {frames' : List Frame}
    (h : Unhindered (marks inst (steps + 1) s frames))
    (hstep : step s frames = .running s' frames') :
    Unhindered (marks inst steps s' frames') := by
  rw [marks, hstep] at h
  exact h.of_append

omit [Machine.IgnoresNames] in
/-- A run that comes to its end comes past all that code passes on. -/
theorem Passes.enough {k steps : Nat} {signals : List Signal} {noted : List Mark}
    {frames' : List Frame} (h : Passes s inst k signals noted frames frames')
    (hnoted : Unhindered (marks inst steps s frames)) :
    ∃ left, steps = k + left ∧ Unhindered (marks inst left s frames') := by
  have hlong : k ≤ steps := by
    by_contra hshort
    exact hnoted.2 (h.short steps (Nat.lt_of_not_le hshort)).1
  obtain ⟨left, rfl⟩ := Nat.exists_eq_add_of_le hlong
  rw [h.noted] at hnoted
  exact ⟨left, rfl, hnoted.of_append⟩

/-- What a thread comes to next on two stores: the same end, the same frames, or a call of an
import, which may take more than a step on the first store, if there is room for it. -/
inductive Abreast (env inst : Nat) (s s' : Store) (frames : List Frame) : Prop where
  | ends (hsame : ∀ steps n posted, SameOutcome env (run signalHost (steps + 1) posted s frames)
      (run signalHost (n + 1) posted s' frames))
  | goes {t t' : Store} {frames' : List Frame} (hstore : Alike env t t') (hlater : Evolves s t)
      (hlater' : Evolves s' t') (hhome : ∀ f ∈ frames', f.inst = inst)
      (hstep : step s frames = .running t frames') (hstep' : step s' frames = .running t' frames')
  | cramped (hcramped : ∀ steps, .cramped ∈ marks inst (steps + 1) s frames)
  | posts {k : Nat} {signal : Signal} {noted : List Mark} {frames' : List Frame} (hk : 0 < k)
      (hpasses : Passes s inst k [signal] noted frames frames')
      (hanswered : ∀ n posted, run signalHost (n + 1) posted s' frames =
        run signalHost n (posted ++ [signal]) s' frames')
      (hhome : ∀ f ∈ frames', f.inst = inst)

omit [Machine.IgnoresNames] in
theorem Abreast.of_trapped (h : Alike env s s') {reason : Trap}
    (hstep : step s frames = .trapped reason) (hstep' : step s' frames = .trapped reason) :
    Abreast env inst s s' frames := by
  refine .ends fun steps n posted => ?_
  rw [run_trapped steps hstep, run_trapped n hstep']
  exact ⟨rfl, rfl, h⟩

/-- Calls are the same, if those of imports are answered by the host on the second store. -/
theorem Alike.goes_of_call [Machine.RunsTrampolines] (h : Alike env s s') (hinst : inst ≠ env)
    (hres : Resident s env inst m callees) (hres' : Resident s' env inst m' callees')
    (hdirect : Direct m' callees') (hf : f.inst = inst) (hrest : ∀ g ∈ rest, g.inst = inst)
    {index : Nat} {args : List UInt64} {body : Machine.Body}
    (hmove : f.move s = .call index args body) : Abreast env inst s s' (f :: rest) := by
  have hstep := step_call rest hmove
  have hstep' := step_call rest ((h.move (hf ▸ hinst)).trans hmove)
  have htypes := h.funcType? hinst hres hres' index
  have hcount := h.importedFuncs_length hinst hres hres'
  have hhome : ∀ g ∈ { f with body := body } :: rest, g.inst = inst := home_cons hf hrest
  rcases hres.startCall_cases (f := { f with body := body }) hf rest index args with
    ⟨hnone, hbad⟩ | ⟨t, callee, ht, hargs, -, hinvoke, hcase⟩
  · rcases hres'.startCall_cases (f := { f with body := body }) hf rest index args with
      ⟨-, hbad'⟩ | ⟨t, -, ht, hargs, -⟩
    · exact .of_trapped h (hstep.trans hbad) (hstep'.trans hbad')
    · exact absurd hargs (hnone t (htypes.symm.trans ht))
  rcases hres'.startCall_cases (f := { f with body := body }) hf rest index args with
    ⟨hnone, -⟩ | ⟨t', callee', -, -, hcallee', hinvoke', hcase'⟩
  · exact absurd hargs (hnone t (htypes.trans ht))
  replace hstep := hstep.trans hinvoke
  replace hstep' := hstep'.trans hinvoke'
  rcases hcase with ⟨hindex, rfl, hposts⟩ | ⟨hindex, rfl⟩
  · obtain ⟨function, hfunction⟩ := hdirect index (hcount ▸ hindex)
    cases hcallee'.symm.trans hfunction
    obtain ⟨hi, lo, rfl, hsignal⟩ := signalOf?_of_length hargs
    have hcall := importCall?_of_call rest hf hmove
    rw [hres.importCount_eq, if_pos hindex] at hcall
    rcases hposts.passes hcall (List.cons_ne_nil _ _) hstep with hfull | ⟨k, hk, hpasses⟩
    · refine .cramped fun steps => ?_
      rw [marks, hfull, hcall]
      exact List.mem_cons_self
    · have hhost (posted : List Signal) : signalHost function [hi, lo] (posted, s') =
          (.ok [], posted ++ [⟨hi.toUInt32, lo.toUInt32⟩], s') := by
        rw [signalHost, hsignal]
      exact .posts hk hpasses (fun n posted => run_answered n hstep' (hhost posted))
        (home_handBack hhome)
  · rcases hcase' with ⟨hindex', -⟩ | ⟨-, rfl⟩
    · omega
    rw [invoke] at hstep hstep'
    rw [h.enter? hinst] at hstep'
    cases henter : s.enter? inst index args with
    | none =>
      rw [henter] at hstep hstep'
      exact .of_trapped h hstep hstep'
    | some called =>
      rw [henter] at hstep hstep'
      by_cases hroom : Machine.room (({ f with body := body } :: rest).map (·.body)) = true
      · exact .goes h (.refl s) (.refl s') (home_cons (enter?_eq_some henter).1 hhome)
          (hstep.trans (if_pos hroom)) (hstep'.trans (if_pos hroom))
      · exact .of_trapped h (hstep.trans (if_neg hroom)) (hstep'.trans (if_neg hroom))

theorem Alike.goes [Machine.RunsTrampolines] (h : Alike env s s') (hinst : inst ≠ env)
    (hres : Resident s env inst m callees) (hres' : Resident s' env inst m' callees')
    (hdirect : Direct m' callees') (hhome : ∀ f ∈ frames, f.inst = inst) :
    Abreast env inst s s' frames := by
  cases frames with
  | nil => exact .ends fun _ _ _ => ⟨rfl, rfl, h⟩
  | cons f rest =>
  have hf : f.inst = inst := hhome f List.mem_cons_self
  have hrest : ∀ g ∈ rest, g.inst = inst := fun g hg => hhome g (List.mem_cons_of_mem _ hg)
  have hsame := h.move (hf ▸ hinst)
  cases hmove : f.move s with
  | ran v body =>
    exact .goes (h.leave (hf ▸ hinst) v) (.leave s f.inst v) (.leave s' f.inst v)
      (home_cons (f := { f with body := body }) hf hrest) (step_ran rest hmove)
      (step_ran rest (hsame.trans hmove))
  | trapped reason =>
    exact .of_trapped h (by rw [step, hmove, follow]) (by rw [step, hsame, hmove, follow])
  | closed why =>
    refine .ends fun steps n posted => ?_
    rw [run_closed steps (by rw [step, hmove, follow]),
      run_closed n (by rw [step, hsame, hmove, follow])]
    exact ⟨rfl, rfl, h⟩
  | ended operands =>
    cases rest with
    | nil =>
      refine .ends fun steps n posted => ?_
      rw [run_finished steps (step_return hmove), run_finished n (step_return (hsame.trans hmove))]
      exact ⟨rfl, rfl, h⟩
    | cons caller rest =>
      exact .goes h (.refl s) (.refl s') (home_handBack hrest) (step_handBack hmove)
        (step_handBack (hsame.trans hmove))
  | call index args body => exact h.goes_of_call hinst hres hres' hdirect hf hrest hmove

/-- Guest code does the same on stores that are alike, if its imports are the host's on one of
them. -/
theorem Alike.run [Machine.RunsTrampolines] (h : Alike env s s') (hinst : inst ≠ env)
    (hres : Resident s env inst m callees) (hres' : Resident s' env inst m' callees')
    (hdirect : Direct m' callees') (hhome : ∀ f ∈ frames, f.inst = inst) {steps n : Nat}
    (hnoted : Unhindered (marks inst steps s frames)) (hn : steps ≤ n) (posted : List Signal) :
    SameOutcome env (Wasm.run signalHost steps posted s frames)
      (Wasm.run signalHost n posted s' frames) := by
  -- Forwarded calls take steps of their own, so that the induction is over all fewer steps.
  induction steps using Nat.strong_induction_on generalizing s s' frames posted n with
  | _ steps ih =>
  obtain ⟨steps, rfl⟩ := Nat.exists_eq_add_one_of_ne_zero hnoted.pos.ne'
  obtain ⟨n, rfl⟩ : ∃ k, n = k + 1 := Nat.exists_eq_add_one_of_ne_zero (by omega)
  cases h.goes hinst hres hres' hdirect hhome with
  | ends hsame => exact hsame steps n posted
  | goes hstore hlater hlater' hhome' hstep hstep' =>
    rw [run_running steps hstep, run_running n hstep']
    exact ih steps steps.lt_succ_self hstore (hres.later hlater) (hres'.later hlater') hhome'
      (hnoted.of_running hstep) (Nat.le_of_succ_le_succ hn) posted
  | cramped hcramped => exact absurd (hcramped steps) hnoted.1
  | posts hk hpasses hanswered hhome' =>
    obtain ⟨left, hleft, hnoted'⟩ := hpasses.enough hnoted
    rw [hleft, hpasses.runs, hanswered]
    exact ih left (by omega) h hres hres' hhome' hnoted' (by omega) _

end

end Machines

/-! ## The interpreter -/

/-- The interpreter looks up the types of functions, and no names. -/
instance interpreter_ignoresNames : Machine.IgnoresNames where
  enter? {m m'} h := by
    have hfuncs : m'.funcs = m.funcs := congrArg (·.funcs) h
    have htypes : m'.types = m.types := congrArg (·.types) h
    have hcount : m'.importedFuncs = m.importedFuncs := by
      rw [← m'.importedFuncs_bare, h, m.importedFuncs_bare]
    funext index args
    change Activation.start? m' index args = Activation.start? m index args
    rw [Activation.start?, Activation.start?, hfuncs, htypes, hcount]
  step {m m'} h := by
    have htype : m'.funcType? = m.funcType? := by
      funext index
      rw [← m'.funcType?_bare, h, m.funcType?_bare]
    funext closing v b
    change Activation.move m' v b = Activation.move m v b
    rw [Activation.move, Activation.move]
    cases b.code with
    | nil => rfl
    | cons i code =>
      unfold runInstr
      rw [htype]
  fill _ := rfl

end GuestThreads.Wasm
