import GuestThreads.Proofs.World.Isolation
import GuestThreads.Proofs.World.Renaming

/-!
# Worlds that differ in their wiring

Signals reach the host by way of the module that has the memory, or directly. Two worlds that differ
in that alone have the same guests, and a call of a guest has the same result in both.
-/

namespace GuestThreads.World

/-! ## Owners of the signal function -/

/-- The owner is there to be closed. -/
def Known (s : Wasm.Store) : Wasm.Owner → Prop
  | .instance inst => inst < s.instances.size
  | .host _ => True

/-- The owner is not a guest, but the host or the instance that defines the memory. -/
def Outside (o : Wasm.Owner) : Prop := ∀ k, o = .instance k → k = 0

section

variable {s s' : Wasm.Store} {o o' p : Wasm.Owner} {why : Wasm.Closing}

theorem Known.later (h : Known s o) (hs : s.instances.size ≤ s'.instances.size) : Known s' o := by
  cases o with
  | «instance» inst => exact Nat.lt_of_lt_of_le h hs
  | host home => trivial

/-- The first closing counts. -/
theorem closing?_close_self (h : Known s o) :
    (s.close o why).closing? o = some ((s.closing? o).getD why) := by
  cases o with
  | «instance» inst =>
    have hx := Array.getElem?_eq_getElem h
    have hclosing : s.closing? (.instance inst) = s.instances[inst].closing := by
      rw [Wasm.Store.closing?, hx, Option.bind_some]
    rw [hclosing, Wasm.Store.close, Wasm.Store.closing?, Wasm.Store.closeInstance,
      getElem?_modify_self hx, Option.bind_some]
    cases hwhy : s.instances[inst].closing with
    | none => rfl
    | some why' => exact hwhy
  | host home =>
    change (s.closeHost home why).closedHosts.lookup home =
      some ((s.closedHosts.lookup home).getD why)
    rw [Wasm.Store.closeHost]
    split
    · rename_i hclosed
      obtain ⟨found, hfound⟩ := Option.isSome_iff_exists.1 hclosed
      rw [hfound]
      rfl
    · rename_i hopen
      rw [Option.not_isSome_iff_eq_none.1 hopen, List.lookup_cons, beq_self_eq_true]
      rfl

theorem closing?_close_ne (h : o ≠ p) : (s.close o why).closing? p = s.closing? p := by
  cases p with
  | «instance» k => exact congrArg (Option.bind · _) (close_others h)
  | host home =>
    cases o with
    | «instance» inst => rfl
    | host home' =>
      have hne : home ≠ home' := fun heq => h (heq ▸ rfl)
      change (s.closeHost home' why).closedHosts.lookup home = _
      rw [Wasm.Store.closeHost]
      split
      · rfl
      · rw [List.lookup_cons, beq_false_of_ne hne]
        rfl

theorem close_size (s : Wasm.Store) (o : Wasm.Owner) (why : Wasm.Closing) :
    (s.close o why).instances.size = s.instances.size := by
  cases o with
  | «instance» inst => exact Array.size_modify
  | host home =>
    change (s.closeHost home why).instances.size = _
    rw [Wasm.Store.closeHost]
    split <;> rfl

theorem alike_close (h : Wasm.Alike 0 s s') (ho : Outside o) (ho' : Outside o') :
    Wasm.Alike 0 (s.close o why) (s'.close o' why) where
  memories := by rw [close_memories, close_memories, h.memories]
  size := by rw [close_size, close_size, h.size]
  guests k hk := by
    rw [close_others fun heq => hk (ho k heq), close_others fun heq => hk (ho' k heq)]
    exact h.guests k hk

/-- Guest code closes nothing. -/
theorem closing?_within {inst : Nat} (h : Wasm.Within inst s s') (hinst : inst < s.instances.size) :
    s'.closing? o = s.closing? o := by
  cases o with
  | host home => exact congrArg (·.lookup home) h.closedHosts
  | «instance» k =>
    by_cases hk : k = inst
    · subst hk
      obtain ⟨globals, rest, hself⟩ := h.self _ (Array.getElem?_eq_getElem hinst)
      rw [Wasm.Store.closing?, Wasm.Store.closing?, hself, Array.getElem?_eq_getElem hinst]
      rfl
    · exact congrArg (Option.bind · _) (h.others k hk)

/-- Setting a global closes nothing. -/
theorem setGlobal_closing? (s : Wasm.Store) (inst index : Nat) (v : UInt64) (o : Wasm.Owner) :
    (s.setGlobal inst index v).closing? o = s.closing? o := by
  cases o with
  | host home => rfl
  | «instance» k =>
    rw [Wasm.Store.closing?, Wasm.Store.closing?, Wasm.Store.setGlobal, Array.getElem?_modify]
    split
    · cases s.instances[k]? <;> rfl
    · rfl

theorem withGuest_closing? {s : Wasm.Store} (hknown : Known s o) (m : Wasm.Module)
    (pageLimit : Nat) (callee : Wasm.Callee) :
    (withGuest s m pageLimit callee).closing? o = s.closing? o := by
  cases o with
  | host home => rfl
  | «instance» k =>
    refine congrArg (Option.bind · _) ?_
    change (s.instances.push _)[k]? = _
    rw [Array.getElem?_push, if_neg (Nat.ne_of_lt hknown)]

theorem signalCallee_outside (c : Config) : Outside (signalCallee c).owner := by
  intro k hk
  rw [signalCallee] at hk
  split at hk
  · exact (Wasm.Owner.instance.inj hk).symm
  · cases hk

end

/-! ## Worlds that differ in their wiring -/

/-- Guests and all that they and their users see are the same. Signals are posted by way of `o` in
the one world and by way of `o'` in the other. -/
structure Matched (o o' : Wasm.Owner) (w w' : World) : Prop where
  store : Wasm.Alike 0 w.store w'.store
  closing : w'.store.closing? o' = w.store.closing? o
  instances : w'.instances = w.instances
  mail : SameMail w w'

/-- An action has the same result in both worlds, and the worlds are the same afterwards. -/
def Agrees {α : Type} (o o' : Wasm.Owner) (x x' : Except Fault α × World) : Prop :=
  x'.1 = x.1 ∧ Matched o o' x.2 x'.2

section

variable {w w' : World} {callee callee' : Wasm.Callee} {inst : Nat} {m m' : Wasm.Module}
  {callees callees' : List Wasm.Callee} {o o' : Wasm.Owner}

theorem Matched.restore (h : Matched o o' w w') {s s' : Wasm.Store} (hs : Wasm.Alike 0 s s')
    (hclosing : s'.closing? o' = s.closing? o) :
    Matched o o' { w with store := s } { w' with store := s' } :=
  ⟨hs, hclosing, h.instances, ⟨h.mail.inboxes, h.mail.relays, h.mail.modules⟩⟩

theorem Matched.afterPosts (h : Matched o o' w w') (sink : Option Sink) (signals : List Signal) :
    Matched o o' (World.afterPosts sink signals w) (World.afterPosts sink signals w') := by
  have hbeside := afterPosts_besideSignals sink signals w
  have hbeside' := afterPosts_besideSignals sink signals w'
  refine ⟨?_, ?_, ?_, h.mail.afterPosts sink signals⟩
  · rw [hbeside.store, hbeside'.store]
    exact h.store
  · rw [hbeside.store, hbeside'.store]
    exact h.closing
  · rw [hbeside.instances, hbeside'.instances]
    exact h.instances

/-- The owners of a function of guest `inst` in the two worlds: the guest itself, or whoever posts
its signals. -/
inductive SameRole (o o' : Wasm.Owner) (inst : Nat) : Wasm.Owner → Wasm.Owner → Prop
  | guest : SameRole o o' inst (.instance inst) (.instance inst)
  | signals : SameRole o o' inst o o'

theorem SameRole.known {s s' : Wasm.Store} {p p' : Wasm.Owner} (h : SameRole o o' inst p p')
    (ho : Known s o) (ho' : Known s' o') (hinst : inst < s.instances.size)
    (hinst' : inst < s'.instances.size) : Known s p ∧ Known s' p' := by
  cases h with
  | guest => exact ⟨hinst, hinst'⟩
  | signals => exact ⟨ho, ho'⟩

theorem owner_cases (hres : Wasm.Resident w.store 0 inst m callees)
    (hbound : BoundTo w.store callee inst) {index : Nat} {f : Wasm.Callee} {t : Wasm.FuncType}
    (ht : m.funcType? index = some t) (hf : callees[index]? = some f) :
    (index < m.importedFuncs.length ∧ f = callee) ∨
      (m.importedFuncs.length ≤ index ∧ f.owner = .instance inst) := by
  obtain ⟨f', hf', hcase⟩ := hres.callee ht
  cases hf.symm.trans hf'
  rcases hcase with ⟨hindex, -⟩ | ⟨hindex, rfl⟩
  · obtain ⟨x, hx, rfl, rfl⟩ := hres.found
    obtain ⟨x', hx', hcallees⟩ := hbound
    cases hx.symm.trans hx'
    rw [Array.getElem?_toList] at hf
    exact .inl ⟨hindex, Option.some.inj (hf.symm.trans (hcallees index hindex))⟩
  · exact .inr ⟨hindex, rfl⟩

/-- Imports that are bound to a function of the host. -/
theorem direct_of_bound {function : Wasm.HostFunc}
    (hres : Wasm.Resident w.store 0 inst m callees)
    (hbound : BoundTo w.store (.host function) inst) : Wasm.Direct m callees := by
  obtain ⟨x, hx, rfl, rfl⟩ := hres.found
  obtain ⟨x', hx', hcallees⟩ := hbound
  cases hx.symm.trans hx'
  intro i hi
  exact ⟨function, Array.getElem?_toList ▸ hcallees i hi⟩

/-- What is known of the ways in which a guest posts its signals in the two worlds. -/
structure Posted (callee : Wasm.Callee) (w : World) (inst : Nat) : Prop where
  outside : Outside callee.owner
  known : Known w.store callee.owner
  bound : BoundTo w.store callee inst

theorem Posted.later (h : Posted callee w inst) (hs : Wasm.Evolves w.store w'.store) :
    Posted callee w' inst where
  outside := h.outside
  known := h.known.later hs.size_le
  bound := by
    obtain ⟨x, hx, hbound⟩ := h.bound
    obtain ⟨x', hx', hstays⟩ := hs.instances inst x hx
    refine ⟨x', hx', ?_⟩
    rw [hstays.module, hstays.callees]
    exact hbound

theorem Posted.lt_size (h : Posted callee w inst) : inst < w.store.instances.size := by
  obtain ⟨x, hx, -⟩ := h.bound
  exact (Array.getElem?_eq_some_iff.1 hx).1

theorem Matched.closing_eq {p p' : Wasm.Owner} (h : Matched o o' w w') (hinst : inst ≠ 0)
    (hp : SameRole o o' inst p p') : w'.store.closing? p' = w.store.closing? p := by
  cases hp with
  | guest => exact h.store.closing? hinst
  | signals => exact h.closing

theorem Matched.close {p p' : Wasm.Owner} (h : Matched o o' w w') (hinst : inst ≠ 0)
    (ho : Outside o) (ho' : Outside o') (hknown : Known w.store o) (hknown' : Known w'.store o')
    (hp : SameRole o o' inst p p') (why : Wasm.Closing) :
    Matched o o' { w with store := w.store.close p why }
      { w' with store := w'.store.close p' why } := by
  cases hp with
  | guest =>
    refine h.restore (h.store.closeInstance inst why) ?_
    rw [closing?_close_ne fun heq => hinst (ho' inst heq.symm),
      closing?_close_ne fun heq => hinst (ho inst heq.symm), h.closing]
  | signals =>
    refine h.restore (alike_close h.store ho ho') ?_
    rw [closing?_close_self hknown, closing?_close_self hknown', h.closing]

theorem Matched.export? (h : Matched o o' w w') {i : LiveInstance} (hi : i.inst ≠ 0)
    (kind : Wasm.ExportKind) (name : String) :
    (w.export? i kind name = none ∧ w'.export? i kind name = none) ∨
      ∃ x x' f, w.export? i kind name = some (x, f) ∧ w'.export? i kind name = some (x', f) ∧
        x'.bare = x.bare := by
  rw [World.export?, World.export?]
  cases hopen : i.isOpen with
  | false => exact .inl ⟨rfl, rfl⟩
  | true =>
    rw [if_pos rfl, if_pos rfl]
    cases hx : w.store.instances[i.inst]? with
    | none =>
      have hx' : w'.store.instances[i.inst]? = none := by
        have hguests := h.store.guests i.inst hi
        rw [hx] at hguests
        simpa using hguests
      rw [hx']
      exact .inl ⟨rfl, rfl⟩
    | some x =>
      obtain ⟨x', hx', hbare⟩ := h.store.instance hi hx
      have hexports : x'.module.export? name = x.module.export? name := by
        have hmodule := congrArg (·.module.exports) hbare
        rw [Wasm.Module.export?, Wasm.Module.export?]
        exact congrArg (List.find? _) hmodule
      simp only [hx', Option.bind_eq_bind, Option.bind_some, hexports]
      cases x.module.export? name with
      | none => exact .inl ⟨rfl, rfl⟩
      | some f =>
        by_cases hkind : f.kind = kind
        · exact .inr ⟨x, x', f, if_pos hkind, if_pos hkind, hbare⟩
        · exact .inl ⟨if_neg hkind, if_neg hkind⟩

/-- What is done with an instance agrees if it does so wherever there is one. -/
theorem Matched.with_instance {α : Type} (h : Matched o o' w w') {j : Nat}
    {rest : LiveInstance → Try α}
    (hrest : ∀ i, w.instances[j]? = some i → w'.instances[j]? = some i →
      Agrees o o' (rest i w) (rest i w')) :
    Agrees o o' ((liveInstance j >>= rest) w) ((liveInstance j >>= rest) w') := by
  rw [bind_run, bind_run]
  cases hi : w.instances[j]? with
  | none =>
    rw [(liveInstance_finds j).miss hi, (liveInstance_finds j).miss (h.instances ▸ hi)]
    exact ⟨rfl, h⟩
  | some i =>
    have hi' : w'.instances[j]? = some i := h.instances ▸ hi
    rw [(liveInstance_finds j).run hi, (liveInstance_finds j).run hi']
    exact hrest i hi hi'

end

/-! ## Calls -/

section

variable [Wasm.Machine] [Wasm.Machine.RunsTrampolines]

/-- A call of the signal function that is forwarded posts its arguments, unless it is given up. -/
theorem forwarded_run {s : Wasm.Store} {env inst index owner target : Nat} {hi lo : UInt64}
    {entry : Entry} (h : Wasm.Posts s env inst (.code owner target))
    (hentry : entering? s [hi, lo] (.code owner target) = some entry)
    (hnoted : Wasm.Unhindered (callMarks s inst index [hi, lo] entry)) :
    entry.run s = (.finished [], [⟨hi.toUInt32, lo.toUInt32⟩], s) := by
  obtain ⟨called, done, operands, henter, -, -, htype, hend, hpasses⟩ := h.forwards hi lo
  rw [entering?, henter] at hentry
  cases hentry
  obtain ⟨k, hk⟩ := hpasses []
  have hmarks : Wasm.Unhindered (Wasm.marks inst Wasm.Machine.stepLimit s [called]) :=
    hnoted.of_append
  obtain ⟨left, hleft, hdone⟩ := hk.enough hmarks
  obtain ⟨left, rfl⟩ := Nat.exists_eq_add_one_of_ne_zero hdone.pos.ne'
  rw [Entry.run, hleft, hk.runs, Wasm.run_finished left (Wasm.step_return hend), htype]
  rfl

variable [Wasm.Machine.IgnoresNames] {s s' : Wasm.Store} {inst index : Nat} {m m' : Wasm.Module}
  {callees callees' : List Wasm.Callee} {t : Wasm.FuncType} {args : List UInt64}
  {f f' : Wasm.Callee}

/-- A call comes to the same on stores that are alike. -/
theorem alike_entry (h : Wasm.Alike 0 s s') (hinst : inst ≠ 0)
    (hres : Wasm.Resident s 0 inst m callees) (hres' : Wasm.Resident s' 0 inst m' callees')
    (hdirect : Wasm.Direct m' callees') (ht : m.funcType? index = some t)
    (hargs : args.length = t.params.length) (hf : callees[index]? = some f)
    (hf' : callees'[index]? = some f') :
    (entering? s args f = none ∧ entering? s' args f' = none) ∨
    ∃ entry entry', entering? s args f = some entry ∧ entering? s' args f' = some entry' ∧
      (Wasm.Unhindered (callMarks s inst index args entry) →
        Wasm.SameOutcome 0 (entry.run s) (entry'.run s')) := by
  obtain ⟨g, hg, hcase⟩ := hres.callee ht
  cases hf.symm.trans hg
  obtain ⟨g', hg', hcase'⟩ := hres'.callee ((h.funcType? hinst hres hres' index).trans ht)
  cases hf'.symm.trans hg'
  have hcount := h.importedFuncs_length hinst hres hres'
  rcases hcase with ⟨hindex, rfl, hposts⟩ | ⟨hindex, rfl⟩
  · obtain ⟨function, hfunction⟩ := hdirect index (hcount ▸ hindex)
    cases hf'.symm.trans hfunction
    obtain ⟨hi, lo, rfl, -⟩ := Wasm.signalOf?_of_length hargs
    cases f with
    | host function' => exact .inr ⟨_, _, rfl, rfl, fun _ => ⟨rfl, rfl, h⟩⟩
    | code owner target =>
      obtain ⟨called, -, -, henter, -⟩ := hposts.forwards hi lo
      have hentry : entering? s [hi, lo] (.code owner target) = some (.code called) := by
        rw [entering?, henter]
        rfl
      refine .inr ⟨_, _, hentry, rfl, fun hnoted => ?_⟩
      rw [forwarded_run hposts hentry hnoted]
      exact ⟨rfl, rfl, h⟩
  · rcases hcase' with ⟨hindex', -⟩ | ⟨-, rfl⟩
    · omega
    rw [entering?, entering?, h.enter? hinst]
    cases henter : s.enter? inst index args with
    | none => exact .inl ⟨rfl, rfl⟩
    | some frame =>
      refine .inr ⟨_, _, rfl, rfl, fun hnoted => ?_⟩
      refine h.run hinst hres hres' hdirect (fun f hf => ?_) hnoted.of_append (Nat.le_refl _) []
      rw [List.mem_singleton.1 hf]
      exact (Wasm.enter?_eq_some henter).1

variable {w w' : World} {callee callee' : Wasm.Callee}

omit [Wasm.Machine] [Wasm.Machine.RunsTrampolines] [Wasm.Machine.IgnoresNames] in
/-- The functions with the same index are owned by those that play the same role. -/
theorem Matched.sameRole (h : Matched callee.owner callee'.owner w w') (hinst : inst ≠ 0)
    (hres : Wasm.Resident w.store 0 inst m callees) (hposted : Posted callee w inst)
    (hres' : Wasm.Resident w'.store 0 inst m' callees') (hposted' : Posted callee' w' inst)
    (ht : m.funcType? index = some t) (hf : callees[index]? = some f)
    (hf' : callees'[index]? = some f') :
    SameRole callee.owner callee'.owner inst f.owner f'.owner := by
  have hcount := h.store.importedFuncs_length hinst hres hres'
  have ht' := (h.store.funcType? hinst hres hres' index).trans ht
  rcases owner_cases hres hposted.bound ht hf with ⟨hindex, rfl⟩ | ⟨hindex, hown⟩
  · rcases owner_cases hres' hposted'.bound ht' hf' with ⟨-, rfl⟩ | ⟨hindex', -⟩
    · exact .signals
    · omega
  · rcases owner_cases hres' hposted'.bound ht' hf' with ⟨hindex', -⟩ | ⟨-, hown'⟩
    · omega
    · rw [hown, hown']
      exact .guest

omit [Wasm.Machine] [Wasm.Machine.RunsTrampolines] [Wasm.Machine.IgnoresNames] in
/-- What a call reports that was given up is the reason for which the owner was closed first. -/
theorem gaveUpFault_eq {o : Wasm.Owner} (h : Known s o) :
    gaveUpFault s o = closingFault ((s.closing? o).getD .cancelled) := by
  rw [gaveUpFault, closing?_close_self h, Option.getD_some]

/-- A call agrees in both worlds, if signals go directly to the host in the second one. -/
theorem Matched.callFunction (h : Matched callee.owner callee'.owner w w') (hinst : inst ≠ 0)
    (hres : Wasm.Resident w.store 0 inst m callees) (hposted : Posted callee w inst)
    (hres' : Wasm.Resident w'.store 0 inst m' callees') (hposted' : Posted callee' w' inst)
    (hhost : ∃ function, callee' = .host function) {e e' : Engine}
    (hengine : e'.config.engine = e.config.engine) (sink : Option Sink) (cancelled : Bool)
    (index : Nat) (args : List UInt64) (trap : Wasm.Trap → List Wasm.Call → Cause)
    (hnoted : ∀ a, activated? w.store e.config cancelled inst index args = some a →
      Wasm.Unhindered a.noted) :
    Agrees callee.owner callee'.owner
      (World.callFunction e sink cancelled inst index args trap w)
      (World.callFunction e' sink cancelled inst index args trap w') := by
  obtain ⟨function, rfl⟩ := hhost
  have hsame := h.store.funcType? hinst hres hres' index
  cases hrefusal : refusal? args (m.funcType? index) with
  | some f =>
    rw [callFunction_of_error e cancelled sink trap (enterCall_refused e cancelled hres hrefusal),
      callFunction_of_error e' cancelled sink trap
        (enterCall_refused e' cancelled hres' (hsame ▸ hrefusal))]
    exact ⟨rfl, h⟩
  | none =>
  obtain ⟨t, ht, hargs⟩ := type_of_unrefused hrefusal
  have ht' := hsame.trans ht
  obtain ⟨f, hf, -⟩ := hres.callee ht
  obtain ⟨f', hf', -⟩ := hres'.callee ht'
  have hrole := h.sameRole hinst hres hposted hres' hposted' ht hf hf'
  have hclosing := h.closing_eq hinst hrole
  have hgaveUp : gaveUp e'.config cancelled = gaveUp e.config cancelled := by
    rw [gaveUp, gaveUp, hengine]
  cases hgave : gaveUp e.config cancelled with
  | true =>
    rw [callFunction_of_error e cancelled sink trap
        (enterCall_gaveUp e cancelled hres ht hargs hf hgave),
      callFunction_of_error e' cancelled sink trap
        (enterCall_gaveUp e' cancelled hres' ht' hargs hf' (hgaveUp.trans hgave))]
    obtain ⟨hknown, hknown'⟩ := hrole.known hposted.known hposted'.known hres.lt_size hres'.lt_size
    rw [gaveUpFault_eq hknown, gaveUpFault_eq hknown', hclosing]
    exact ⟨rfl, h.close hinst hposted.outside hposted'.outside hposted.known hposted'.known hrole
      .cancelled⟩
  | false =>
    rw [callFunction_run e cancelled sink trap hres ht hargs hf hgave,
      callFunction_run e' cancelled sink trap hres' ht' hargs hf' (hgaveUp.trans hgave)]
    rcases alike_entry h.store hinst hres hres' (direct_of_bound hres' hposted'.bound) ht hargs
        hf hf' with ⟨hentry, hentry'⟩ | ⟨entry, entry', hentry, hentry', houtcome⟩
    · rw [hentry, hentry']
      exact ⟨rfl, h⟩
    have hactivated : activated? w.store e.config cancelled inst index args = some
        { store := w.store, inst := inst, index := index, args := args, entry := entry } := by
      rw [activated?_of_type hres ht hf, if_pos ⟨hargs, hgave⟩, hentry]
      rfl
    obtain ⟨hending, hsignals, hstore⟩ := houtcome (hnoted _ hactivated)
    have hwithin := (accounts_of_entry hres ht hargs hf hentry).within
    have hwithin' := (accounts_of_entry hres' ht' hargs hf' hentry').within
    rw [hentry, hentry']
    dsimp only
    rw [hending, hsignals]
    constructor
    · cases outcome trap (entry.run w.store).1 with
      | error fault => rfl
      | ok results =>
        rw [callOutcome, callOutcome, closing?_within hwithin hres.lt_size,
          closing?_within hwithin' hres'.lt_size, hclosing]
    · refine (h.restore hstore ?_).afterPosts sink _
      rw [closing?_within hwithin hres.lt_size, closing?_within hwithin' hres'.lt_size,
        h.closing]

end

end GuestThreads.World
