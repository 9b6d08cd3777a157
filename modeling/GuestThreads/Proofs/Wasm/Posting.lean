import GuestThreads.Proofs.Wasm.Trampoline

/-!
# Guest code and the signals it passes on

A guest imports nothing but the signal function. While its code runs, it is noted what it passes to
its imports. Whether these are bound to the host's function or to a trampoline in front of it, the
host is asked to post just that, on every machine that runs trampolines as they are meant.
-/

namespace GuestThreads.Wasm

/-! ## What imports are bound to -/

/-- How many functions an instance imports. -/
def importCount (s : Store) (inst : Nat) : Nat :=
  ((s.instances[inst]?).map fun x => x.module.importedFuncs.length).getD 0

/-- A function that posts its two arguments as a signal: the host's, or one that forwards to it from
instance `env`, which is not `inst`. -/
inductive Posts (s : Store) (env inst : Nat) : Callee → Prop
  | host (function : HostFunc) : Posts s env inst (.host function)
  | forwarder {t : Trampoline} {functions : List HostFunc} {i : Nat} {f : Trampoline.Func}
    {function : HostFunc} (hstands : t.Stands functions s env) (hfits : t.Fits)
    (hf : t.funcs[i]? = some f) (hfunction : functions[i]? = some function)
    (htype : f.type = signalType) (htype' : function.type = signalType) (henv : env ≠ inst) :
    Posts s env inst (.code env (t.funcs.length + i))

/-- An instance of a guest whose imports post signals. -/
structure Resident (s : Store) (env inst : Nat) (m : Module) (callees : List Callee) : Prop where
  code : s.code? inst = some (m, callees)
  imported : ∀ i < m.importedFuncs.length, m.funcType? i = some signalType ∧
    ∃ callee, callees[i]? = some callee ∧ Posts s env inst callee
  own : ∀ i < m.funcs.length, callees[m.importedFuncs.length + i]? =
    some (.code inst (m.importedFuncs.length + i))

theorem Evolves.code? {s s' : Store} (h : Evolves s s') {inst : Nat} {c : Module × List Callee}
    (hc : s.code? inst = some c) : s'.code? inst = some c := by
  obtain ⟨x, hx, rfl⟩ := Option.map_eq_some_iff.1 hc
  obtain ⟨x', hx', hstays⟩ := h.instances inst x hx
  rw [Store.code?, hx', Option.map_some, hstays.module, hstays.callees]

theorem Posts.later {s s' : Store} {env inst : Nat} {callee : Callee} (h : Posts s env inst callee)
    (hs : Evolves s s') : Posts s' env inst callee := by
  cases h with
  | host function => exact .host function
  | forwarder hstands hfits hf hfunction htype htype' henv =>
    exact .forwarder (hs.code? hstands) hfits hf hfunction htype htype' henv

namespace Resident

variable {s s' : Store} {env inst index : Nat} {m : Module} {callees : List Callee} {t : FuncType}

theorem later (h : Resident s env inst m callees) (hs : Evolves s s') :
    Resident s' env inst m callees where
  code := hs.code? h.code
  imported i hi := by
    obtain ⟨htype, callee, hcallee, hposts⟩ := h.imported i hi
    exact ⟨htype, callee, hcallee, hposts.later hs⟩
  own := h.own

theorem found (h : Resident s env inst m callees) : ∃ x, s.instances[inst]? = some x ∧
    x.module = m ∧ x.callees.toList = callees := by
  obtain ⟨x, hx, hcode⟩ := Option.map_eq_some_iff.1 h.code
  obtain ⟨hmodule, hcallees⟩ := Prod.mk.inj hcode
  exact ⟨x, hx, hmodule, hcallees⟩

theorem lt_size (h : Resident s env inst m callees) : inst < s.instances.size := by
  obtain ⟨x, hx, -⟩ := h.found
  exact (Array.getElem?_eq_some_iff.1 hx).1

theorem importCount_eq (h : Resident s env inst m callees) :
    importCount s inst = m.importedFuncs.length := by
  obtain ⟨x, hx, hmodule, -⟩ := h.found
  rw [importCount, hx, Option.map_some, hmodule]
  rfl

/-- What a function index of a resident stands for. -/
theorem callee (h : Resident s env inst m callees) (ht : m.funcType? index = some t) :
    ∃ callee, callees[index]? = some callee ∧
      ((index < m.importedFuncs.length ∧ t = signalType ∧ Posts s env inst callee) ∨
        (m.importedFuncs.length ≤ index ∧ callee = .code inst index)) := by
  by_cases hindex : index < m.importedFuncs.length
  · obtain ⟨htype, callee, hcallee, hposts⟩ := h.imported index hindex
    cases htype.symm.trans ht
    exact ⟨callee, hcallee, .inl ⟨hindex, rfl, hposts⟩⟩
  · have hown := Nat.le_of_not_lt hindex
    obtain ⟨typeIndex, htypeIndex, -⟩ := Option.bind_eq_some_iff.1 ht
    rw [List.getElem?_append_right hown, List.getElem?_map, Option.map_eq_some_iff] at htypeIndex
    obtain ⟨g, hg, -⟩ := htypeIndex
    have hcallee := h.own _ (List.getElem?_eq_some_iff.1 hg).1
    rw [Nat.add_sub_cancel' hown] at hcallee
    exact ⟨_, hcallee, .inr ⟨hown, rfl⟩⟩

end Resident

/-! ## What code can reach -/

/-- What the code of an instance can make of a store: it changes its own scope. -/
structure Within (inst : Nat) (s s' : Store) : Prop where
  self : ∀ x, s.instances[inst]? = some x →
    ∃ globals rest, s'.instances[inst]? = some { x with globals := globals, rest := rest }
  others : ∀ k : Nat, k ≠ inst → s'.instances[k]? = s.instances[k]?
  memories : ∀ j : Nat, s.linearOf? inst ≠ some j → s'.memories[j]? = s.memories[j]?
  closedHosts : s'.closedHosts = s.closedHosts

namespace Within

variable {s s' s'' : Store} {inst : Nat}

theorem refl (s : Store) (inst : Nat) : Within inst s s :=
  ⟨fun x hx => ⟨x.globals, x.rest, hx⟩, fun _ _ => rfl, fun _ _ => rfl, rfl⟩

theorem leave (s : Store) (inst : Nat) (v : Scope) : Within inst s (s.leave inst v) where
  self _ hx := ⟨v.globals, v.rest, leave_self hx⟩
  others _ hk := leave_others hk
  memories _ hj := leave_memories hj
  closedHosts := rfl

theorem linearOf?_eq (h : Within inst s s') (hinst : inst < s.instances.size) :
    s'.linearOf? inst = s.linearOf? inst := by
  obtain ⟨globals, rest, hself⟩ := h.self _ (Array.getElem?_eq_getElem hinst)
  rw [Store.linearOf?, Store.linearOf?, hself, Array.getElem?_eq_getElem hinst]
  rfl

theorem trans (h : Within inst s s') (h' : Within inst s' s'')
    (hinst : inst < s.instances.size) : Within inst s s'' where
  self x hx := by
    obtain ⟨globals, rest, hx'⟩ := h.self x hx
    obtain ⟨globals', rest', hx''⟩ := h'.self _ hx'
    exact ⟨globals', rest', hx''⟩
  others k hk := (h'.others k hk).trans (h.others k hk)
  memories j hj := by rw [h'.memories j (h.linearOf?_eq hinst ▸ hj), h.memories j hj]
  closedHosts := h'.closedHosts.trans h.closedHosts

end Within

/-! ## Signals -/

/-- What is worth noting while the code of an instance runs. -/
inductive Mark where
  /-- A signal was passed to an import. -/
  | passed (s : Signal)
  /-- There was no room for the call of an import. -/
  | cramped
  /-- The run was given up before its end. -/
  | givenUp
deriving DecidableEq

def Mark.signal? : Mark → Option Signal
  | passed s => some s
  | _ => none

/-- The signals among what is noted. -/
def passed (noted : List Mark) : List Signal := noted.filterMap Mark.signal?

theorem passed_append (xs ys : List Mark) : passed (xs ++ ys) = passed xs ++ passed ys :=
  List.filterMap_append ..

theorem length_of_signalOf? {args : List UInt64} {signal : Signal}
    (h : signalOf? args = some signal) : args.length = signalType.params.length := by
  rcases args with - | ⟨hi, - | ⟨lo, - | ⟨v, rest⟩⟩⟩
  · cases h
  · cases h
  · rfl
  · cases h

theorem signalOf?_of_length {args : List UInt64} (h : args.length = signalType.params.length) :
    ∃ hi lo, args = [hi, lo] ∧
      signalOf? args = some { hi := hi.toUInt32, lo := lo.toUInt32 } := by
  obtain ⟨hi, lo, rfl⟩ : ∃ hi lo, args = [hi, lo] := List.length_eq_two.1 h
  exact ⟨hi, lo, rfl, rfl⟩

/-! ## Accounts -/

/-- What a run of an instance's code has come to: it has kept to its scope, and unless it was given
up, the host has been asked to post what the code passed to its imports. -/
structure Accounts (inst : Nat) (s : Store) (posted : List Signal) (noted : List Mark)
    (out : Ending × List Signal × Store) : Prop where
  within : Within inst s out.2.2
  posts : .givenUp ∉ noted → out.2.1 = posted ++ passed noted

namespace Accounts

variable {inst : Nat} {s s' : Store} {posted : List Signal} {noted : List Mark}
  {out : Ending × List Signal × Store}

theorem of_end (ending : Ending) (h : passed noted = []) :
    Accounts inst s posted noted (ending, posted, s) where
  within := .refl s inst
  posts _ := by rw [h, List.append_nil]

/-- The code has gone on in its scope. -/
theorem later {v : Scope} (h : Accounts inst (s.leave inst v) posted noted out)
    (hinst : inst < s.instances.size) : Accounts inst s posted noted out where
  within := (Within.leave s inst v).trans h.within hinst
  posts := h.posts

end Accounts

variable [Machine]

/-! ## Machines that run trampolines -/

/-- Code that goes on by itself and leaves its scope as it found it. -/
inductive Silent (m : Module) (closing : Option Closing) (v : Scope) :
    Machine.Body → Machine.Body → Prop
  | refl (b : Machine.Body) : Silent m closing v b b
  | step {b b' b'' : Machine.Body} (h : Machine.step m closing v b = .ran v b')
    (h' : Silent m closing v b' b'') : Silent m closing v b b''

/-- The machine takes the binary of a trampoline for what it says, if it accepts it, and accepts no
two exports of one name. A function of a trampoline that has the type of the signal function calls
its import with the signal that it was called with, and ends when the import is done. It does
nothing else, whether or not its instance is closed. -/
class Machine.RunsTrampolines : Prop where
  accepts : ∀ {t : Trampoline} {bytes : Bytes} {pageLimit : Nat} {m : Module}, t.Numeric →
    t.encode = some bytes → Machine.compile? pageLimit bytes = some m →
    t.Fits ∧ t.exportNames.Nodup ∧ m = t.meaning
  forwards : ∀ {t : Trampoline} {i : Nat} {f : Trampoline.Func}, t.Fits → t.funcs[i]? = some f →
    f.type = signalType → ∀ (closing : Option Closing) (v : Scope) (hi lo : UInt64),
    ∃ b b₁ b₂ b₃ args operands,
      Machine.enter? t.meaning (t.funcs.length + i) [hi, lo] = some b ∧
      Silent t.meaning closing v b b₁ ∧ Machine.step t.meaning closing v b₁ = .call i args b₂ ∧
      signalOf? args = some { hi := hi.toUInt32, lo := lo.toUInt32 } ∧
      Silent t.meaning closing v (Machine.resume [] b₂) b₃ ∧
      Machine.step t.meaning closing v b₃ = .ended operands

/-! ## What is noted of a run -/

/-- The arguments with which the innermost call is about to call an import, if it is a call of
instance `inst`. -/
def importCall? (inst : Nat) (s : Store) : List Frame → Option (List UInt64)
  | [] => none
  | f :: _ =>
    match f.move s with
    | .call index args _ =>
      if f.inst = inst ∧ index < importCount s inst then some args else none
    | _ => none

/-- What is noted when the call of an import leads to this. -/
def Next.mark (args : List UInt64) : Next → List Mark
  | .running _ _ | .asked _ _ _ => (signalOf? args).toList.map .passed
  | .trapped .stackOverflow => [.cramped]
  | _ => []

/-- What is noted of at most `steps` steps of a thread that runs code of instance `inst`. -/
def marks (inst : Nat) : (steps : Nat) → Store → List Frame → List Mark
  | 0, _, _ => [.givenUp]
  | steps + 1, s, frames =>
    let next := step s frames
    ((importCall? inst s frames).map next.mark).getD [] ++
      match next with
      | .running s' frames' => marks inst steps s' frames'
      | .asked _ args frames' =>
        if (signalOf? args).isSome then marks inst steps s (handBack [] frames') else []
      | _ => []

section Marks

variable {inst : Nat} {s : Store} {f : Frame} {rest : List Frame} {args : List UInt64}

theorem importCall?_eq_none (h : f.inst ≠ inst) : importCall? inst s (f :: rest) = none := by
  rw [importCall?]
  split
  · exact if_neg fun hcall => h hcall.1
  · rfl

theorem importCall?_of_call {index : Nat} {body : Machine.Body} (rest : List Frame)
    (hf : f.inst = inst) (hmove : f.move s = .call index args body) :
    importCall? inst s (f :: rest) =
      if index < importCount s inst then some args else none := by
  rw [importCall?, hmove]
  simp [hf]

end Marks

/-! ## Threads that change nothing -/

/-- In `k` steps, which leave the store alone, a thread comes to other frames. These signals are
posted on the way, and this is noted of instance `inst`. -/
structure Passes (s : Store) (inst k : Nat) (signals : List Signal) (noted : List Mark)
    (frames frames' : List Frame) : Prop where
  runs : ∀ (n : Nat) (posted : List Signal), run signalHost (k + n) posted s frames =
    run signalHost n (posted ++ signals) s frames'
  noted : ∀ n, marks inst (k + n) s frames = noted ++ marks inst n s frames'
  short : ∀ n < k, .givenUp ∈ marks inst n s frames ∧
    ∀ posted, (run signalHost n posted s frames).2.2 = s

namespace Passes

variable {s : Store} {inst k k' : Nat} {signals signals' : List Signal} {noted noted' : List Mark}
  {f : Frame} {rest frames frames' frames'' : List Frame}

theorem refl (s : Store) (inst : Nat) (frames : List Frame) :
    Passes s inst 0 [] [] frames frames where
  runs n posted := by rw [Nat.zero_add, List.append_nil]
  noted n := by rw [Nat.zero_add, List.nil_append]
  short n hn := absurd hn (Nat.not_lt_zero n)

theorem trans (h : Passes s inst k signals noted frames frames')
    (h' : Passes s inst k' signals' noted' frames' frames'') :
    Passes s inst (k + k') (signals ++ signals') (noted ++ noted') frames frames'' where
  runs n posted := by rw [Nat.add_assoc, h.runs, h'.runs, List.append_assoc]
  noted n := by rw [Nat.add_assoc, h.noted, h'.noted, List.append_assoc]
  short n hn := by
    by_cases hk : n < k
    · exact h.short n hk
    · obtain ⟨n, rfl⟩ := Nat.exists_eq_add_of_le (Nat.le_of_not_lt hk)
      obtain ⟨hgivenUp, hstore⟩ := h'.short n (by omega)
      refine ⟨?_, fun posted => by rw [h.runs, hstore]⟩
      rw [h.noted]
      exact List.mem_append_right _ hgivenUp

theorem of_one (hrun : ∀ (n : Nat) (posted : List Signal), run signalHost (n + 1) posted s frames =
      run signalHost n (posted ++ signals) s frames')
    (hnoted : ∀ n, marks inst (n + 1) s frames = noted ++ marks inst n s frames') :
    Passes s inst 1 signals noted frames frames' where
  runs n posted := by rw [Nat.add_comm, hrun]
  noted n := by rw [Nat.add_comm, hnoted]
  short n hn := by
    obtain rfl : n = 0 := by omega
    exact ⟨List.mem_singleton_self _, fun _ => rfl⟩

/-- One step of code. -/
theorem of_running (h : step s frames = .running s frames')
    (hcall : importCall? inst s frames = none) : Passes s inst 1 [] [] frames frames' := by
  refine of_one (fun n posted => ?_) fun n => ?_
  · rw [run_running n h, List.append_nil]
  · rw [marks, h, hcall]
    rfl

/-- One step of code that calls an import. -/
theorem of_entered {args : List UInt64} {signal : Signal} (h : step s frames = .running s frames')
    (hcall : importCall? inst s frames = some args) (hsignal : signalOf? args = some signal) :
    Passes s inst 1 [] [.passed signal] frames frames' := by
  refine of_one (fun n posted => ?_) fun n => ?_
  · rw [run_running n h, List.append_nil]
  · rw [marks, h, hcall, Option.map_some, Option.getD_some, Next.mark, hsignal]
    rfl

/-- A question to the host. -/
theorem of_asked {function : HostFunc} {args : List UInt64} {signal : Signal}
    (h : step s frames = .asked function args frames') (hsignal : signalOf? args = some signal)
    (hnoted : ((importCall? inst s frames).map
      (Next.asked function args frames').mark).getD [] = noted) :
    Passes s inst 1 [signal] noted frames (handBack [] frames') := by
  refine of_one (fun n posted => ?_) fun n => ?_
  · have hhost : signalHost function args (posted, s) = (.ok [], posted ++ [signal], s) := by
      rw [signalHost, hsignal]
    rw [run_answered n h hhost, List.reverse_nil]
  · rw [marks, h, hnoted]
    simp [hsignal]

/-- Code that goes on silently passes. -/
theorem of_silent {b : Machine.Body} (rest : List Frame) (hf : f.inst ≠ inst)
    (h : Silent (s.moduleOf f.inst) (s.closing? (.instance f.inst)) (s.scope f.inst) f.body b) :
    ∃ k, Passes s inst k [] [] (f :: rest) ({ f with body := b } :: rest) := by
  obtain ⟨owner, index, type, body⟩ := f
  dsimp only at h
  induction h with
  | refl b => exact ⟨0, .refl s inst _⟩
  | @step b b' b'' hstep h' ih =>
    obtain ⟨k, hk⟩ := ih hf
    have hnext := step_silent (f := ⟨owner, index, type, b⟩) rest hstep
    exact ⟨1 + k, (of_running hnext (importCall?_eq_none hf)).trans hk⟩

end Passes

/-! ## Calls of imports -/

/-- What a function of an instance is entered with. -/
theorem enter?_eq_some {s : Store} {inst index : Nat} {args : List UInt64} {f : Frame}
    (h : s.enter? inst index args = some f) : f.inst = inst ∧ f.index = index ∧
      ∃ x, s.instances[inst]? = some x ∧ x.module.funcType? index = some f.type ∧
        Machine.enter? x.module index args = some f.body := by
  obtain ⟨x, hx, h⟩ := Option.bind_eq_some_iff.1 h
  obtain ⟨t, ht, h⟩ := Option.bind_eq_some_iff.1 h
  obtain ⟨body, hbody, h⟩ := Option.bind_eq_some_iff.1 h
  cases h
  exact ⟨rfl, rfl, x, hx, ht, hbody⟩

theorem enter?_of_eq {s : Store} {inst index : Nat} {args : List UInt64} {x : Instance}
    {t : FuncType} {body : Machine.Body} (hx : s.instances[inst]? = some x)
    (ht : x.module.funcType? index = some t)
    (hbody : Machine.enter? x.module index args = some body) :
    s.enter? inst index args = some { inst := inst, index := index, type := t, body := body } := by
  simp [Store.enter?, hx, ht, hbody]

section

variable {s : Store} {env inst index : Nat} {m : Module} {callees : List Callee} {f : Frame}
  {args : List UInt64}

/-- What a call of a resident's code leads to. -/
theorem Resident.startCall_cases (h : Resident s env inst m callees) (hf : f.inst = inst)
    (rest : List Frame) (index : Nat) (args : List UInt64) :
    ((∀ t, m.funcType? index = some t → args.length ≠ t.params.length) ∧
      startCall s f rest index args = .trapped .unreachable) ∨
    ∃ t callee, m.funcType? index = some t ∧ args.length = t.params.length ∧
      callees[index]? = some callee ∧
      startCall s f rest index args = invoke s args (f :: rest) callee ∧
      ((index < m.importedFuncs.length ∧ t = signalType ∧ Posts s env inst callee) ∨
        (m.importedFuncs.length ≤ index ∧ callee = .code inst index)) := by
  obtain ⟨x, hx, rfl, rfl⟩ := h.found
  have hx' := hf ▸ hx
  by_cases hbad : ∀ t, x.module.funcType? index = some t → args.length ≠ t.params.length
  · exact .inl ⟨hbad, startCall_trapped rest hx' hbad⟩
  · simp only [not_forall, not_not] at hbad
    obtain ⟨t, ht, hargs⟩ := hbad
    obtain ⟨callee, hcallee, hcase⟩ := h.callee ht
    have hcallee' : x.callees[index]? = some callee := Array.getElem?_toList ▸ hcallee
    exact .inr ⟨t, callee, ht, hargs, hcallee, startCall_invoke rest hx' hcallee' ht hargs, hcase⟩

/-- A call that is forwarded posts its arguments and comes to its end. -/
theorem Posts.forwards [Machine.RunsTrampolines] {owner : Nat}
    (h : Posts s env inst (.code owner index)) (hi lo : UInt64) :
    ∃ (called done : Frame) (operands : List UInt64),
      s.enter? owner index [hi, lo] = some called ∧ called.inst ≠ inst ∧
      done.inst ≠ inst ∧ done.type = signalType ∧ done.move s = .ended operands ∧
      ∀ rest, ∃ k, Passes s inst k [{ hi := hi.toUInt32, lo := lo.toUInt32 }] []
        (called :: rest) (done :: rest) := by
  cases h with
  | @forwarder t functions i f function hstands hfits hf hfunction htype htype' henv =>
    obtain ⟨x, hx, hmodule, hcallees⟩ := hstands.instance
    have hself : s.moduleOf env = t.meaning := by
      rw [Store.moduleOf, hx, Option.map_some, hmodule]
      rfl
    obtain ⟨b, b₁, b₂, b₃, args, operands, henter, hbefore, hcall, hsignal, hafter, hend⟩ :=
      Machine.RunsTrampolines.forwards hfits hf htype (s.closing? (.instance env)) (s.scope env)
        hi lo
    rw [← hself] at hbefore hcall hafter hend
    let frame (b : Machine.Body) : Frame :=
      { inst := env, index := t.funcs.length + i, type := f.type, body := b }
    have hcallee : x.callees[i]? = some (.host function) := by
      have hlt := (List.getElem?_eq_some_iff.1 hfunction).1
      rw [← Array.getElem?_toList, hcallees, Trampoline.calleesOf,
        List.getElem?_append_left (by simpa using hlt), List.getElem?_map, hfunction]
      rfl
    have himport : x.module.funcType? i = some f.type := by
      rw [hmodule, Trampoline.funcType?_import hfits hf]
    have hargs : args.length = f.type.params.length := by
      rw [htype]
      exact length_of_signalOf? hsignal
    refine ⟨frame b, frame b₃, operands, ?_, henv, henv, htype, hend, fun rest => ?_⟩
    · exact enter?_of_eq hx (hmodule ▸ Trampoline.funcType?_export hfits hf) (hmodule ▸ henter)
    · obtain ⟨k, hk⟩ := Passes.of_silent (f := frame b) rest henv hbefore
      have hasked : step s (frame b₁ :: rest) = .asked function args (frame b₂ :: rest) :=
        (step_call (f := frame b₁) rest hcall).trans (startCall_host rest hx hcallee himport hargs)
      obtain ⟨k', hk'⟩ :=
        Passes.of_silent (f := frame (Machine.resume [] b₂)) rest henv hafter
      have hunnoted : ((importCall? inst s (frame b₁ :: rest)).map
          (Next.asked function args (frame b₂ :: rest)).mark).getD [] = [] := by
        rw [importCall?_eq_none henv]
        rfl
      exact ⟨_, (hk.trans (.of_asked hasked hsignal hunnoted)).trans hk'⟩

/-- A call of an import has no room, or asks the host to post its arguments, and then the caller
goes on. -/
theorem Posts.passes [Machine.RunsTrampolines] {callee : Callee} {frames waiting : List Frame}
    {hi lo : UInt64} (h : Posts s env inst callee)
    (hcall : importCall? inst s frames = some [hi, lo]) (hwaiting : waiting ≠ [])
    (hstep : step s frames = invoke s [hi, lo] waiting callee) :
    step s frames = .trapped .stackOverflow ∨
      ∃ k, 0 < k ∧ Passes s inst k [⟨hi.toUInt32, lo.toUInt32⟩]
        [.passed ⟨hi.toUInt32, lo.toUInt32⟩] frames (handBack [] waiting) := by
  have hsignal : signalOf? [hi, lo] = some { hi := hi.toUInt32, lo := lo.toUInt32 } := rfl
  cases callee with
  | host function =>
    refine .inr ⟨1, Nat.one_pos, .of_asked hstep hsignal ?_⟩
    rw [hcall]
    rfl
  | code owner target =>
    obtain ⟨called, done, operands, henter, -, hdone, hresults, hend, hpasses⟩ :=
      h.forwards hi lo
    rw [invoke, henter] at hstep
    by_cases hroom : Machine.room (waiting.map (·.body)) = true
    · obtain ⟨k, hk⟩ := hpasses waiting
      obtain ⟨caller, rest, rfl⟩ := List.exists_cons_of_ne_nil hwaiting
      have hreturn : step s (done :: caller :: rest) =
          .running s (handBack [] (caller :: rest)) := by
        rw [step_handBack hend, hresults]
        rfl
      have hentered := Passes.of_entered (hstep.trans (if_pos hroom)) hcall hsignal
      exact .inr ⟨_, by omega, (hentered.trans hk).trans
        (.of_running hreturn (importCall?_eq_none hdone))⟩
    · exact .inl (hstep.trans (if_neg hroom))

end

/-! ## Runs of guest code -/

section

variable {s : Store} {env inst : Nat} {m : Module} {callees : List Callee} {f : Frame}
  {rest frames : List Frame}

/-- The calls that wait for results are calls of the same instance. -/
theorem home_handBack {results : List UInt64} (h : ∀ f ∈ frames, f.inst = inst) :
    ∀ f ∈ handBack results frames, f.inst = inst := by
  cases frames with
  | nil => exact h
  | cons f rest =>
    intro g hg
    rcases List.mem_cons.1 hg with rfl | hg
    · exact h f List.mem_cons_self
    · exact h g (List.mem_cons_of_mem _ hg)

theorem home_cons (hf : f.inst = inst) (h : ∀ g ∈ rest, g.inst = inst) :
    ∀ g ∈ f :: rest, g.inst = inst := by
  intro g hg
  rcases List.mem_cons.1 hg with rfl | hg
  · exact hf
  · exact h g hg

/-- Some of what is passed on may have been noted before. -/
theorem Passes.accounts {k : Nat} {signals : List Signal} {noted : List Mark}
    {frames' : List Frame} (h : Passes s inst k signals noted frames frames') (before : List Mark)
    (hsignals : signals = passed (before ++ noted)) {steps : Nat} {posted : List Signal}
    (hgoes : ∀ left, steps = k + left → Accounts inst s (posted ++ signals)
      (marks inst left s frames') (run signalHost left (posted ++ signals) s frames')) :
    Accounts inst s posted (before ++ marks inst steps s frames)
      (run signalHost steps posted s frames) := by
  by_cases hshort : steps < k
  · obtain ⟨hgivenUp, hstore⟩ := h.short steps hshort
    refine ⟨?_, fun hends => absurd (List.mem_append_right _ hgivenUp) hends⟩
    rw [hstore]
    exact .refl s inst
  · obtain ⟨left, rfl⟩ := Nat.exists_eq_add_of_le (Nat.le_of_not_lt hshort)
    rw [h.runs, h.noted, ← List.append_assoc]
    obtain ⟨hwithin, hposts⟩ := hgoes left rfl
    refine ⟨hwithin, fun hends => ?_⟩
    rw [hposts fun hmem => hends (List.mem_append_right _ hmem), passed_append, ← hsignals,
      List.append_assoc]

/-- A step with which a thread comes to its end, by itself. -/
def Ends (s : Store) (inst : Nat) (frames : List Frame) : Prop :=
  ∀ steps, passed (marks inst (steps + 1) s frames) = [] ∧
    ∃ ending, ∀ posted, run signalHost (steps + 1) posted s frames = (ending, posted, s)

theorem Ends.accounts (h : Ends s inst frames) (steps : Nat) (posted : List Signal) :
    Accounts inst s posted (marks inst steps s frames)
      (run signalHost steps posted s frames) := by
  cases steps with
  | zero => exact ⟨.refl s inst, fun hends => absurd (List.mem_singleton_self _) hends⟩
  | succ steps =>
    obtain ⟨hnone, ending, hrun⟩ := h steps
    rw [hrun]
    exact .of_end ending hnone

theorem ends_of_trapped {reason : Trap} (h : step s frames = .trapped reason) :
    Ends s inst frames := by
  intro steps
  refine ⟨?_, _, fun posted => run_trapped steps h⟩
  rw [marks, h, List.append_nil]
  cases importCall? inst s frames with
  | none => rfl
  | some args => cases reason <;> rfl

theorem ends_of_finished {results : List UInt64} (h : step s frames = .finished results) :
    Ends s inst frames := by
  intro steps
  refine ⟨?_, _, fun posted => run_finished steps h⟩
  rw [marks, h, List.append_nil]
  cases importCall? inst s frames <;> rfl

theorem ends_of_closed {why : Closing} (h : step s frames = .closed why) :
    Ends s inst frames := by
  intro steps
  refine ⟨?_, _, fun posted => run_closed steps h⟩
  rw [marks, h, List.append_nil]
  cases importCall? inst s frames <;> rfl

/-- What a thread of a guest comes to next: its end, another scope, or a call or a return, which may
post a signal. -/
theorem Resident.goes [Machine.RunsTrampolines] (h : Resident s env inst m callees)
    (hhome : ∀ f ∈ frames, f.inst = inst) :
    Ends s inst frames ∨
    (∃ v frames', step s frames = .running (s.leave inst v) frames' ∧
      importCall? inst s frames = none ∧ ∀ f ∈ frames', f.inst = inst) ∨
    ∃ k noted frames', 0 < k ∧ Passes s inst k (passed noted) noted frames frames' ∧
      ∀ f ∈ frames', f.inst = inst := by
  cases frames with
  | nil => exact .inl (ends_of_finished rfl)
  | cons f rest =>
    have hf : f.inst = inst := hhome f List.mem_cons_self
    have hrest : ∀ g ∈ rest, g.inst = inst := fun g hg => hhome g (List.mem_cons_of_mem _ hg)
    cases hmove : f.move s with
    | ran v body =>
      refine .inr (.inl ⟨v, { f with body := body } :: rest, ?_, ?_, home_cons hf hrest⟩)
      · rw [step_ran rest hmove, hf]
      · rw [importCall?, hmove]
    | trapped reason => exact .inl (ends_of_trapped (by rw [step, hmove, follow]))
    | closed why => exact .inl (ends_of_closed (by rw [step, hmove, follow]))
    | ended operands =>
      cases rest with
      | nil => exact .inl (ends_of_finished (step_return hmove))
      | cons caller rest =>
        refine .inr (.inr ⟨1, [], _, Nat.one_pos, .of_running (step_handBack hmove) ?_,
          home_handBack hrest⟩)
        rw [importCall?, hmove]
    | call index args body =>
      have hstep := step_call rest hmove
      have hhome' : ∀ g ∈ { f with body := body } :: rest, g.inst = inst := home_cons hf hrest
      have hcall := importCall?_of_call rest hf hmove
      rw [h.importCount_eq] at hcall
      rcases h.startCall_cases (f := { f with body := body }) hf rest index args with
        ⟨-, hbad⟩ | ⟨t, callee, -, hargs, -, hinvoke, hcase⟩
      · exact .inl (ends_of_trapped (hstep.trans hbad))
      rcases hcase with ⟨hindex, rfl, hposts⟩ | ⟨hindex, rfl⟩
      · obtain ⟨hi, lo, rfl, -⟩ := signalOf?_of_length hargs
        rw [if_pos hindex] at hcall
        rcases hposts.passes hcall (List.cons_ne_nil _ _) (hstep.trans hinvoke) with
          hfull | ⟨k, hk, hpasses⟩
        · exact .inl (ends_of_trapped hfull)
        · exact .inr (.inr ⟨k, [.passed _], _, hk, hpasses, home_handBack hhome'⟩)
      · rw [if_neg (Nat.not_lt.2 hindex)] at hcall
        rw [invoke] at hinvoke
        cases henter : s.enter? inst index args with
        | none =>
          rw [henter] at hinvoke
          exact .inl (ends_of_trapped (hstep.trans hinvoke))
        | some called =>
          rw [henter] at hinvoke
          dsimp only at hinvoke
          split at hinvoke
          · exact .inr (.inr ⟨1, [], _, Nat.one_pos, .of_running (hstep.trans hinvoke) hcall,
              home_cons (enter?_eq_some henter).1 hhome'⟩)
          · exact .inl (ends_of_trapped (hstep.trans hinvoke))

/-- The code of a guest keeps to its scope, and the host is asked to post what it passes to its
imports. -/
theorem Resident.accounts [Machine.RunsTrampolines] (h : Resident s env inst m callees)
    (hhome : ∀ f ∈ frames, f.inst = inst) (steps : Nat) (posted : List Signal) :
    Accounts inst s posted (marks inst steps s frames)
      (run signalHost steps posted s frames) := by
  -- A call of an import may take many steps at once, so that the induction is over all fewer steps.
  induction steps using Nat.strong_induction_on generalizing s frames posted with
  | _ steps ih =>
    rcases h.goes hhome with
      hends | ⟨v, frames', hstep, hcall, hhome'⟩ | ⟨k, noted, frames', hk, hpasses, hhome'⟩
    · exact hends.accounts steps posted
    · cases steps with
      | zero => exact ⟨.refl s inst, fun hends => absurd (List.mem_singleton_self _) hends⟩
      | succ steps =>
        have hlater := ih steps steps.lt_succ_self (h.later (Evolves.leave s inst v)) hhome' posted
        rw [run_running steps hstep, marks, hstep, hcall]
        exact hlater.later h.lt_size
    · exact hpasses.accounts [] rfl fun left hleft => ih left (by omega) h hhome' _

end

end GuestThreads.Wasm
