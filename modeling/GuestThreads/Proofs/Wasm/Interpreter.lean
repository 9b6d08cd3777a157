import GuestThreads.Proofs.Wasm.Evolution
import GuestThreads.Wasm.Interpreter

/-!
# Steps of the interpreter

What the instructions of a function do to the thread that runs it.
-/

namespace GuestThreads.Wasm

namespace Frame

/-- The locals of a call. -/
abbrev locals (f : Frame) : List UInt64 := Activation.locals f.body

/-- The instructions that a call has still to run. -/
abbrev code (f : Frame) : List Instr := Activation.code f.body

/-- The operands of a call, topmost first. -/
abbrev stack (f : Frame) : List UInt64 := Activation.stack f.body

/-- A call that has come to other code with other operands. -/
def reach (f : Frame) (code : List Instr) (stack : List UInt64) : Frame :=
  { f with body := ({ locals := f.locals, code := code, stack := stack } : Activation) }

end Frame

section

variable {s : Store} {f : Frame} {rest : List Frame} {i : Instr} {code : List Instr}

theorem goOn_eq (hcode : f.code = i :: code) (stack : List UInt64) :
    { f with body := Activation.goOn f.body stack } = f.reach code stack := by
  rw [Activation.goOn, Frame.reach, ← show f.code = Activation.code f.body from rfl, hcode]
  rfl

theorem move_instr (hcode : f.code = i :: code) :
    f.move s = runInstr (s.moduleOf f.inst) (s.scope f.inst) f.body i := by
  change Activation.move (s.moduleOf f.inst) (s.scope f.inst) f.body = _
  rw [Activation.move, show Activation.code f.body = i :: code from hcode]

/-- An instruction that only works on the operands. -/
theorem step_operands (rest : List Frame) (hcode : f.code = i :: code) {stack : List UInt64}
    (h : runInstr (s.moduleOf f.inst) (s.scope f.inst) f.body i =
      .ran (s.scope f.inst) (Activation.goOn f.body stack)) :
    step s (f :: rest) = .running s (f.reach code stack :: rest) := by
  rw [step_silent rest ((move_instr hcode).trans h), goOn_eq hcode]

theorem step_localGet {p : UInt32} (hcode : f.code = .localGet p :: code) {v : UInt64}
    (hp : f.locals[p.toNat]? = some v) :
    step s (f :: rest) = .running s (f.reach code (v :: f.stack) :: rest) := by
  refine step_operands rest hcode ?_
  change Move.ran _ (Activation.goOn f.body ((f.locals[p.toNat]?).getD 0 :: f.stack)) = _
  rw [hp, Option.getD_some]

theorem step_i32Const {v : Int32} (hcode : f.code = .i32Const v :: code) :
    step s (f :: rest) = .running s (f.reach code (v.toUInt32.toUInt64 :: f.stack) :: rest) :=
  step_operands rest hcode rfl

/-- Reading locals one after the other leaves them on the stack, the last one on top. -/
theorem run_localGets {σ : Type} {host : Host σ} {state : σ} (steps : Nat) {ps : List UInt32}
    {vs locals : List UInt64} (h : List.Forall₂ (fun p v => locals[p.toNat]? = some v) ps vs)
    (hlocals : f.locals = locals) (hcode : f.code = ps.map Instr.localGet ++ code) :
    run host (ps.length + steps) state s (f :: rest) =
      run host steps state s (f.reach code (vs.reverse ++ f.stack) :: rest) := by
  induction h generalizing f with
  | nil =>
    rw [List.length_nil, Nat.zero_add, ← show f.code = code from hcode]
    rfl
  | @cons p v ps vs hp _ ih =>
    rw [List.length_cons, Nat.add_right_comm,
      run_running _ (step_localGet hcode (hlocals ▸ hp)), List.reverse_cons, List.append_assoc]
    exact ih hlocals rfl

theorem step_instr_call {n : UInt32} (rest : List Frame) (hcode : f.code = .call n :: code)
    {x : Instance} (hx : s.instances[f.inst]? = some x) {t : FuncType}
    (ht : x.module.funcType? n.toNat = some t) :
    step s (f :: rest) = startCall s (f.reach code (f.stack.drop t.params.length)) rest n.toNat
      (f.stack.take t.params.length).reverse := by
  have hmodule : s.moduleOf f.inst = x.module := by rw [Store.moduleOf, hx]; rfl
  have hmove : f.move s = .call n.toNat (f.stack.take t.params.length).reverse
      (Activation.goOn f.body (f.stack.drop t.params.length)) := by
    rw [move_instr hcode, runInstr, hmodule, ht]
  rw [step_call rest hmove, goOn_eq hcode]

/-- A function of the host is asked with the arguments on the stack. -/
theorem step_call_host {function : HostFunc} {n : UInt32} (rest : List Frame)
    (hcode : f.code = .call n :: code) {x : Instance} (hx : s.instances[f.inst]? = some x)
    (hcallee : x.callees[n.toNat]? = some (.host function)) {t : FuncType}
    (ht : x.module.funcType? n.toNat = some t) (hstack : t.params.length ≤ f.stack.length) :
    step s (f :: rest) = .asked function (f.stack.take t.params.length).reverse
      (f.reach code (f.stack.drop t.params.length) :: rest) := by
  rw [step_instr_call rest hcode hx ht]
  refine startCall_host rest hx hcallee ht ?_
  rw [List.length_reverse, List.length_take, Nat.min_eq_left hstack]

/-- A new instance is set up as soon as it is linked. -/
theorem interpreter_fill (s : Store) (inst : Nat) : s.fill inst = (none, s) :=
  congrArg (Prod.mk none) (leave_scope s inst)

theorem le_stepLimit {k : Nat} (h : k ≤ codeLimit + 1) : k ≤ stepLimit := by
  unfold stepLimit
  generalize codeLimit + 1 = B at h ⊢
  exact Nat.le_trans h (Nat.le_self_pow (Nat.succ_ne_zero callLimit) B)

theorem move_end (hcode : f.code = []) : f.move s = .ended f.stack := by
  change Activation.move (s.moduleOf f.inst) (s.scope f.inst) f.body = _
  rw [Activation.move, show Activation.code f.body = [] from hcode]

end

end GuestThreads.Wasm
