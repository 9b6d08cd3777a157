import GuestThreads.Wasm.Machine
import Mathlib.Data.List.Forall2

/-!
# Runs of guest code

What a run does next, by what its first step leads to, and what a step leads to, by the move of the
innermost call.
-/

namespace GuestThreads.Wasm

variable [Machine]

section Run

variable {σ : Type} {host : Host σ} {state state' : σ} {s s' : Store} {frames frames' : List Frame}
  {function : HostFunc} {args results : List UInt64} {reason : Trap}

theorem run_running (steps : Nat) (h : step s frames = .running s' frames') :
    run host (steps + 1) state s frames = run host steps state s' frames' := by
  rw [run, h]

theorem run_finished (steps : Nat) (h : step s frames = .finished results) :
    run host (steps + 1) state s frames = (.finished results, state, s) := by
  rw [run, h]

theorem run_trapped (steps : Nat) (h : step s frames = .trapped reason) :
    run host (steps + 1) state s frames = (.trapped reason (activeCalls frames), state, s) := by
  rw [run, h]

theorem run_closed {why : Closing} (steps : Nat) (h : step s frames = .closed why) :
    run host (steps + 1) state s frames = (.closed why, state, s) := by
  rw [run, h]

theorem run_answered (steps : Nat) (h : step s frames = .asked function args frames')
    (hhost : host function args (state, s) = (.ok results, state', s')) :
    run host (steps + 1) state s frames =
      run host steps state' s' (handBack results.reverse frames') := by
  rw [run, h]
  simp only [hhost]

theorem run_refused (steps : Nat) (h : step s frames = .asked function args frames')
    (hhost : host function args (state, s) = (.error reason, state', s')) :
    run host (steps + 1) state s frames = (.trapped reason (activeCalls frames), state', s') := by
  rw [run, h]
  simp only [hhost]

end Run

section Step

variable {s : Store} {f : Frame} {rest : List Frame} {v : Scope} {body : Machine.Body}
  {operands args : List UInt64} {index : Nat}

theorem step_ran (rest : List Frame) (h : f.move s = .ran v body) :
    step s (f :: rest) = .running (s.leave f.inst v) ({ f with body := body } :: rest) := by
  rw [step, h]
  rfl

theorem step_call (rest : List Frame) (h : f.move s = .call index args body) :
    step s (f :: rest) = startCall s { f with body := body } rest index args := by
  rw [step, h]
  rfl

theorem step_return (h : f.move s = .ended operands) :
    step s [f] = .finished (operands.take f.type.results.length).reverse := by
  rw [step, h]
  rfl

theorem step_handBack {caller : Frame} (h : f.move s = .ended operands) :
    step s (f :: caller :: rest) =
      .running s (handBack (operands.take f.type.results.length) (caller :: rest)) := by
  rw [step, h]
  rfl

variable {x : Instance} {t : FuncType}

theorem startCall_invoke {callee : Callee} (rest : List Frame)
    (hx : s.instances[f.inst]? = some x) (hcallee : x.callees[index]? = some callee)
    (ht : x.module.funcType? index = some t) (hargs : args.length = t.params.length) :
    startCall s f rest index args = invoke s args (f :: rest) callee := by
  simp only [startCall, hx, Option.bind_some, hcallee, ht, if_pos hargs]

/-- A function that is not there, or that takes other arguments, is not called. -/
theorem startCall_trapped (rest : List Frame) (hx : s.instances[f.inst]? = some x)
    (h : ∀ t, x.module.funcType? index = some t → args.length ≠ t.params.length) :
    startCall s f rest index args = .trapped .unreachable := by
  cases hcallee : x.callees[index]? with
  | none => simp only [startCall, hx, Option.bind_some, hcallee]
  | some callee =>
    cases ht : x.module.funcType? index with
    | none => simp only [startCall, hx, Option.bind_some, hcallee, ht]
    | some t => simp only [startCall, hx, Option.bind_some, hcallee, ht, if_neg (h t ht)]

/-- A function of the host is asked with the arguments. -/
theorem startCall_host {function : HostFunc} (rest : List Frame)
    (hx : s.instances[f.inst]? = some x) (hcallee : x.callees[index]? = some (.host function))
    (ht : x.module.funcType? index = some t) (hargs : args.length = t.params.length) :
    startCall s f rest index args = .asked function args (f :: rest) :=
  startCall_invoke rest hx hcallee ht hargs

/-- Guest code is entered with the arguments, if there is room for it. -/
theorem startCall_code {called : Frame} {owner target : Nat} (rest : List Frame)
    (hx : s.instances[f.inst]? = some x)
    (hcallee : x.callees[index]? = some (.code owner target))
    (ht : x.module.funcType? index = some t) (hargs : args.length = t.params.length)
    (henter : s.enter? owner target args = some called) :
    startCall s f rest index args =
      if Machine.room ((f :: rest).map (·.body)) then .running s (called :: f :: rest)
      else .trapped .stackOverflow := by
  rw [startCall_invoke rest hx hcallee ht hargs, invoke, henter]

end Step

end GuestThreads.Wasm
