import GuestThreads.Proofs.Wasm.Linked
import GuestThreads.Proofs.World.Lineup

/-!
# Calls of guests

A call of a function of a resident is refused and changes nothing, or finds its context cancelled
and closes the owner of the function, or runs. If it runs, it keeps to the scope of the resident,
and it is noted what it passes to the imports.
-/

namespace GuestThreads.World

/-- The outcome of a call once its code has ended, if the owner of the function is not closed. -/
def callOutcome (s : Wasm.Store) (owner : Wasm.Owner) :
    Except Fault (List UInt64) → Except Fault (List UInt64)
  | .error f => .error f
  | .ok results =>
    match s.closing? owner with
    | some why => .error (closingFault why)
    | none => .ok results

/-- A call whose context is cancelled does not run, if the engine minds. -/
def gaveUp (c : Config) (cancelled : Bool) : Bool := cancelled && c.engine.closeOnContextDone

/-- What a call reports that was given up. -/
def gaveUpFault (s : Wasm.Store) (owner : Wasm.Owner) : Fault :=
  closingFault (((s.close owner .cancelled).closing? owner).getD .cancelled)

/-- Why a function of this type is not called with these arguments. -/
def refusal? (args : List UInt64) : Option Wasm.FuncType → Option Fault
  | none => some unknown
  | some t =>
    if args.length = t.params.length then none
    else some (.external (.arity t.params.length args.length))

theorem type_of_unrefused {args : List UInt64} {type : Option Wasm.FuncType}
    (h : refusal? args type = none) : ∃ t, type = some t ∧ args.length = t.params.length := by
  cases type with
  | none => cases h
  | some t => exact ⟨t, rfl, by simpa [refusal?] using h⟩

variable [Wasm.Machine]

/-! ## Calls that run -/

/-- What a call of a function starts with, if the machine enters it. -/
def entering? (s : Wasm.Store) (args : List UInt64) : Wasm.Callee → Option Entry
  | .host _ => some (.host args)
  | .code definer target => (s.enter? definer target args).map .code

namespace Entry

/-- How a call ends, what it posts and which store it leaves. -/
def run (s : Wasm.Store) : Entry → Wasm.Ending × List Signal × Wasm.Store
  | code frame => Wasm.run Wasm.signalHost Wasm.Machine.stepLimit [] s [frame]
  | host args => (.finished [], (Wasm.signalOf? args).toList, s)

/-- What is noted of the code of instance `inst` while the call runs. -/
def marks (s : Wasm.Store) (inst : Nat) : Entry → List Wasm.Mark
  | code frame => Wasm.marks inst Wasm.Machine.stepLimit s [frame]
  | host _ => []

end Entry

/-- What is noted of a call of function `index`, which may be an import itself. -/
def callMarks (s : Wasm.Store) (inst index : Nat) (args : List UInt64) (entry : Entry) :
    List Wasm.Mark :=
  (if index < Wasm.importCount s inst then (Wasm.signalOf? args).toList.map .passed else []) ++
    entry.marks s inst

theorem enterCallee_code {w : World} {definer target : Nat} {args : List UInt64}
    {frame : Wasm.Frame} (h : w.store.enter? definer target args = some frame) :
    enterCallee (.code definer target) args w = (.ok (.instance definer, .code frame), w) := by
  refine (read_run _ w).trans ?_
  rw [h]
  rfl

theorem enterCallee_run (w : World) (callee : Wasm.Callee) (args : List UInt64) :
    enterCallee callee args w =
      (match entering? w.store args callee with
        | none => .error unknown
        | some entry => .ok (callee.owner, entry), w) := by
  cases callee with
  | host function => rfl
  | code definer target =>
    cases h : w.store.enter? definer target args with
    | none =>
      refine (read_run _ w).trans ?_
      rw [entering?, h]
      rfl
    | some frame => rw [enterCallee_code h, entering?, h]; rfl

section

variable {w : World} {env inst index : Nat} {m : Wasm.Module} {callees : List Wasm.Callee}
  {args : List UInt64} {t : Wasm.FuncType} {callee : Wasm.Callee} {entry : Entry}

/-- A call of a resident keeps to its scope, and the host is asked to post what it passes to the
imports. -/
theorem accounts_of_entry [Wasm.Machine.RunsTrampolines] {s : Wasm.Store}
    (h : Wasm.Resident s env inst m callees) (ht : m.funcType? index = some t)
    (hargs : args.length = t.params.length) (hcallee : callees[index]? = some callee)
    (hentry : entering? s args callee = some entry) :
    Wasm.Accounts inst s [] (callMarks s inst index args entry) (entry.run s) := by
  obtain ⟨callee', hcallee', hcase⟩ := h.callee ht
  cases hcallee.symm.trans hcallee'
  rw [callMarks, h.importCount_eq]
  rcases hcase with ⟨hindex, rfl, hposts⟩ | ⟨hindex, rfl⟩
  · obtain ⟨hi, lo, rfl, hsignal⟩ := Wasm.signalOf?_of_length hargs
    rw [if_pos hindex]
    cases callee with
    | host function =>
      cases hentry
      exact ⟨.refl s inst, fun _ => rfl⟩
    | code definer target =>
      obtain ⟨called, done, operands, henter, -, hdone, htype, hend, hpasses⟩ :=
        hposts.forwards hi lo
      rw [entering?, henter] at hentry
      cases hentry
      obtain ⟨k, hk⟩ := hpasses []
      have hends : Wasm.Ends s inst [done] := Wasm.ends_of_finished (Wasm.step_return hend)
      exact hk.accounts _ rfl fun left _ => hends.accounts left _
  · obtain ⟨frame, hframe, rfl⟩ := Option.map_eq_some_iff.1 hentry
    rw [if_neg (Nat.not_lt.2 hindex), List.nil_append]
    refine h.accounts (fun f hf => ?_) Wasm.Machine.stepLimit []
    rw [List.mem_singleton.1 hf]
    exact (Wasm.enter?_eq_some hframe).1

section

variable (e : Engine) (cancelled : Bool)

theorem enterCall_refused {f : Fault} (h : Wasm.Resident w.store env inst m callees)
    (hf : refusal? args (m.funcType? index) = some f) :
    enterCall e cancelled inst index args w = (.error f, w) := by
  cases ht : m.funcType? index with
  | none =>
    rw [ht] at hf
    cases hf
    obtain ⟨x, hx, rfl, -⟩ := h.found
    rw [enterCall, read_run, hx]
    cases hcallee : x.callees[index]? with
    | none =>
      simp only [hcallee]
      rfl
    | some callee =>
      simp only [hcallee, ht]
      rfl
  | some t =>
    obtain ⟨callee, hcallee, -⟩ := h.callee ht
    obtain ⟨x, hx, rfl, rfl⟩ := h.found
    rw [Array.getElem?_toList] at hcallee
    rw [ht, refusal?] at hf
    split at hf
    · cases hf
    · rename_i hargs
      cases hf
      rw [enterCall, read_run, hx]
      simp only [hcallee, ht, if_pos hargs]
      rfl

theorem enterCall_gaveUp (h : Wasm.Resident w.store env inst m callees)
    (ht : m.funcType? index = some t) (hargs : args.length = t.params.length)
    (hcallee : callees[index]? = some callee) (hgaveUp : gaveUp e.config cancelled = true) :
    enterCall e cancelled inst index args w = (.error (gaveUpFault w.store callee.owner),
      { w with store := w.store.close callee.owner .cancelled }) := by
  obtain ⟨x, hx, rfl, rfl⟩ := h.found
  rw [Array.getElem?_toList] at hcallee
  rw [gaveUp] at hgaveUp
  rw [enterCall, read_run, hx]
  simp only [hcallee, ht, if_neg (not_not_intro hargs), if_pos hgaveUp]
  rfl

theorem enterCall_run (h : Wasm.Resident w.store env inst m callees)
    (ht : m.funcType? index = some t) (hargs : args.length = t.params.length)
    (hcallee : callees[index]? = some callee) (hgaveUp : gaveUp e.config cancelled = false) :
    enterCall e cancelled inst index args w = enterCallee callee args w := by
  obtain ⟨x, hx, rfl, rfl⟩ := h.found
  rw [Array.getElem?_toList] at hcallee
  rw [gaveUp] at hgaveUp
  rw [enterCall, read_run, hx]
  simp only [hcallee, ht, if_neg (not_not_intro hargs), hgaveUp]
  rfl

variable (sink : Option Sink) (trap : Wasm.Trap → List Wasm.Call → Cause)

theorem callFunction_of_error {f : Fault} {w' : World}
    (h : enterCall e cancelled inst index args w = (.error f, w')) :
    callFunction e sink cancelled inst index args trap w = (.error f, w') := by
  rw [callFunction, bind_run, h]

/-- A call that is entered comes to what its code comes to. -/
theorem callFunction_of_entry {owner : Wasm.Owner}
    (h : enterCall e cancelled inst index args w = (.ok (owner, entry), w))
    (hhost : ∀ args, entry = .host args → (Wasm.signalOf? args).isSome) :
    callFunction e sink cancelled inst index args trap w =
      let out := entry.run w.store
      (callOutcome out.2.2 owner (outcome trap out.1),
        afterPosts sink out.2.1 { w with store := out.2.2 }) := by
  have hexecute : execute sink trap entry w =
      (outcome trap (entry.run w.store).1,
        afterPosts sink (entry.run w.store).2.1 { w with store := (entry.run w.store).2.2 }) := by
    cases entry with
    | code frame => exact execute_code sink trap frame w
    | host args =>
      obtain ⟨signal, hsignal⟩ := Option.isSome_iff_exists.1 (hhost args rfl)
      rw [Entry.run, hsignal, execute, hsignal]
      rfl
  rw [callFunction, bind_run, h]
  dsimp only
  rw [bind_run, hexecute]
  generalize entry.run w.store = out
  have hstore : (afterPosts sink out.2.1 { w with store := out.2.2 }).store = out.2.2 :=
    (afterPosts_besideSignals sink out.2.1 _).store
  cases outcome trap out.1 with
  | error f => rfl
  | ok results =>
    dsimp only
    rw [unlessClosed, read_run, hstore, callOutcome]
    cases out.2.2.closing? owner <;> rfl

/-- A call that is not given up runs, if the machine enters the function. -/
theorem callFunction_run (h : Wasm.Resident w.store env inst m callees)
    (ht : m.funcType? index = some t) (hargs : args.length = t.params.length)
    (hcallee : callees[index]? = some callee) (hgaveUp : gaveUp e.config cancelled = false) :
    callFunction e sink cancelled inst index args trap w =
      match entering? w.store args callee with
      | none => (.error unknown, w)
      | some entry =>
        let out := entry.run w.store
        (callOutcome out.2.2 callee.owner (outcome trap out.1),
          afterPosts sink out.2.1 { w with store := out.2.2 }) := by
  have henter := (enterCall_run e cancelled h ht hargs hcallee hgaveUp).trans
    (enterCallee_run w callee args)
  cases hentry : entering? w.store args callee with
  | none =>
    rw [hentry] at henter
    exact callFunction_of_error e cancelled sink trap henter
  | some entry =>
    rw [hentry] at henter
    refine callFunction_of_entry e cancelled sink trap henter ?_
    rintro args' rfl
    cases callee with
    | code definer target =>
      obtain ⟨frame, -, hframe⟩ := Option.map_eq_some_iff.1 hentry
      cases hframe
    | host function =>
      cases hentry
      obtain ⟨callee', hcallee', hcase⟩ := h.callee ht
      cases hcallee.symm.trans hcallee'
      rcases hcase with ⟨-, rfl, -⟩ | ⟨-, hown⟩
      · obtain ⟨hi, lo, rfl, hsignal⟩ := Wasm.signalOf?_of_length hargs
        rw [hsignal]
        rfl
      · cases hown

end

end

end GuestThreads.World
