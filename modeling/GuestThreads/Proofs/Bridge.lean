import GuestThreads.Proofs.Fault
import GuestThreads.Proofs.World.Guests
import GuestThreads.Wasm.Interpreter

/-!
# Closing a bridge

An account of a run lists the requests that are made of a bridge, one after the other, whether they
come from its user or from an operation that runs on it. Up to the first close an account is that of
an open bridge, and after it nothing is asked of the instance any more: `closing_is_final`.
-/

namespace GuestThreads

variable {σ α β : Type}

/-! ## Handles -/

namespace Handle

/-- The state is in order, and the bridge is as open as before. -/
structure Unshut (h : Handle σ) (Valid : σ → Prop) (s s' : σ) : Prop where
  valid : Valid s'
  closed : h.closed s' = h.closed s

/-- Whether the bridge is closed is not for the instance to say. `Valid` tells the states that the
handle is made for. -/
structure Lawful (h : Handle σ) (Valid : σ → Prop) : Prop where
  shut {s : σ} : Valid s → Valid (h.shut s) ∧ h.closed (h.shut s) = true
  hasFunction {s : σ} (name : String) : Valid s → h.Unshut Valid s (h.hasFunction name s).2
  call {s : σ} (name : String) (args : List UInt64) :
    Valid s → h.Unshut Valid s (h.call name args s).2
  global {s : σ} (name : String) : Valid s → h.Unshut Valid s (h.global name s).2
  memory {s : σ} : Valid s → h.Unshut Valid s (h.memory s).2
  close {s : σ} : Valid s → h.Unshut Valid s (h.close s).2

/-- What can be asked of an instance. -/
inductive Ask where
  | hasFunction (name : String)
  | call (name : String) (args : List UInt64)
  | global (name : String)
  | memory
  | close
deriving DecidableEq

/-- A state, and what was asked of the instance up to then. -/
structure Recorded (σ : Type) where
  state : σ
  asked : List Ask := []

def Recorded.ask (a : Ask) (method : σ → α × σ) (s : Recorded σ) : α × Recorded σ :=
  ((method s.state).1, { state := (method s.state).2, asked := s.asked ++ [a] })

/-- What is left without the record. -/
def Recorded.forget (x : α × Recorded σ) : α × σ := (x.1, x.2.state)

/-- The same instance, with a record of what is asked of it. -/
def recorded (h : Handle σ) : Handle (Recorded σ) where
  closed s := h.closed s.state
  shut s := { s with state := h.shut s.state }
  hasFunction name := Recorded.ask (.hasFunction name) (h.hasFunction name)
  call name args := Recorded.ask (.call name args) (h.call name args)
  global name := Recorded.ask (.global name) (h.global name)
  memory := Recorded.ask .memory h.memory
  close := Recorded.ask .close h.close

variable {h : Handle σ} {Valid : σ → Prop}

section

variable (s : Recorded σ)

@[simp] theorem recorded_closed : h.recorded.closed s = h.closed s.state := rfl

@[simp] theorem recorded_shut : h.recorded.shut s = { s with state := h.shut s.state } := rfl

@[simp] theorem recorded_hasFunction (name : String) :
    h.recorded.hasFunction name s = s.ask (.hasFunction name) (h.hasFunction name) := rfl

@[simp] theorem recorded_call (name : String) (args : List UInt64) :
    h.recorded.call name args s = s.ask (.call name args) (h.call name args) := rfl

@[simp] theorem recorded_global (name : String) :
    h.recorded.global name s = s.ask (.global name) (h.global name) := rfl

@[simp] theorem recorded_memory : h.recorded.memory s = s.ask .memory h.memory := rfl

@[simp] theorem recorded_close : h.recorded.close s = s.ask .close h.close := rfl

end

theorem Unshut.refl {s : σ} (hs : Valid s) : h.Unshut Valid s s := ⟨hs, rfl⟩

theorem Unshut.trans {s s' s'' : σ} (hs : h.Unshut Valid s s') (hs' : h.Unshut Valid s' s'') :
    h.Unshut Valid s s'' :=
  ⟨hs'.valid, hs'.closed.trans hs.closed⟩

theorem Lawful.recorded (hlaw : h.Lawful Valid) : h.recorded.Lawful (Valid ·.state) where
  shut hs := hlaw.shut hs
  hasFunction name hs := ⟨(hlaw.hasFunction name hs).valid, (hlaw.hasFunction name hs).closed⟩
  call name args hs := ⟨(hlaw.call name args hs).valid, (hlaw.call name args hs).closed⟩
  global name hs := ⟨(hlaw.global name hs).valid, (hlaw.global name hs).closed⟩
  memory hs := ⟨(hlaw.memory hs).valid, (hlaw.memory hs).closed⟩
  close hs := ⟨(hlaw.close hs).valid, (hlaw.close hs).closed⟩

end Handle

open Handle (Ask Recorded)

namespace Bridge

/-! ## Requests -/

inductive Request where
  | call (name : String) (args : List UInt64)
  | invoke (name : String) (args : List UInt64)
  | global (name : String)
  | memory
  | close

inductive Answer where
  | results (r : Except Fault (List UInt64))
  /-- An operation takes over. -/
  | runs (op : Op)
  | value (r : Except Fault UInt64)
  | memory (m : Option Wasm.Memory)
  | closed (r : Except Fault Unit)

/-- The labels of the fault that is answered. -/
def Answer.labels? : Answer → Option (String × String)
  | .results (.error f) => f.labels?
  | .value (.error f) => f.labels?
  | .closed (.error f) => f.labels?
  | _ => none

/-- The answer of a closed bridge. -/
def Request.refusal : Request → Answer
  | .call _ _ => .results (.error closedFault)
  | .invoke _ _ => .results (.error closedFault)
  | .global _ => .value (.error closedFault)
  | .memory => .memory none
  | .close => .closed (.ok ())

/-- Serve a request, up to the operation that it may run. There is room for that many operations to
be nested. -/
def Request.serve (h : Handle σ) (b : Bridge) (room : Nat) : Request → σ → Answer × σ
  | .call name args, s => Prod.map .results id (Bridge.call h name args s)
  | .invoke name args, s =>
    if h.closed s then (.results (.error closedFault), s)
    else
      match b.op? name with
      | none => Prod.map .results id (Bridge.callExport h name args s)
      | some op => (if room = 0 then .results (.error tooDeep) else .runs op, s)
  | .global name, s => Prod.map .value id (Bridge.global h name s)
  | .memory, s => Prod.map .memory id (Bridge.memory h s)
  | .close, s => Prod.map .closed id (Bridge.close h s)

variable {h : Handle σ} {Valid : σ → Prop} {b : Bridge} {room : Nat} {s s' t : σ}

theorem serve_closed (hclosed : h.closed s = true) (r : Request) :
    r.serve h b room s = (r.refusal, s) := by
  cases r <;> simp [Request.serve, Request.refusal, call, global, memory, close, hclosed]

theorem refusal_labels? {r : Request} (hmemory : r ≠ .memory) (hclose : r ≠ .close) :
    r.refusal.labels? = some ("runtime", "closed") := by
  cases r with
  | call | invoke | global => rfl
  | memory => exact absurd rfl hmemory
  | close => exact absurd rfl hclose

theorem callExport_unshut (hlaw : h.Lawful Valid) (hs : Valid s) (name : String)
    (args : List UInt64) : h.Unshut Valid s (callExport h name args s).2 := by
  have hknown := hlaw.hasFunction name hs
  unfold callExport
  rcases hrun : h.hasFunction name s with ⟨known, s₁⟩
  rw [hrun] at hknown
  cases known with
  | true => exact hknown.trans (hlaw.call name args hknown.valid)
  | false => exact hknown

/-- An open bridge stays open, unless it is asked to close. -/
theorem serve_open (hlaw : h.Lawful Valid) (hs : Valid s) (hopen : h.closed s = false)
    {r : Request} {a : Answer} (hserve : r.serve h b room s = (a, s')) :
    Valid s' ∧ (h.closed s' = true ↔ r = .close) := by
  obtain rfl : (r.serve h b room s).2 = s' := by rw [hserve]
  have hkeeps {r : Request} {s' : σ} (hr : r ≠ .close) (h' : h.Unshut Valid s s') :
      Valid s' ∧ (h.closed s' = true ↔ r = .close) :=
    ⟨h'.valid, by simp [h'.closed, hopen, hr]⟩
  cases r with
  | call name args =>
    refine hkeeps (by simp) ?_
    simp only [Request.serve, call, hopen]
    exact callExport_unshut hlaw hs name args
  | invoke name args =>
    refine hkeeps (by simp) ?_
    simp only [Request.serve, hopen]
    cases b.op? name with
    | none => exact callExport_unshut hlaw hs name args
    | some op => exact .refl hs
  | global name =>
    refine hkeeps (by simp) ?_
    simp only [Request.serve, global, hopen]
    exact hlaw.global name hs
  | memory =>
    refine hkeeps (by simp) ?_
    simp only [Request.serve, memory, hopen]
    exact hlaw.memory hs
  | close =>
    obtain ⟨hvalid, hclosed⟩ := hlaw.shut hs
    simp only [Request.serve, close, hopen]
    have hdone := hlaw.close hvalid
    exact ⟨hdone.valid, by simp [hdone.closed, hclosed]⟩

/-! ## Histories -/

/-- A request as it was served. -/
structure Moment (σ : Type) where
  /-- How many operations could still be nested. -/
  room : Nat
  request : Request
  answer : Answer
  before : σ
  after : σ

/-- The requests are served one after the other. -/
inductive History (h : Handle σ) (b : Bridge) : σ → List (Moment σ) → σ → Prop
  | nil (s : σ) : History h b s [] s
  | cons {room : Nat} {request : Request} {answer : Answer} {s s' t : σ} {ms : List (Moment σ)}
      (hserve : request.serve h b room s = (answer, s')) (hrest : History h b s' ms t) :
      History h b s ({ room, request, answer, before := s, after := s' } :: ms) t

namespace History

variable {ms ms' : List (Moment σ)}

theorem append (hms : History h b s ms s') (hms' : History h b s' ms' t) :
    History h b s (ms ++ ms') t := by
  induction hms with
  | nil s => exact hms'
  | cons hserve _ ih => exact .cons hserve (ih hms')

theorem single {request : Request} {answer : Answer}
    (hserve : request.serve h b room s = (answer, s')) :
    History h b s [{ room, request, answer, before := s, after := s' }] s' :=
  .cons hserve (.nil s')

theorem split {m : Moment σ} {front back : List (Moment σ)}
    (hms : History h b s (front ++ m :: back) t) :
    History h b s front m.before ∧ m.request.serve h b m.room m.before = (m.answer, m.after) ∧
      History h b m.after back t := by
  induction front generalizing s with
  | nil =>
    cases hms with
    | cons hserve hrest => exact ⟨.nil _, hserve, hrest⟩
  | cons x front ih =>
    cases hms with
    | cons hserve hrest =>
      obtain ⟨hfront, hm, hback⟩ := ih hrest
      exact ⟨.cons hserve hfront, hm, hback⟩

/-- Nothing happens on a closed bridge. -/
theorem closed (hms : History h b s ms t) (hclosed : h.closed s = true) :
    t = s ∧ ∀ m ∈ ms, m.answer = m.request.refusal ∧ m.after = m.before := by
  induction hms with
  | nil s => simp
  | @cons room request answer s s' t ms hserve _ ih =>
    rw [serve_closed hclosed] at hserve
    cases hserve
    obtain ⟨rfl, hall⟩ := ih hclosed
    refine ⟨rfl, ?_⟩
    rw [List.forall_mem_cons]
    exact ⟨⟨rfl, rfl⟩, hall⟩

theorem valid (hlaw : h.Lawful Valid) (hms : History h b s ms t) (hs : Valid s) : Valid t := by
  induction hms with
  | nil s => exact hs
  | @cons room request answer s s' t ms hserve _ ih =>
    by_cases hclosed : h.closed s = true
    · rw [serve_closed hclosed] at hserve
      cases hserve
      exact ih hs
    · exact ih (serve_open hlaw hs (by simpa using hclosed) hserve).1

/-- A bridge that nobody closes stays open. -/
theorem opened (hlaw : h.Lawful Valid) (hms : History h b s ms t) (hs : Valid s)
    (hopen : h.closed s = false) (hnone : ∀ m ∈ ms, m.request ≠ .close) :
    Valid t ∧ h.closed t = false := by
  induction hms with
  | nil s => exact ⟨hs, hopen⟩
  | @cons room request answer s s' t ms hserve _ ih =>
    rw [List.forall_mem_cons] at hnone
    have hstep := serve_open hlaw hs hopen hserve
    exact ih hstep.1 (by simpa using mt hstep.2.1 hnone.1) hnone.2

end History

/-! ## What is asked of the instance -/

section

variable {s t : Recorded σ} {ms : List (Moment (Recorded σ))}

theorem callExport_asked (name : String) (args : List UInt64) :
    (callExport h.recorded name args s).2.asked.count .close = s.asked.count .close := by
  unfold callExport
  rcases hknown : h.hasFunction name s.state with ⟨known, s'⟩
  cases known <;> simp [Recorded.ask, hknown]

/-- Only a close closes the instance. -/
theorem serve_asked {r : Request} {a : Answer} {s' : Recorded σ}
    (hserve : r.serve h.recorded b room s = (a, s')) (hr : r ≠ .close) :
    s'.asked.count .close = s.asked.count .close := by
  obtain rfl : (r.serve h.recorded b room s).2 = s' := by rw [hserve]
  by_cases hclosed : h.closed s.state = true
  · rw [serve_closed (by exact hclosed)]
  · cases r with
    | call name args => simpa [Request.serve, call, hclosed] using callExport_asked name args
    | invoke name args =>
      cases hop : b.op? name with
      | none => simpa [Request.serve, hclosed, hop] using callExport_asked name args
      | some op => simp [Request.serve, hclosed, hop]
    | global name => simp [Request.serve, global, hclosed, Recorded.ask]
    | memory => simp [Request.serve, memory, hclosed, Recorded.ask]
    | close => exact absurd rfl hr

/-- A close is passed on to the instance of an open bridge. -/
theorem serve_close (hopen : h.closed s.state = false) :
    Request.close.serve h.recorded b room s =
      (.closed (h.close (h.shut s.state)).1,
        { state := (h.close (h.shut s.state)).2, asked := s.asked ++ [.close] }) := by
  simp [Request.serve, close, Recorded.ask, hopen]

theorem History.unasked (hms : History h.recorded b s ms t)
    (hnone : ∀ m ∈ ms, m.request ≠ .close) : t.asked.count .close = s.asked.count .close := by
  induction hms with
  | nil s => rfl
  | @cons room request answer s s' t ms hserve _ ih =>
    rw [List.forall_mem_cons] at hnone
    rw [ih hnone.2, serve_asked hserve hnone.1]

theorem History.asked_once (hlaw : h.Lawful Valid) (hms : History h.recorded b s ms t)
    (hs : Valid s.state) (hopen : h.closed s.state = false) :
    t.asked.count .close ≤ s.asked.count .close + 1 := by
  induction hms with
  | nil s => omega
  | @cons room request answer s s' t ms hserve hrest ih =>
    have hstep := serve_open hlaw.recorded hs hopen hserve
    by_cases hclose : request = .close
    · -- The bridge is closed from here on, and nothing is asked any more.
      obtain ⟨rfl, -⟩ := hrest.closed (hstep.2.2 hclose)
      subst hclose
      rw [serve_close hopen] at hserve
      cases hserve
      simp
    · have hcount := serve_asked hserve hclose
      have hle := ih hstep.1 (by simpa using mt hstep.2.1 hclose)
      omega

end

/-! ## Open bridges -/

/-- The operation registered last under a name is the one that counts. -/
theorem op?_of_last {name : String} {op : Op} {earlier later : List (String × Op)}
    (hops : b.ops = earlier ++ (name, op) :: later) (hlater : name ∉ later.map Prod.fst) :
    b.op? name = some op := by
  have hmiss : later.reverse.lookup name = none := by
    rw [List.lookup_eq_none_iff]
    grind
  simp [op?, hops, List.lookup_append, hmiss]

theorem op?_of_notMem {name : String} (h : name ∉ b.ops.map Prod.fst) : b.op? name = none := by
  rw [op?, List.lookup_eq_none_iff]
  grind

/-- How an open bridge serves a request. -/
structure Moment.Open (h : Handle σ) (b : Bridge) (m : Moment (Recorded σ)) : Prop where
  /-- A close is passed on to the instance, which gives the answer. -/
  close : m.request = .close → m.answer = .closed (h.close (h.shut m.before.state)).1 ∧
    m.after.asked = m.before.asked ++ [.close]
  /-- Nothing else closes the instance. -/
  unclosed : m.request ≠ .close → .close ∉ m.after.asked
  /-- The operation that was registered last runs, unless too many are nested. -/
  op : ∀ {name args}, m.request = .invoke name args → ∀ {earlier op later},
    b.ops = earlier ++ (name, op) :: later → name ∉ later.map Prod.fst →
    m.answer = (if m.room = 0 then .results (.error tooDeep) else .runs op) ∧ m.after = m.before
  /-- Without an operation of that name, an invocation is a call. -/
  plain : ∀ {name args}, m.request = .invoke name args → name ∉ b.ops.map Prod.fst →
    (m.answer, m.after) = (Request.call name args).serve h.recorded b m.room m.before
  /-- What the instance does not export is not called. -/
  missing : ∀ {name args}, m.request = .call name args →
    (h.hasFunction name m.before.state).1 = false →
    m.answer = .results (.error (.notFound .runtime "export" name)) ∧
      m.answer.labels? = some ("runtime", "not_found") ∧
      m.after.asked = m.before.asked ++ [.hasFunction name]

theorem open_of_serve {m : Moment (Recorded σ)}
    (hserve : m.request.serve h.recorded b m.room m.before = (m.answer, m.after))
    (hopen : h.closed m.before.state = false) (hasked : .close ∉ m.before.asked) :
    m.Open h b := by
  constructor
  · intro hclose
    rw [hclose, serve_close hopen] at hserve
    obtain ⟨hanswer, hafter⟩ := Prod.mk.inj hserve
    rw [← hanswer, ← hafter]
    exact ⟨rfl, rfl⟩
  · intro hrequest
    rw [← List.count_eq_zero] at hasked ⊢
    rw [serve_asked hserve hrequest, hasked]
  · intro name args hrequest earlier op later hops hlater
    have hrun : m.request.serve h.recorded b m.room m.before =
        (if m.room = 0 then .results (.error tooDeep) else .runs op, m.before) := by
      simp [hrequest, Request.serve, hopen, op?_of_last hops hlater]
    obtain ⟨hanswer, hafter⟩ := Prod.mk.inj (hserve.symm.trans hrun)
    exact ⟨hanswer, hafter⟩
  · intro name args hrequest hname
    rw [← hserve, hrequest]
    simp [Request.serve, call, hopen, op?_of_notMem hname]
  · intro name args hrequest hmissing
    have hrun : m.request.serve h.recorded b m.room m.before =
        (.results (.error (.notFound .runtime "export" name)),
          (m.before.ask (.hasFunction name) (h.hasFunction name)).2) := by
      simp [hrequest, Request.serve, call, callExport, Recorded.ask, hopen, hmissing]
    obtain ⟨hanswer, hafter⟩ := Prod.mk.inj (hserve.symm.trans hrun)
    exact ⟨hanswer, by rw [hanswer]; rfl, by rw [hafter]; rfl⟩

/-- What a run comes to, closing included. -/
structure Final (h : Handle σ) (b : Bridge) (ms : List (Moment (Recorded σ))) (t : Recorded σ) :
    Prop where
  once : t.asked.count .close ≤ 1
  /-- Up to the first close. -/
  early : ∀ {front m back}, ms = front ++ m :: back → (∀ x ∈ front, x.request ≠ .close) →
    m.Open h b
  /-- After a close nothing is asked of the instance. -/
  late : ∀ {front m back}, ms = front ++ m :: back → m.request = .close →
    ∀ x ∈ back, x.answer = x.request.refusal ∧ x.after = x.before
  /-- What needs the instance fails then, because the bridge is closed. -/
  refused : ∀ {front m back}, ms = front ++ m :: back → m.request = .close →
    ∀ x ∈ back, x.request ≠ .memory → x.request ≠ .close →
    x.answer.labels? = some ("runtime", "closed")

theorem History.late (hlaw : h.Lawful Valid) (hs : Valid s)
    {front back : List (Moment (Recorded σ))}
    {m : Moment (Recorded σ)} {t : Recorded σ}
    (hms : History h.recorded b { state := s } (front ++ m :: back) t)
    (hclose : m.request = .close) :
    ∀ x ∈ back, x.answer = x.request.refusal ∧ x.after = x.before := by
  obtain ⟨hfront, hserve, hback⟩ := hms.split
  refine (hback.closed ?_).2
  by_cases hclosed : h.recorded.closed m.before = true
  · rw [serve_closed hclosed] at hserve
    rwa [← (Prod.mk.inj hserve).2]
  · have hvalid := hfront.valid hlaw.recorded hs
    exact (serve_open hlaw.recorded hvalid (by simpa using hclosed) hserve).2.2 hclose

theorem History.final (hlaw : h.Lawful Valid) (hs : Valid s) (hopen : h.closed s = false)
    {ms : List (Moment (Recorded σ))} {t : Recorded σ}
    (hms : History h.recorded b { state := s } ms t) : Final h b ms t where
  once := by simpa using hms.asked_once hlaw hs hopen
  early := by
    rintro front m back rfl hnone
    obtain ⟨hfront, hserve, -⟩ := hms.split
    refine open_of_serve hserve (hfront.opened hlaw.recorded hs hopen hnone).2 ?_
    rw [← List.count_eq_zero, hfront.unasked hnone]
    rfl
  late := by
    rintro front m back rfl hclose
    exact hms.late hlaw hs hclose
  refused := by
    rintro front m back rfl hclose x hx hmemory hcloses
    rw [(hms.late hlaw hs hclose x hx).1]
    exact refusal_labels? hmemory hcloses

/-! ## Accounts -/

/-- What came of a run, and the requests that were made in it. -/
structure Account (σ : Type) where
  moments : List (Moment σ)
  result : Except Fault (List UInt64)
  final : σ

def Account.outcome (a : Account σ) : Except Fault (List UInt64) × σ := (a.result, a.final)

def Account.after (ms : List (Moment σ)) (a : Account σ) : Account σ :=
  { a with moments := ms ++ a.moments }

/-- An account of a script, with `nested` for what it invokes. -/
def tell (h : Handle σ) (room : Nat) (nested : String → List UInt64 → σ → Account σ) :
    Script → σ → Account σ
  | .done r, s => { moments := [], result := r, final := s }
  | .call name args next, s =>
    let (r, s') := call h name args s
    (tell h room nested (next r) s').after [⟨room, .call name args, .results r, s, s'⟩]
  | .invoke name args next, s =>
    let first := nested name args s
    (tell h room nested (next first.result) first.final).after first.moments
  | .global name next, s =>
    let (r, s') := global h name s
    (tell h room nested (next r) s').after [⟨room, .global name, .value r, s, s'⟩]
  | .memory next, s =>
    let (m, s') := memory h s
    (tell h room nested (next m) s').after [⟨room, .memory, .memory m, s, s'⟩]
  | .close next, s =>
    let (r, s') := close h s
    (tell h room nested (next r) s').after [⟨room, .close, .closed r, s, s'⟩]

/-- An account of an invocation, with that of the operation that it runs. -/
def tellInvoke (h : Handle σ) (b : Bridge) (room : Nat) (name : String) (args : List UInt64)
    (s : σ) : Account σ :=
  let only (r : Except Fault (List UInt64)) (s' : σ) : Account σ :=
    ⟨[⟨room, .invoke name args, .results r, s, s'⟩], r, s'⟩
  if h.closed s then only (.error closedFault) s
  else
    match b.op? name with
    | none =>
      let (r, s') := callExport h name args s
      only r s'
    | some op =>
      match room with
      | 0 => only (.error tooDeep) s
      | room + 1 =>
        (tell h room (tellInvoke h b room) (op args) s).after
          [⟨room + 1, .invoke name args, .runs op, s, s⟩]

/-- An account of what a user does with a bridge on which that many operations may be nested. -/
def account (h : Handle σ) (b : Bridge) (depth : Nat) : Script → σ → Account σ :=
  tell h depth (tellInvoke h b depth)

theorem tell_outcome {nested : String → List UInt64 → σ → Account σ}
    {nested' : String → List UInt64 → σ → Except Fault (List UInt64) × σ}
    (hnested : ∀ name args s, (nested name args s).outcome = nested' name args s)
    (script : Script) (s : σ) :
    (tell h room nested script s).outcome = perform h nested' script s := by
  induction script generalizing s with
  | done r => rfl
  | call name args next ih => exact ih _ _
  | invoke name args next ih =>
    rw [perform, ← hnested]
    exact ih _ _
  | global name next ih => exact ih _ _
  | memory next ih => exact ih _ _
  | close next ih => exact ih _ _

theorem tellInvoke_outcome (room : Nat) (name : String) (args : List UInt64) (s : σ) :
    (tellInvoke h b room name args s).outcome = invokeWithin h b room name args s := by
  induction room generalizing name args s with
  | zero =>
    unfold tellInvoke invokeWithin
    split
    · rfl
    · cases b.op? name <;> rfl
  | succ room ih =>
    unfold tellInvoke invokeWithin
    split
    · rfl
    · cases b.op? name with
      | none => rfl
      | some op => exact tell_outcome ih (op args) s

/-- The account of a script is a history if those of its invocations are. -/
theorem tell_history {nested : String → List UInt64 → σ → Account σ}
    (hnested : ∀ name args s, History h b s (nested name args s).moments (nested name args s).final)
    (script : Script) (s : σ) :
    History h b s (tell h room nested script s).moments (tell h room nested script s).final := by
  induction script generalizing s with
  | done r => exact .nil s
  | call name args next ih => exact .cons rfl (ih _ _)
  | invoke name args next ih => exact (hnested name args s).append (ih _ _)
  | global name next ih => exact .cons rfl (ih _ _)
  | memory next ih => exact .cons rfl (ih _ _)
  | close next ih => exact .cons rfl (ih _ _)

theorem tellInvoke_history (room : Nat) (name : String) (args : List UInt64) (s : σ) :
    History h b s (tellInvoke h b room name args s).moments
      (tellInvoke h b room name args s).final := by
  induction room generalizing name args s with
  | zero =>
    unfold tellInvoke
    by_cases hclosed : h.closed s = true
    · rw [if_pos hclosed]
      exact .single (serve_closed hclosed _)
    · rw [if_neg hclosed]
      cases hop : b.op? name with
      | none => exact .single (by simp only [Request.serve, hclosed, hop]; rfl)
      | some op => exact .single (by simp [Request.serve, hclosed, hop])
  | succ room ih =>
    unfold tellInvoke
    by_cases hclosed : h.closed s = true
    · rw [if_pos hclosed]
      exact .single (serve_closed hclosed _)
    · rw [if_neg hclosed]
      cases hop : b.op? name with
      | none => exact .single (by simp only [Request.serve, hclosed, hop]; rfl)
      | some op => exact .cons (by simp [Request.serve, hclosed, hop]) (tell_history ih (op args) s)

/-! ## Recording changes nothing -/

section

open Handle.Recorded (forget)

theorem callExport_recorded (name : String) (args : List UInt64) (s : Recorded σ) :
    forget (callExport h.recorded name args s) = callExport h name args s.state := by
  unfold callExport
  rcases hknown : h.hasFunction name s.state with ⟨known, s'⟩
  cases known <;> simp [Recorded.ask, hknown, forget]

theorem call_recorded (name : String) (args : List UInt64) (s : Recorded σ) :
    forget (call h.recorded name args s) = call h name args s.state := by
  rw [call, call, Handle.recorded_closed, ← callExport_recorded]
  split <;> rfl

theorem global_recorded (name : String) (s : Recorded σ) :
    forget (global h.recorded name s) = global h name s.state := by
  rw [global, global, Handle.recorded_closed]
  split <;> rfl

theorem memory_recorded (s : Recorded σ) : forget (memory h.recorded s) = memory h s.state := by
  rw [memory, memory, Handle.recorded_closed]
  split <;> rfl

theorem close_recorded (s : Recorded σ) : forget (close h.recorded s) = close h s.state := by
  rw [close, close, Handle.recorded_closed]
  split <;> rfl

theorem perform_recorded
    {nested : String → List UInt64 → Recorded σ → Except Fault (List UInt64) × Recorded σ}
    {nested' : String → List UInt64 → σ → Except Fault (List UInt64) × σ}
    (hnested : ∀ name args s, forget (nested name args s) = nested' name args s.state)
    (script : Script) (s : Recorded σ) :
    forget (perform h.recorded nested script s) = perform h nested' script s.state := by
  induction script generalizing s with
  | done r => rfl
  | call name args next ih =>
    rw [perform, perform, ← call_recorded]
    exact ih _ _
  | invoke name args next ih =>
    rw [perform, perform, ← hnested]
    exact ih _ _
  | global name next ih =>
    rw [perform, perform, ← global_recorded]
    exact ih _ _
  | memory next ih =>
    rw [perform, perform, ← memory_recorded]
    exact ih _ _
  | close next ih =>
    rw [perform, perform, ← close_recorded]
    exact ih _ _

theorem invokeWithin_recorded (room : Nat) (name : String) (args : List UInt64) (s : Recorded σ) :
    forget (invokeWithin h.recorded b room name args s) =
      invokeWithin h b room name args s.state := by
  induction room generalizing name args s with
  | zero =>
    rw [invokeWithin, invokeWithin, Handle.recorded_closed]
    split
    · rfl
    · cases b.op? name with
      | none => exact callExport_recorded name args s
      | some op => rfl
  | succ room ih =>
    rw [invokeWithin, invokeWithin, Handle.recorded_closed]
    split
    · rfl
    · cases b.op? name with
      | none => exact callExport_recorded name args s
      | some op => exact perform_recorded ih (op args) s

end

/-! ## Guests -/

/-- A guest does not touch the bridge that it is behind. -/
theorem lawful_of_guest [Wasm.Machine] (k : Nat) (g : Guest) (cancelled : Bool) :
    (World.Guest.handle k g cancelled).Lawful (k < ·.bridges.size) := by
  have haside {w w' : World} (hw : World.Aside w w') (hk : k < w.bridges.size) :
      (World.Guest.handle k g cancelled).Unshut (k < ·.bridges.size) w w' := by
    refine ⟨by rw [hw.bridges]; exact hk, ?_⟩
    change w'.bridgeClosed k = w.bridgeClosed k
    rw [World.bridgeClosed, World.bridgeClosed, hw.bridges]
  constructor
  · intro w hk
    refine ⟨by simpa [World.Guest.handle, World.shutBridge] using hk, ?_⟩
    simp [World.Guest.handle, World.bridgeClosed, World.shutBridge, Array.getElem_modify, hk]
  · exact fun name hk => .refl hk
  · exact fun name args hk => haside (World.guest_call_aside g cancelled name args _) hk
  · exact fun name hk => .refl hk
  · exact fun hk => .refl hk
  · exact fun hk => haside (World.guest_close_keeps World.aside_indifferent g _) hk

/-- Closing a bridge is final. A user may do anything with a bridge, and so may the operations that
run on it, however deep they are nested: all the requests that are made make up a history, whose
outcome is that of the run. In every history the instance is closed at most once, by the first
close; up to then the bridge is open, and from then on the instance is left alone and every request
is refused. -/
theorem closing_is_final (hlaw : h.Lawful Valid) (b : Bridge) (hs : Valid s)
    (hopen : h.closed s = false) :
    (∀ depth script,
      Recorded.forget (account h.recorded b depth script { state := s }).outcome =
        perform h (invokeWithin h b depth) script s ∧
      History h.recorded b { state := s }
        (account h.recorded b depth script { state := s }).moments
        (account h.recorded b depth script { state := s }).final) ∧
    ∀ ms t, History h.recorded b { state := s } ms t → Final h b ms t := by
  refine ⟨fun depth script => ⟨?_, tell_history (tellInvoke_history depth) script _⟩,
    fun ms t hms => hms.final hlaw hs hopen⟩
  rw [account, tell_outcome (tellInvoke_outcome depth),
    perform_recorded (invokeWithin_recorded depth)]

/-- An operation that closes the bridge it runs on and then calls an export. -/
theorem quitting_is_final :
    let quit : Op := fun args => .close fun _ => .call "run" args .done
    let b : Bridge := { ops := [("quit", .echo), ("quit", quit)] }
    let w : World := {
      scripted := #[{ functions := [("run", { results := [7] })], closeError := some tooDeep }]
      bridges := #[{ guest := .scripted 0, bridge := b }] }
    let h := World.Guest.handle 0 (.scripted 0) false
    let user : Script :=
      .call "run" [] fun _ => .call "walk" [] fun _ => .invoke "quit" [1] fun _ =>
        .close fun _ => .invoke "quit" [2] .done
    let told := account h.recorded b depthLimit user { state := w }
    h.Lawful (0 < ·.bridges.size) ∧ h.closed w = false ∧
      told.final.asked = [.hasFunction "run", .call "run" [], .hasFunction "walk", .close] ∧
      Final h b told.moments told.final := by
  intro quit b w h user told
  have hlaw : h.Lawful (0 < ·.bridges.size) := lawful_of_guest 0 (.scripted 0) false
  have hfinal := closing_is_final hlaw b (by decide : 0 < w.bridges.size) rfl
  exact ⟨hlaw, rfl, by decide +kernel, hfinal.2 _ _ (hfinal.1 depthLimit user).2⟩

end Bridge

end GuestThreads
