import GuestThreads.Worker

/-!
# The order of a bring-up

A recorded host writes down what a worker asks for, with the state that the worker is in, and is
otherwise the host it records. Each stage of a bring-up asks for the next item of a plan or gives up
and closes the instance; the stages put together give the order of the whole.
-/

namespace GuestThreads.Worker

variable {σ ι μ : Type}

/-- What a worker asks of the one it drives. -/
inductive Effect (ι : Type) where
  | instantiate (bytes : Bytes)
  | setGlobal (inst : ι) (name : String) (v : UInt32)
  | call (inst : ι) (name : String) (args : List UInt64)
  | close (inst : ι)

/-- A world and what a worker did in it, each effect with the state it was observed in. -/
structure Recording (σ ι : Type) where
  world : σ
  state : State := .uninitialized
  effects : List (Effect ι × State) := []
  /-- The worlds in which the effects were asked for. -/
  seen : List σ := []
  notes : List Note := []

namespace Recording

/-- Write down an effect and what became of the world. -/
def perform {α : Type} (rec : Recording σ ι) (e : Effect ι) (r : α × σ) : α × Recording σ ι :=
  (r.1, { rec with
    world := r.2, effects := rec.effects ++ [(e, rec.state)], seen := rec.seen ++ [rec.world] })

def observe (rec : Recording σ ι) (n : Note) (s : σ) : Recording σ ι :=
  { rec with world := s, state := n.apply rec.state, notes := rec.notes ++ [n] }

end Recording

/-- The state that a note says was entered. -/
def Note.entered? : Note → Option State
  | .advanced s => some s
  | _ => none

/-- The states entered so far. -/
def Recording.reached (rec : Recording σ ι) : List State := rec.notes.filterMap Note.entered?

/-- The same host, with a record of what is asked of it. -/
def Host.recorded (host : Host σ ι μ) : Host (Recording σ ι) ι μ where
  instantiate msg rec := rec.perform (.instantiate msg.bytes) (host.instantiate msg rec.world)
  setGlobal inst name v rec :=
    rec.perform (.setGlobal inst name v) (host.setGlobal inst name v rec.world)
  params inst name rec := host.params inst name rec.world
  call inst name args rec :=
    rec.perform (.call inst name args) (host.call inst name args rec.world)
  close inst rec := rec.perform (.close inst) (host.close inst rec.world)
  observe n rec := rec.observe n (host.observe n rec.world)

/-- Keeping a record changes neither the outcome nor the world. -/
theorem carryOut_recorded (host : Host σ ι μ) (msg : Message μ) (b : BringUp ι) (state : State)
    (rec : Recording σ ι) :
    let out := carryOut host.recorded msg b state rec
    carryOut host msg b state rec.world = (out.1, out.2.1, out.2.2.world) := by
  induction b generalizing state rec with
  | instantiate next ih =>
    exact ih (host.instantiate msg rec.world).1 state (host.recorded.instantiate msg rec).2
  | setGlobal inst name v next ih =>
    exact ih (host.setGlobal inst name v rec.world).1 state
      (host.recorded.setGlobal inst name v rec).2
  | params inst name next ih => exact ih (host.params inst name rec.world) state rec
  | call inst name arg next ih =>
    exact ih (host.call inst name [arg] rec.world).1 state
      (host.recorded.call inst name [arg] rec).2
  | close inst next ih =>
    exact ih (host.close inst rec.world).1 state (host.recorded.close inst rec).2
  | note n next ih => exact ih (n.apply state) (host.recorded.observe n rec)
  | done r => rfl

theorem handle_recorded (host : Host σ ι μ) (exports : Config.Exports) (w : Progress)
    (msg : Message μ) (rec : Recording σ ι) :
    let out := handle host.recorded exports w msg rec
    handle host exports w msg rec.world = (out.1, out.2.1, out.2.2.world) := by
  unfold handle
  by_cases hw : w.handled
  · simp [hw, Host.recorded, Recording.observe]
  · have h := carryOut_recorded host msg
      (BringUp.steps exports msg.stackPtr msg.tlsPtr msg.closurePtr) w.state
      (host.recorded.observe .started rec)
    have hs : (host.recorded.observe .started rec).world = host.observe .started rec.world := rfl
    rw [hs] at h
    simp only [hw, h]
    cases (carryOut host.recorded msg _ w.state (host.recorded.observe .started rec)).1 <;> rfl

/-! ## Invariants -/

/-- Every note of a bring-up, however it goes, is one of these. -/
def BringUp.AllNotes (p : Note → Prop) : BringUp ι → Prop
  | .instantiate next => ∀ r, (next r).AllNotes p
  | .setGlobal _ _ _ next => ∀ r, (next r).AllNotes p
  | .params _ _ next => ∀ r, (next r).AllNotes p
  | .call _ _ _ next => ∀ r, (next r).AllNotes p
  | .close _ next => ∀ r, (next r).AllNotes p
  | .note n next => p n ∧ next.AllNotes p
  | .done _ => True

/-- Whatever a driver does stays within a relation between the worlds before and after. -/
structure Driver.Within (rel : σ → σ → Prop) (d : Driver σ ι μ) : Prop where
  instantiate : ∀ msg s, rel s (d.instantiate msg s).2
  setGlobal : ∀ inst name v s, rel s (d.setGlobal inst name v s).2
  call : ∀ inst name args s, rel s (d.call inst name args s).2
  close : ∀ inst s, rel s (d.close inst s).2

theorem Driver.Within.mono {rel rel' : σ → σ → Prop} {d : Driver σ ι μ} (h : d.Within rel)
    (himp : ∀ s s', rel s s' → rel' s s') : d.Within rel' :=
  ⟨fun _ _ => himp _ _ (h.instantiate _ _), fun _ _ _ _ => himp _ _ (h.setGlobal _ _ _ _),
    fun _ _ _ _ => himp _ _ (h.call _ _ _ _), fun _ _ => himp _ _ (h.close _ _)⟩

/-- What drivers and notes keep holds at the end of a bring-up if it holds at the start. -/
theorem carryOut_invariant {P : σ → Prop} {p : Note → Prop} {host : Host σ ι μ}
    (hdriver : host.Within fun s s' => P s → P s')
    (hobserve : ∀ n s, p n → P s → P (host.observe n s)) (msg : Message μ) {b : BringUp ι}
    (hb : b.AllNotes p) (state : State) {s : σ} (hs : P s) :
    P (carryOut host msg b state s).2.2 := by
  induction b generalizing state s with
  | instantiate next ih => exact ih _ (hb _) state (hdriver.instantiate msg s hs)
  | setGlobal inst name v next ih => exact ih _ (hb _) state (hdriver.setGlobal inst name v s hs)
  | params inst name next ih => exact ih _ (hb _) state hs
  | call inst name arg next ih => exact ih _ (hb _) state (hdriver.call inst name [arg] s hs)
  | close inst next ih => exact ih _ (hb _) state (hdriver.close inst s hs)
  | note n next ih => exact ih hb.2 _ (hobserve n s hb.1 hs)
  | done r => exact hs

/-- The notes of a bring-up under way. -/
def Note.Underway : Note → Prop
  | .advanced _ => True
  | .closeFailed _ => True
  | _ => False

theorem abort_notes (inst : ι) (f : Fault) : (BringUp.abort inst f).AllNotes Note.Underway := by
  rintro (_ | _)
  · exact ⟨trivial, trivial⟩
  · trivial

theorem steps_notes (exports : Config.Exports) (stackPtr tlsPtr closurePtr : UInt32) :
    (BringUp.steps exports stackPtr tlsPtr closurePtr : BringUp ι).AllNotes Note.Underway := by
  have hentry (inst : ι) :
      (BringUp.enterThread exports inst closurePtr).AllNotes Note.Underway := by
    intro params
    dsimp only
    cases checkPointerFunc .entry exports.entrypoint params with
    | some f => exact abort_notes inst f
    | none =>
      refine ⟨trivial, ?_⟩
      rintro (_ | _)
      · exact abort_notes inst _
      · trivial
  have htls (inst : ι) :
      (BringUp.initTls exports inst tlsPtr closurePtr).AllNotes Note.Underway := by
    intro params
    dsimp only
    cases checkPointerFunc .tls exports.initTls params with
    | some f => exact abort_notes inst f
    | none =>
      rintro (_ | _)
      · exact abort_notes inst _
      · exact ⟨trivial, hentry inst⟩
  rintro (_ | inst)
  · trivial
  · refine ⟨trivial, ?_⟩
    rintro (_ | _)
    · exact abort_notes inst _
    · exact ⟨trivial, htls inst⟩

/-- What drivers and notes keep is kept by whatever a worker finds in its inbox. -/
theorem receive_invariant {P : σ → Prop} {host : Host σ ι μ}
    (hdriver : host.Within fun s s' => P s → P s') (hobserve : ∀ n s, P s → P (host.observe n s))
    (exports : Config.Exports) (w : Progress) (inbox : Inbox μ) {s : σ} (hs : P s) :
    P (receive host exports w inbox s).2.2 := by
  cases inbox with
  | closed | cancelled => exact hs
  | message msg =>
    have hend := carryOut_invariant hdriver (fun n s _ => hobserve n s) msg
      (steps_notes exports msg.stackPtr msg.tlsPtr msg.closurePtr) w.state (hobserve .started s hs)
    unfold receive handle
    dsimp only
    split
    · exact hobserve _ _ hs
    · generalize carryOut host msg (.steps exports msg.stackPtr msg.tlsPtr msg.closurePtr) w.state
        (host.observe .started s) = out at hend ⊢
      obtain ⟨_ | _, state, s'⟩ := out <;> exact hobserve _ _ hend

/-! ## The instance that is driven -/

/-- No instance is made from here on, and `p` holds of every instance that is turned to. -/
def BringUp.About (p : ι → Prop) : BringUp ι → Prop
  | .instantiate _ => False
  | .setGlobal inst _ _ next => p inst ∧ ∀ r, About p (next r)
  | .params inst _ next => p inst ∧ ∀ r, About p (next r)
  | .call inst _ _ next => p inst ∧ ∀ r, About p (next r)
  | .close inst next => p inst ∧ ∀ r, About p (next r)
  | .note _ next => About p next
  | .done r => ∀ inst, r = .ok inst → p inst

section

variable {p : ι → Prop} {inst : ι} (hinst : p inst) (exports : Config.Exports)

include hinst

theorem abort_about (f : Fault) : (BringUp.abort inst f).About p := by
  refine ⟨hinst, ?_⟩
  rintro (_ | _) <;> nofun

theorem enterThread_about (closurePtr : UInt32) :
    (BringUp.enterThread exports inst closurePtr).About p := by
  refine ⟨hinst, fun params => ?_⟩
  dsimp only
  cases checkPointerFunc .entry exports.entrypoint params with
  | some f => exact abort_about hinst f
  | none =>
    refine ⟨hinst, ?_⟩
    rintro (_ | _)
    · exact abort_about hinst _
    · rintro _ ⟨⟩
      exact hinst

theorem initTls_about (tlsPtr closurePtr : UInt32) :
    (BringUp.initTls exports inst tlsPtr closurePtr).About p := by
  refine ⟨hinst, fun params => ?_⟩
  dsimp only
  cases checkPointerFunc .tls exports.initTls params with
  | some f => exact abort_about hinst f
  | none =>
    refine ⟨hinst, ?_⟩
    rintro (_ | _)
    · exact abort_about hinst _
    · exact enterThread_about hinst exports closurePtr

theorem setStack_about (stackPtr tlsPtr closurePtr : UInt32) :
    (BringUp.setStack exports inst stackPtr tlsPtr closurePtr).About p := by
  refine ⟨hinst, ?_⟩
  rintro (_ | _)
  · exact abort_about hinst _
  · exact initTls_about hinst exports tlsPtr closurePtr

end

/-- A bring-up makes an instance first of all, and is about this instance from then on. -/
theorem steps_about (exports : Config.Exports) (stackPtr tlsPtr closurePtr : UInt32) :
    ∃ next, (BringUp.steps exports stackPtr tlsPtr closurePtr : BringUp ι) = .instantiate next ∧
      ∀ r, (next r).About fun inst => r = .ok inst := by
  refine ⟨_, rfl, ?_⟩
  rintro (_ | inst)
  · nofun
  · exact setStack_about (p := fun made => Except.ok inst = .ok made) rfl exports stackPtr tlsPtr
      closurePtr

/-! ## The state of a thread that runs -/

/-- From the given state on, the bring-up succeeds in state `target` or not at all. -/
def BringUp.SucceedsIn (target : State) : BringUp ι → State → Prop
  | .instantiate next, state => ∀ r, (next r).SucceedsIn target state
  | .setGlobal _ _ _ next, state => ∀ r, (next r).SucceedsIn target state
  | .params _ _ next, state => ∀ r, (next r).SucceedsIn target state
  | .call _ _ _ next, state => ∀ r, (next r).SucceedsIn target state
  | .close _ next, state => ∀ r, (next r).SucceedsIn target state
  | .note n next, state => next.SucceedsIn target (n.apply state)
  | .done r, state => ∀ inst, r = .ok inst → state = target

theorem abort_succeedsIn (target : State) (inst : ι) (f : Fault) (state : State) :
    (BringUp.abort inst f).SucceedsIn target state := by
  rintro (_ | _) _ h <;> cases h

theorem enterThread_succeedsIn (exports : Config.Exports) (inst : ι) (closurePtr : UInt32)
    (state : State) : (BringUp.enterThread exports inst closurePtr).SucceedsIn .running state := by
  intro params
  dsimp only
  cases checkPointerFunc .entry exports.entrypoint params with
  | some f => exact abort_succeedsIn .running inst f state
  | none =>
    rintro (_ | _)
    · exact abort_succeedsIn .running inst _ .running
    · exact fun _ _ => rfl

theorem initTls_succeedsIn (exports : Config.Exports) (inst : ι) (tlsPtr closurePtr : UInt32)
    (state : State) :
    (BringUp.initTls exports inst tlsPtr closurePtr).SucceedsIn .running state := by
  intro params
  dsimp only
  cases checkPointerFunc .tls exports.initTls params with
  | some f => exact abort_succeedsIn .running inst f state
  | none =>
    rintro (_ | _)
    · exact abort_succeedsIn .running inst _ state
    · exact enterThread_succeedsIn exports inst closurePtr .tlsInitialized

theorem steps_succeedsIn (exports : Config.Exports) (stackPtr tlsPtr closurePtr : UInt32)
    (state : State) :
    (BringUp.steps exports stackPtr tlsPtr closurePtr : BringUp ι).SucceedsIn .running state := by
  rintro (_ | inst)
  · intro _ h
    cases h
  · rintro (_ | _)
    · exact abort_succeedsIn .running inst _ .instantiated
    · exact initTls_succeedsIn exports inst tlsPtr closurePtr .stackSet

/-! ## Stages -/

/-- How the rest of a bring-up goes from `rec` on: of the effects in `plan` and the states `ahead`
it takes the first few in order, and it either takes them all or closes the instance and fails. -/
def Went (inst : ι) (plan : List (Effect ι × State)) (ahead : List State) (rec : Recording σ ι)
    (out : Except Fault ι × State × Recording σ ι) : Prop :=
  ∃ asked entered, asked <+: plan ∧ entered <+: ahead ∧
    out.2.1 = out.2.2.state ∧ out.2.2.state = entered.getLastD rec.state ∧
    out.2.2.reached = rec.reached ++ entered ∧
    match out.1 with
    | .ok i => i = inst ∧ asked = plan ∧ entered = ahead ∧ out.2.2.effects = rec.effects ++ plan
    | .error _ => out.2.2.effects = rec.effects ++ asked ++ [(.close inst, out.2.2.state)]

@[simp] theorem Recording.reached_observe (rec : Recording σ ι) (n : Note) (s : σ) :
    (rec.observe n s).reached = rec.reached ++ n.entered?.toList := by
  cases h : n.entered? <;> simp [Recording.reached, Recording.observe, h]

theorem Went.finished (inst : ι) (rec : Recording σ ι) :
    Went inst [] [] rec (.ok inst, rec.state, rec) :=
  ⟨[], [], List.nil_prefix, List.nil_prefix, rfl, rfl, by simp, rfl, rfl, rfl, by simp⟩

/-- One effect is asked for, and the rest goes on from there. -/
theorem Went.ask {α : Type} {inst : ι} {plan : List (Effect ι × State)} {ahead : List State}
    {out : Except Fault ι × State × Recording σ ι} (rec : Recording σ ι) (e : Effect ι) (r : α × σ)
    (h : Went inst plan ahead (rec.perform e r).2 out) :
    Went inst ((e, rec.state) :: plan) ahead rec out := by
  obtain ⟨asked, entered, hasked, hentered, hstate, hlast, hreached, hend⟩ := h
  refine ⟨(e, rec.state) :: asked, entered, ?_, hentered, hstate, hlast, hreached, ?_⟩
  · exact (List.prefix_cons_inj _).2 hasked
  · obtain ⟨result, state, rec'⟩ := out
    cases result with
    | ok i =>
      obtain ⟨hi, rfl, hahead, heffects⟩ := hend
      exact ⟨hi, rfl, hahead, by simpa [Recording.perform] using heffects⟩
    | error f => simpa [Recording.perform] using hend

/-- One state is entered, and the rest goes on from there. -/
theorem Went.enter {inst : ι} {plan : List (Effect ι × State)} {ahead : List State}
    {out : Except Fault ι × State × Recording σ ι} (rec : Recording σ ι) (next : State) (s : σ)
    (h : Went inst plan ahead (rec.observe (.advanced next) s) out) :
    Went inst plan (next :: ahead) rec out := by
  obtain ⟨asked, entered, hasked, hentered, hstate, hlast, hreached, hend⟩ := h
  refine ⟨asked, next :: entered, hasked, (List.prefix_cons_inj _).2 hentered, hstate, ?_, ?_, ?_⟩
  · rw [hlast]
    cases entered <;> rfl
  · simpa [Note.entered?] using hreached
  · obtain ⟨result, state, rec'⟩ := out
    cases result with
    | ok i =>
      obtain ⟨hi, hplan, rfl, heffects⟩ := hend
      exact ⟨hi, hplan, rfl, heffects⟩
    | error f => exact hend

variable (host : Host σ ι μ) (msg : Message μ) (exports : Config.Exports)

theorem abort_went (inst : ι) (f : Fault) (plan : List (Effect ι × State)) (ahead : List State)
    (rec : Recording σ ι) :
    Went inst plan ahead rec (carryOut host.recorded msg (.abort inst f) rec.state rec) := by
  refine ⟨[], [], List.nil_prefix, List.nil_prefix, ?_⟩
  rcases h : host.close inst rec.world with ⟨_ | _, s⟩ <;>
    simp [BringUp.abort, carryOut, Host.recorded, Recording.perform, Recording.observe, h,
      Note.apply, Recording.reached, Note.entered?]

theorem advance_went {inst : ι} {plan : List (Effect ι × State)} {ahead : List State}
    (state : State) (next : BringUp ι) (rec : Recording σ ι)
    (h : Went inst plan ahead (host.recorded.observe (.advanced state) rec)
      (carryOut host.recorded msg next state (host.recorded.observe (.advanced state) rec))) :
    Went inst plan (state :: ahead) rec
      (carryOut host.recorded msg (.note (.advanced state) next) rec.state rec) :=
  Went.enter rec state (host.observe (.advanced state) rec.world) h

/-- An effect that fails ends the bring-up, and after one that is carried out `next` follows. -/
theorem answer_went {α : Type} {inst : ι} {plan : List (Effect ι × State)} {ahead : List State}
    {next : Except Fault α → BringUp ι} (rec : Recording σ ι) (e : Effect ι)
    (answer : Except Fault α × σ) (hfail : ∀ f, ∃ g, next (.error f) = .abort inst g)
    (hok : ∀ a (rec' : Recording σ ι), rec'.state = rec.state →
      Went inst plan ahead rec' (carryOut host.recorded msg (next (.ok a)) rec'.state rec')) :
    Went inst ((e, rec.state) :: plan) ahead rec
      (carryOut host.recorded msg (next answer.1) rec.state (rec.perform e answer).2) := by
  refine Went.ask rec e answer ?_
  obtain ⟨f | a, s⟩ := answer
  · obtain ⟨g, hg⟩ := hfail f
    rw [hg]
    exact abort_went host msg inst g plan ahead (rec.perform e ((.error f : Except Fault α), s)).2
  · exact hok a _ rfl

theorem call_went {inst : ι} {plan : List (Effect ι × State)} {ahead : List State} (name : String)
    (arg : UInt64) (next : Except Fault (List UInt64) → BringUp ι) (rec : Recording σ ι)
    (hfail : ∀ f, ∃ g, next (.error f) = .abort inst g)
    (hok : ∀ a (rec' : Recording σ ι), rec'.state = rec.state →
      Went inst plan ahead rec' (carryOut host.recorded msg (next (.ok a)) rec'.state rec')) :
    Went inst ((.call inst name [arg], rec.state) :: plan) ahead rec
      (carryOut host.recorded msg (.call inst name arg next) rec.state rec) :=
  answer_went host msg rec _ (host.call inst name [arg] rec.world) hfail hok

theorem setGlobal_went {inst : ι} {plan : List (Effect ι × State)} {ahead : List State}
    (name : String) (v : UInt32) (next : Except Fault Unit → BringUp ι) (rec : Recording σ ι)
    (hfail : ∀ f, ∃ g, next (.error f) = .abort inst g)
    (hok : ∀ a (rec' : Recording σ ι), rec'.state = rec.state →
      Went inst plan ahead rec' (carryOut host.recorded msg (next (.ok a)) rec'.state rec')) :
    Went inst ((.setGlobal inst name v, rec.state) :: plan) ahead rec
      (carryOut host.recorded msg (.setGlobal inst name v next) rec.state rec) :=
  answer_went host msg rec _ (host.setGlobal inst name v rec.world) hfail hok

theorem enterThread_went (inst : ι) (closurePtr : UInt32) (rec : Recording σ ι) :
    Went inst [(.call inst exports.entrypoint [closurePtr.toUInt64], .running)] [.running] rec
      (carryOut host.recorded msg (.enterThread exports inst closurePtr) rec.state rec) := by
  simp only [BringUp.enterThread, carryOut]
  cases checkPointerFunc .entry exports.entrypoint
      (host.recorded.params inst exports.entrypoint rec) with
  | some f => exact abort_went host msg inst f _ _ rec
  | none =>
    -- The state is entered before the call, unlike in the stages before this one.
    refine advance_went host msg .running _ rec ?_
    exact call_went host msg _ _ _ (host.recorded.observe (.advanced .running) rec)
      (fun _ => ⟨_, rfl⟩) fun _ rec' _ => Went.finished inst rec'

theorem initTls_went (inst : ι) (tlsPtr closurePtr : UInt32) (rec : Recording σ ι) :
    Went inst
      [(.call inst exports.initTls [tlsPtr.toUInt64], rec.state),
        (.call inst exports.entrypoint [closurePtr.toUInt64], .running)]
      [.tlsInitialized, .running] rec
      (carryOut host.recorded msg (.initTls exports inst tlsPtr closurePtr) rec.state rec) := by
  simp only [BringUp.initTls, carryOut]
  cases checkPointerFunc .tls exports.initTls (host.recorded.params inst exports.initTls rec) with
  | some f => exact abort_went host msg inst f _ _ rec
  | none =>
    refine call_went host msg _ _ _ rec (fun _ => ⟨_, rfl⟩) fun _ rec' _ => ?_
    refine advance_went host msg .tlsInitialized _ rec' ?_
    exact enterThread_went host msg exports inst closurePtr
      (host.recorded.observe (.advanced .tlsInitialized) rec')

theorem setStack_went (inst : ι) (stackPtr tlsPtr closurePtr : UInt32) (rec : Recording σ ι) :
    Went inst
      [(.setGlobal inst exports.stackPointer stackPtr, rec.state),
        (.call inst exports.initTls [tlsPtr.toUInt64], .stackSet),
        (.call inst exports.entrypoint [closurePtr.toUInt64], .running)]
      [.stackSet, .tlsInitialized, .running] rec
      (carryOut host.recorded msg (.setStack exports inst stackPtr tlsPtr closurePtr) rec.state
        rec) := by
  refine setGlobal_went host msg _ _ _ rec (fun _ => ⟨_, rfl⟩) fun _ rec' _ => ?_
  refine advance_went host msg .stackSet _ rec' ?_
  exact initTls_went host msg exports inst tlsPtr closurePtr
    (host.recorded.observe (.advanced .stackSet) rec')

/-! ## The whole bring-up -/

/-- The states that lie on the way to a state, and the state itself. -/
def State.path (s : State) : List State :=
  [.instantiated, .stackSet, .tlsInitialized, .running].take s.code

/-- What a bring-up asks for, each with the state in which it is observed. -/
def plan (inst : ι) : List (Effect ι × State) :=
  [(.instantiate msg.bytes, .uninitialized),
    (.setGlobal inst exports.stackPointer msg.stackPtr, .instantiated),
    (.call inst exports.initTls [msg.tlsPtr.toUInt64], .stackSet),
    (.call inst exports.entrypoint [msg.closurePtr.toUInt64], .running)]

/-- The effects of a bring-up whose instantiation ended in `made` and that ended in `r` itself,
with the worker in the state `last`. -/
def Ordered (made r : Except Fault ι) (last : State) (effects : List (Effect ι × State)) : Prop :=
  match made, r with
  | .error _, r => effects = [(.instantiate msg.bytes, .uninitialized)] ∧ ∃ f, r = .error f
  | .ok inst, .error _ => ∃ n, 0 < n ∧
      effects = (plan msg exports inst).take n ++ [(.close inst, last)]
  | .ok inst, .ok i => i = inst ∧ effects = plan msg exports inst

/-- A prefix of the states ahead is the path to its last state. -/
theorem path_of_prefix {entered : List State}
    (h : entered <+: [.instantiated, .stackSet, .tlsInitialized, .running]) :
    entered = (entered.getLastD .uninitialized).path := by
  have hn : entered.length ≤ 4 := h.length_le
  rw [List.prefix_iff_eq_take] at h
  generalize entered.length = n at h hn
  subst h
  match n, hn with
  | 0, _ | 1, _ | 2, _ | 3, _ | 4, _ => rfl

/-- Every state on a path is entered from a lower one. -/
theorem path_increasing (s : State) :
    (State.uninitialized :: s.path).Pairwise (·.code < ·.code) := by
  cases s <;> decide

/-- What a bring-up amounts to whose instance is made. -/
theorem Went.ordered {inst : ι} {rec : Recording σ ι}
    {out : Except Fault ι × State × Recording σ ι}
    (h : Went inst (plan msg exports inst).tail
      [.instantiated, .stackSet, .tlsInitialized, .running] rec out)
    (hstate : rec.state = .uninitialized) (hreached : rec.reached = [])
    (heffects : rec.effects = [(.instantiate msg.bytes, .uninitialized)]) :
    Ordered msg exports (.ok inst) out.1 out.2.1 out.2.2.effects ∧
      out.2.2.reached = out.2.1.path ∧ out.2.2.state = out.2.1 ∧
      ((∃ i, out.1 = .ok i) → out.2.1 = .running) := by
  obtain ⟨asked, entered, hasked, hentered, hout, hlast, hpath, hend⟩ := h
  obtain ⟨result, state, rec'⟩ := out
  dsimp only at hout hlast hpath hend
  have hpath' : rec'.reached = state.path := by
    rw [hpath, hreached, List.nil_append, hout, hlast, hstate]
    exact path_of_prefix hentered
  cases result with
  | ok i =>
    obtain ⟨rfl, rfl, rfl, hplan⟩ := hend
    refine ⟨⟨rfl, ?_⟩, hpath', hout.symm, fun _ => hout.trans hlast⟩
    rw [hplan, heffects]
    rfl
  | error f =>
    refine ⟨⟨asked.length + 1, by omega, ?_⟩, hpath', hout.symm, by simp⟩
    have htake : (plan msg exports inst).take (asked.length + 1) =
        (.instantiate msg.bytes, .uninitialized) :: asked :=
      congrArg (_ :: ·) (List.prefix_iff_eq_take.1 hasked).symm
    rw [htake, hend, heffects, hout]
    rfl

theorem carryOut_instantiate (next : Except Fault ι → BringUp ι) (state : State)
    (rec : Recording σ ι) :
    carryOut host.recorded msg (.instantiate next) state rec =
      carryOut host.recorded msg (next (host.instantiate msg rec.world).1) state
        (rec.perform (.instantiate msg.bytes) (host.instantiate msg rec.world)).2 := rfl

/-- What a recorded bring-up amounts to, from an untouched worker on. -/
theorem steps_ordered (rec : Recording σ ι) (hstate : rec.state = .uninitialized)
    (heffects : rec.effects = []) (hreached : rec.reached = []) :
    let out := carryOut host.recorded msg
      (.steps exports msg.stackPtr msg.tlsPtr msg.closurePtr) .uninitialized rec
    Ordered msg exports (host.instantiate msg rec.world).1 out.1 out.2.1 out.2.2.effects ∧
      out.2.2.reached = out.2.1.path ∧ out.2.2.state = out.2.1 ∧
      ((∃ i, out.1 = .ok i) → out.2.1 = .running) := by
  dsimp only [BringUp.steps]
  rw [carryOut_instantiate]
  generalize host.instantiate msg rec.world = answer
  have heffects' : (rec.perform (.instantiate msg.bytes) answer).2.effects =
      [(.instantiate msg.bytes, .uninitialized)] := by
    simp [Recording.perform, heffects, hstate]
  obtain ⟨e | inst, s⟩ := answer
  · exact ⟨⟨heffects', _, rfl⟩, hreached, hstate, by simp [carryOut]⟩
  · let rec' := (rec.perform (.instantiate msg.bytes) ((.ok inst : Except Fault ι), s)).2
    have went := advance_went host msg .instantiated _ rec'
      (setStack_went host msg exports inst msg.stackPtr msg.tlsPtr msg.closurePtr
        (host.recorded.observe (.advanced .instantiated) rec'))
    have hstate' : rec'.state = .uninitialized := hstate
    rw [hstate'] at went
    exact went.ordered msg exports hstate' hreached heffects'

/-- What the first message does: the order of the effects, the states entered, and how the worker
ends up. -/
structure Orderly (made : Except Fault ι) (r : Except Fault ι) (p : Progress)
    (rec : Recording σ ι) : Prop where
  ordered : Ordered msg exports made r p.state rec.effects
  reached : rec.reached = p.state.path
  forward : (State.uninitialized :: rec.reached).Pairwise (·.code < ·.code)
  state : rec.state = p.state
  running : (∃ i, r = .ok i) → p.state = .running
  handled : p.handled = true
  failed : p.failed = true ↔ ∃ f, r = .error f

/-- The first message is handled by carrying out a bring-up. -/
theorem handle_first {s s' : σ} {r : Except Fault ι} {state : State}
    (h : carryOut host msg (.steps exports msg.stackPtr msg.tlsPtr msg.closurePtr) .uninitialized
      (host.observe .started s) = (r, state, s')) :
    handle host exports {} msg s =
      match r with
      | .error f => (.error f, { state := state, handled := true, failed := true },
          host.observe (.failed state f) s')
      | .ok inst => (.ok inst, { state := state, handled := true }, host.observe .returned s') := by
  simp [handle, h]
  cases r <;> rfl

theorem handle_orderly (s : σ) :
    let out := handle host.recorded exports {} msg { world := s }
    Orderly msg exports (host.instantiate msg (host.observe .started s)).1 out.1 out.2.1
      out.2.2 := by
  obtain ⟨hordered, hreached, hstate, hrunning⟩ :=
    steps_ordered host msg exports (host.recorded.observe .started { world := s }) rfl rfl rfl
  rcases hout : carryOut host.recorded msg
    (.steps exports msg.stackPtr msg.tlsPtr msg.closurePtr) .uninitialized
    (host.recorded.observe .started { world := s }) with ⟨result, state, rec⟩
  rw [hout] at hordered hreached hstate hrunning
  rw [handle_first host.recorded msg exports hout]
  cases result with
  | error f =>
    have hpath : (host.recorded.observe (.failed state f) rec).reached = state.path := by
      simpa [Host.recorded, Note.entered?] using hreached
    exact ⟨hordered, hpath, hpath ▸ path_increasing state, hstate, by simp, rfl, by simp⟩
  | ok inst =>
    have hpath : (host.recorded.observe .returned rec).reached = state.path := by
      simpa [Host.recorded, Note.entered?] using hreached
    exact ⟨hordered, hpath, hpath ▸ path_increasing state, hstate, fun _ => hrunning ⟨inst, rfl⟩,
      rfl, by simp⟩

end GuestThreads.Worker
