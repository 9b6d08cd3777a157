import GuestThreads.Proofs.Fault
import GuestThreads.Proofs.Worker.BringUp

/-!
# Which step failed

A bring-up fails with the first of its steps that fails. `Fails` says which step that is and what it
answers. There is just one such step, and what comes of closing the instance afterwards does not
matter. The fault that is returned has the step's own fault behind it, and it names the phase of the
step unless the step's own fault names another.
-/

namespace GuestThreads.Worker

/-- The phase of the step that a worker in this state has failed in. -/
def State.phase : State → Phase
  | .uninitialized => .instantiate
  | .instantiated => .stack
  | .stackSet => .tls
  | .tlsInitialized => .entry
  | .running => .entry

/-- How a step fails. -/
inductive Misstep where
  | instantiate (own : Fault)
  | setStack (own : Fault)
  /-- The function of a phase is absent or takes something else than a pointer. -/
  | unfit (phase : Phase) (name : String) (params : Option (List Wasm.ValType))
  /-- The call of the function fails. -/
  | trap (phase : Phase) (name : String) (own : Fault)

namespace Misstep

def phase : Misstep → Phase
  | .instantiate _ => .instantiate
  | .setStack _ => .stack
  | .unfit phase _ _ => phase
  | .trap phase _ _ => phase

/-- The fault of a function that cannot be called with a pointer. -/
def unfitFault (phase : Phase) (name : String) : Option (List Wasm.ValType) → Fault
  | none => .missingExport phase name
  | some ts =>
    .typeMismatch phase name "func(i32)"
      ("func(" ++ String.intercalate ", " (ts.map Wasm.ValType.name) ++ ")")

/-- What the step itself fails with. -/
def own : Misstep → Fault
  | .instantiate own => own
  | .setStack own => own
  | .unfit phase name params => unfitFault phase name params
  | .trap _ _ own => own

/-- What the bring-up fails with. -/
def fault (exports : Config.Exports) : Misstep → Fault
  | .instantiate own => attribution .instantiate "" own
  | .setStack own => attribution .stack exports.stackPointer own
  | .unfit phase name params => unfitFault phase name params
  | .trap phase name own => .trapped phase name (some own)

end Misstep

/-! ## What the fault of a step tells -/

section

variable {phase : Phase} {name : String} {f : Fault}

theorem attribution_suffix : f.chain <:+ (attribution phase name f).chain := by
  unfold attribution
  split
  · exact List.suffix_refl _
  · split <;> exact List.suffix_cons _ _

theorem attribution_hasReport : (attribution phase name f).hasReport = true := by
  unfold attribution
  split
  · assumption
  · split <;> rfl

/-- The fault is no report of another phase, nor of a trap. -/
def Telling (phase : Phase) (f : Fault) : Prop :=
  f.hasReport = false ∨ ∃ r, f.report? = some r ∧ r.phase = phase ∧ r.kind ≠ .trap

/-- A fault without a report gets one that names the phase. -/
theorem attribution_report (h : Telling phase f) :
    ∃ r, (attribution phase name f).report? = some r ∧ r.phase = phase ∧ r.kind ≠ .trap := by
  rw [attribution]
  rcases h with h | ⟨r, hr, htells⟩
  · rw [h]
    by_cases hphase : phase = .instantiate
    · rw [if_neg (by decide), if_pos hphase]
      exact ⟨_, rfl, hphase.symm, by decide⟩
    · rw [if_neg (by decide), if_neg hphase]
      exact ⟨_, rfl, rfl, show Kind.invalidData ≠ Kind.trap by decide⟩
  · rw [if_pos (Fault.hasReport_of_report? hr)]
    exact ⟨r, hr, htells⟩

theorem unfitFault_report (phase : Phase) (name : String) (params : Option (List Wasm.ValType)) :
    ∃ r, (Misstep.unfitFault phase name params).report? = some r ∧ r.phase = phase ∧
      r.kind = if params.isNone then .missingExport else .typeMismatch := by
  cases params with
  | none | some ts => exact ⟨_, rfl, rfl, rfl⟩

theorem checkPointerFunc_pointer (phase : Phase) (name : String) :
    checkPointerFunc phase name (some [.i32]) = none := rfl

theorem checkPointerFunc_unfit {params : Option (List Wasm.ValType)} (h : params ≠ some [.i32]) :
    checkPointerFunc phase name params = some (Misstep.unfitFault phase name params) := by
  unfold checkPointerFunc
  split
  · rfl
  · exact absurd rfl h
  · rfl

end

/-- Whatever is found in the step's own fault is found in the fault of the bring-up as well. -/
theorem Misstep.own_suffix (m : Misstep) (exports : Config.Exports) :
    m.own.chain <:+ (m.fault exports).chain := by
  cases m with
  | instantiate own | setStack own => exact attribution_suffix
  | unfit phase name params => exact List.suffix_refl _
  | trap phase name own => exact List.suffix_cons _ _

/-- Faults of making the instance and of setting the stack pointer tell where they are from. -/
def Misstep.Telling : Misstep → Prop
  | .instantiate own => Worker.Telling .instantiate own
  | .setStack own => Worker.Telling .stack own
  | _ => True

theorem Misstep.hasReport (m : Misstep) (exports : Config.Exports) :
    (m.fault exports).hasReport = true := by
  cases m with
  | instantiate own | setStack own => exact attribution_hasReport
  | unfit phase name params =>
    obtain ⟨r, hr, -⟩ := unfitFault_report phase name params
    exact Fault.hasReport_of_report? hr
  | trap phase name own => rfl

/-! ## The step that fails -/

variable {σ ι μ : Type}

section

variable (host : Host σ ι μ) (exports : Config.Exports) (msg : Message μ) (s : σ)

/-- The bring-up that starts in `s` gets to a state, with the instance and the world as given. -/
inductive Reaches : State → ι → σ → Prop
  | instantiated {inst : ι} {s₁ : σ}
      (h : host.instantiate msg (host.observe .started s) = (.ok inst, s₁)) :
      Reaches .instantiated inst (host.observe (.advanced .instantiated) s₁)
  | stackSet {inst : ι} {u : Unit} {s₁ s₂ : σ} (before : Reaches .instantiated inst s₁)
      (h : host.setGlobal inst exports.stackPointer msg.stackPtr s₁ = (.ok u, s₂)) :
      Reaches .stackSet inst (host.observe (.advanced .stackSet) s₂)
  | tlsInitialized {inst : ι} {results : List UInt64} {s₁ s₂ : σ}
      (before : Reaches .stackSet inst s₁)
      (hparams : host.params inst exports.initTls s₁ = some [.i32])
      (h : host.call inst exports.initTls [msg.tlsPtr.toUInt64] s₁ = (.ok results, s₂)) :
      Reaches .tlsInitialized inst (host.observe (.advanced .tlsInitialized) s₂)

/-- The bring-up that starts in `s` ends in a state because of this step, which leaves the world as
given. -/
inductive Fails : State → Misstep → σ → Prop
  | instantiate {own : Fault} {s₁ : σ}
      (h : host.instantiate msg (host.observe .started s) = (.error own, s₁)) :
      Fails .uninitialized (.instantiate own) s₁
  | setStack {inst : ι} {own : Fault} {s₁ s₂ : σ}
      (before : Reaches host exports msg s .instantiated inst s₁)
      (h : host.setGlobal inst exports.stackPointer msg.stackPtr s₁ = (.error own, s₂)) :
      Fails .instantiated (.setStack own) s₂
  | tlsUnfit {inst : ι} {s₁ : σ} (before : Reaches host exports msg s .stackSet inst s₁)
      (h : host.params inst exports.initTls s₁ ≠ some [.i32]) :
      Fails .stackSet (.unfit .tls exports.initTls (host.params inst exports.initTls s₁)) s₁
  | tlsTrap {inst : ι} {own : Fault} {s₁ s₂ : σ}
      (before : Reaches host exports msg s .stackSet inst s₁)
      (hparams : host.params inst exports.initTls s₁ = some [.i32])
      (h : host.call inst exports.initTls [msg.tlsPtr.toUInt64] s₁ = (.error own, s₂)) :
      Fails .stackSet (.trap .tls exports.initTls own) s₂
  | entryUnfit {inst : ι} {s₁ : σ} (before : Reaches host exports msg s .tlsInitialized inst s₁)
      (h : host.params inst exports.entrypoint s₁ ≠ some [.i32]) :
      Fails .tlsInitialized
        (.unfit .entry exports.entrypoint (host.params inst exports.entrypoint s₁)) s₁
  | entryTrap {inst : ι} {own : Fault} {s₁ s₂ : σ}
      (before : Reaches host exports msg s .tlsInitialized inst s₁)
      (hparams : host.params inst exports.entrypoint s₁ = some [.i32])
      (h : host.call inst exports.entrypoint [msg.closurePtr.toUInt64]
        (host.observe (.advanced .running) s₁) = (.error own, s₂)) :
      Fails .running (.trap .entry exports.entrypoint own) s₂

end

variable {host : Host σ ι μ} {exports : Config.Exports} {msg : Message μ} {s s₁ s' : σ}
  {state : State} {inst : ι} {m : Misstep}

theorem Fails.phase_eq (h : Fails host exports msg s state m s₁) : m.phase = state.phase := by
  cases h <;> rfl

/-- The report says in which step a worker failed that ends in this state, and how. -/
structure Names (state : State) (m : Misstep) (r : Report) : Prop where
  phase : r.phase = state.phase
  trap : r.kind = .trap ↔ ∃ name own, m = .trap state.phase name own
  missing : state.phase = .tls ∨ state.phase = .entry →
    (r.kind = .missingExport ↔ ∃ name, m = .unfit state.phase name none)
  mismatch : state.phase = .tls ∨ state.phase = .entry →
    (r.kind = .typeMismatch ↔ ∃ name ts, ts ≠ [.i32] ∧ m = .unfit state.phase name (some ts))

theorem names_unfit {phase : Phase} {name : String} {params : Option (List Wasm.ValType)}
    (hstate : state.phase = phase) (hparams : params ≠ some [.i32]) :
    ∃ r, (Misstep.fault exports (.unfit phase name params)).outermost? = some r ∧
      Names state (.unfit phase name params) r := by
  subst hstate
  obtain ⟨r, hr, hphase, hkind⟩ := unfitFault_report state.phase name params
  refine ⟨r, Fault.outermost?_of_report? hr, hphase, ?_, fun _ => ?_, fun _ => ?_⟩
  · cases params with
    | none | some ts => simp [hkind, Kind.missingExport, Kind.typeMismatch, Kind.trap]
  · cases params with
    | none | some ts => simp [hkind, Kind.missingExport, Kind.typeMismatch]
  · cases params with
    | none => simp [hkind, Kind.missingExport, Kind.typeMismatch]
    | some ts => simpa [hkind] using hparams

theorem names_trap {phase : Phase} {name : String} {own : Fault} (hstate : state.phase = phase) :
    ∃ r, (Misstep.fault exports (.trap phase name own)).outermost? = some r ∧
      Names state (.trap phase name own) r := by
  subst hstate
  refine ⟨_, rfl, rfl, ?_, fun _ => ?_, fun _ => ?_⟩
  · simp
  · simp [Kind.trap, Kind.missingExport]
  · simp [Kind.trap, Kind.typeMismatch]

theorem Fails.names (h : Fails host exports msg s state m s₁) (htelling : m.Telling) :
    ∃ r, (m.fault exports).outermost? = some r ∧ Names state m r := by
  cases h with
  | instantiate | setStack =>
    obtain ⟨r, hr, hphase, hkind⟩ := attribution_report htelling
    refine ⟨r, Fault.outermost?_of_report? hr, hphase, ?_, ?_, ?_⟩
    · simp [hkind]
    · exact fun h => absurd h (by decide)
    · exact fun h => absurd h (by decide)
  | tlsUnfit _ h | entryUnfit _ h => exact names_unfit rfl h
  | tlsTrap | entryTrap => exact names_trap rfl

/-- What is left of a bring-up in a state. -/
def BringUp.rest (exports : Config.Exports) (msg : Message μ) (inst : ι) : State → BringUp ι
  | .uninitialized => .steps exports msg.stackPtr msg.tlsPtr msg.closurePtr
  | .instantiated => .setStack exports inst msg.stackPtr msg.tlsPtr msg.closurePtr
  | .stackSet => .initTls exports inst msg.tlsPtr msg.closurePtr
  | _ => .enterThread exports inst msg.closurePtr

/-- A bring-up that gets to a state goes on from there. -/
theorem Reaches.carryOut_eq (h : Reaches host exports msg s state inst s₁) :
    carryOut host msg (.steps exports msg.stackPtr msg.tlsPtr msg.closurePtr) .uninitialized
        (host.observe .started s) =
      carryOut host msg (.rest exports msg inst state) state s₁ := by
  induction h with
  | instantiated h =>
    simp only [BringUp.steps, carryOut, h, Note.apply]
    rfl
  | stackSet _ h ih =>
    rw [ih]
    simp only [BringUp.rest, BringUp.setStack, carryOut, h, Note.apply]
  | tlsInitialized _ hparams h ih =>
    rw [ih]
    simp only [BringUp.rest, BringUp.initTls, carryOut, hparams, checkPointerFunc_pointer, h,
      Note.apply]

/-- What neither the closing of an instance nor a note changes. -/
structure Host.Settles (host : Host σ ι μ) (P : σ → Prop) : Prop where
  close : ∀ inst s, P s → P (host.close inst s).2
  observe : ∀ n s, P s → P (host.observe n s)

/-- After a failure the instance is closed, if there is one, and that is all. -/
structure Ends (host : Host σ ι μ) (f : Fault) (state : State) (s₁ : σ)
    (out : Except Fault ι × State × σ) : Prop where
  result : out.1 = .error f
  state : out.2.1 = state
  settled : ∀ P, host.Settles P → P s₁ → P out.2.2

theorem ends_abort (inst : ι) (f : Fault) (state : State) (s₁ : σ) :
    Ends host f state s₁ (carryOut host msg (.abort inst f) state s₁) := by
  rcases h : host.close inst s₁ with ⟨e | _, s₂⟩
  · simp only [BringUp.abort, carryOut, h, Note.apply]
    refine ⟨rfl, rfl, fun P hP hs => hP.observe _ _ ?_⟩
    simpa [h] using hP.close inst s₁ hs
  · simp only [BringUp.abort, carryOut, h]
    refine ⟨rfl, rfl, fun P hP hs => ?_⟩
    simpa [h] using hP.close inst s₁ hs

/-- The step that fails decides what the bring-up comes to. -/
theorem Fails.ends (h : Fails host exports msg s state m s₁) :
    Ends host (m.fault exports) state s₁
      (carryOut host msg (.steps exports msg.stackPtr msg.tlsPtr msg.closurePtr) .uninitialized
        (host.observe .started s)) := by
  cases h with
  | instantiate h =>
    simp only [BringUp.steps, carryOut, h]
    exact ⟨rfl, rfl, fun _ _ hs => hs⟩
  | setStack before h =>
    rw [before.carryOut_eq]
    simp only [BringUp.rest, BringUp.setStack, carryOut, h]
    exact ends_abort _ _ _ _
  | tlsUnfit before h =>
    rw [before.carryOut_eq]
    simp only [BringUp.rest, BringUp.initTls, carryOut, checkPointerFunc_unfit h]
    exact ends_abort _ _ _ _
  | tlsTrap before hparams h =>
    rw [before.carryOut_eq]
    simp only [BringUp.rest, BringUp.initTls, carryOut, hparams, checkPointerFunc_pointer, h]
    exact ends_abort _ _ _ _
  | entryUnfit before h =>
    rw [before.carryOut_eq]
    simp only [BringUp.rest, BringUp.enterThread, carryOut, checkPointerFunc_unfit h]
    exact ends_abort _ _ _ _
  | entryTrap before hparams h =>
    rw [before.carryOut_eq]
    simp only [BringUp.rest, BringUp.enterThread, carryOut, hparams, checkPointerFunc_pointer, h,
      Note.apply]
    exact ends_abort _ _ _ _

theorem Fails.handle_eq (h : Fails host exports msg s state m s₁) :
    ∃ s', handle host exports {} msg s =
        (.error (m.fault exports), { state := state, handled := true, failed := true }, s') ∧
      ∀ P, host.Settles P → P s₁ → P s' := by
  have hends := h.ends
  rcases hrun : carryOut host msg (.steps exports msg.stackPtr msg.tlsPtr msg.closurePtr)
    .uninitialized (host.observe .started s) with ⟨r, state', s'⟩
  rw [hrun] at hends
  obtain ⟨rfl, rfl, hsettled⟩ := hends
  exact ⟨_, handle_first host msg exports hrun, fun P hP hs => hP.observe _ _ (hsettled P hP hs)⟩

/-- Either some step fails, or none does and the instance is returned. -/
theorem fails_or_returns (host : Host σ ι μ) (exports : Config.Exports) (msg : Message μ) (s : σ) :
    (∃ state m s₁, Fails host exports msg s state m s₁) ∨
      ∃ inst p s', handle host exports {} msg s = (.ok inst, p, s') := by
  rcases hmake : host.instantiate msg (host.observe .started s) with ⟨own | inst, s₁⟩
  · exact .inl ⟨_, _, _, .instantiate hmake⟩
  have hmade : Reaches host exports msg s .instantiated inst _ := .instantiated hmake
  rcases hset : host.setGlobal inst exports.stackPointer msg.stackPtr
    (host.observe (.advanced .instantiated) s₁) with ⟨own | u, s₂⟩
  · exact .inl ⟨_, _, _, .setStack hmade hset⟩
  have hstack := hmade.stackSet hset
  by_cases htls : host.params inst exports.initTls (host.observe (.advanced .stackSet) s₂) =
      some [.i32]
  case neg => exact .inl ⟨_, _, _, .tlsUnfit hstack htls⟩
  rcases hinit : host.call inst exports.initTls [msg.tlsPtr.toUInt64]
    (host.observe (.advanced .stackSet) s₂) with ⟨own | results, s₃⟩
  · exact .inl ⟨_, _, _, .tlsTrap hstack htls hinit⟩
  have hready := hstack.tlsInitialized htls hinit
  by_cases hentry : host.params inst exports.entrypoint
      (host.observe (.advanced .tlsInitialized) s₃) = some [.i32]
  case neg => exact .inl ⟨_, _, _, .entryUnfit hready hentry⟩
  rcases henter : host.call inst exports.entrypoint [msg.closurePtr.toUInt64]
    (host.observe (.advanced .running) (host.observe (.advanced .tlsInitialized) s₃))
    with ⟨own | results, s₄⟩
  · exact .inl ⟨_, _, _, .entryTrap hready hentry henter⟩
  have hrun := hready.carryOut_eq
  simp only [BringUp.rest, BringUp.enterThread, carryOut, hentry, checkPointerFunc_pointer, henter,
    Note.apply] at hrun
  exact .inr ⟨_, _, _, handle_first host msg exports hrun⟩

/-- A bring-up that fails does so because of a step. -/
theorem fails_of_handle {f : Fault} {p : Progress}
    (h : handle host exports {} msg s = (.error f, p, s')) :
    ∃ m s₁, Fails host exports msg s p.state m s₁ ∧ f = m.fault exports ∧
      ∀ P, host.Settles P → P s₁ → P s' := by
  rcases fails_or_returns host exports msg s with ⟨state, m, s₁, hfails⟩ | ⟨inst, p', s'', hok⟩
  · obtain ⟨s'', hrun, hsettled⟩ := hfails.handle_eq
    cases hrun.symm.trans h
    exact ⟨m, s₁, hfails, rfl, hsettled⟩
  · cases hok.symm.trans h

/-- A bring-up gets to a state in one way only. -/
theorem Reaches.unique {inst' : ι} {s₁' : σ} (h : Reaches host exports msg s state inst s₁)
    (h' : Reaches host exports msg s state inst' s₁') : inst' = inst ∧ s₁' = s₁ := by
  induction h generalizing inst' s₁' with
  | instantiated h =>
    cases h' with
    | instantiated h' =>
      cases h.symm.trans h'
      exact ⟨rfl, rfl⟩
  | stackSet _ h ih =>
    cases h' with
    | stackSet before' h' =>
      obtain ⟨rfl, rfl⟩ := ih before'
      cases h.symm.trans h'
      exact ⟨rfl, rfl⟩
  | tlsInitialized _ _ h ih =>
    cases h' with
    | tlsInitialized before' _ h' =>
      obtain ⟨rfl, rfl⟩ := ih before'
      cases h.symm.trans h'
      exact ⟨rfl, rfl⟩

/-- There is one step that fails. -/
theorem Fails.unique {state' : State} {m' : Misstep} {s₁' : σ}
    (h : Fails host exports msg s state m s₁) (h' : Fails host exports msg s state' m' s₁') :
    state' = state ∧ m' = m := by
  obtain ⟨_, hrun, -⟩ := h.handle_eq
  obtain ⟨_, hrun', -⟩ := h'.handle_eq
  obtain ⟨-, hprogress, -⟩ : _ ∧ _ ∧ _ := by simpa using hrun'.symm.trans hrun
  obtain rfl : state' = state := hprogress
  refine ⟨rfl, ?_⟩
  cases h with
  | instantiate h =>
    cases h' with
    | instantiate h' =>
      cases h.symm.trans h'
      rfl
  | setStack before h =>
    cases h' with
    | setStack before' h' =>
      obtain ⟨rfl, rfl⟩ := before.unique before'
      cases h.symm.trans h'
      rfl
  | tlsUnfit before h =>
    cases h' with
    | tlsUnfit before' h' =>
      obtain ⟨rfl, rfl⟩ := before.unique before'
      rfl
    | tlsTrap before' hparams' h' =>
      obtain ⟨rfl, rfl⟩ := before.unique before'
      exact absurd hparams' h
  | tlsTrap before hparams h =>
    cases h' with
    | tlsUnfit before' h' =>
      obtain ⟨rfl, rfl⟩ := before.unique before'
      exact absurd hparams h'
    | tlsTrap before' hparams' h' =>
      obtain ⟨rfl, rfl⟩ := before.unique before'
      cases h.symm.trans h'
      rfl
  | entryUnfit before h =>
    cases h' with
    | entryUnfit before' h' =>
      obtain ⟨rfl, rfl⟩ := before.unique before'
      rfl
  | entryTrap before hparams h =>
    cases h' with
    | entryTrap before' hparams' h' =>
      obtain ⟨rfl, rfl⟩ := before.unique before'
      cases h.symm.trans h'
      rfl

/-! ## Closing does not matter -/

section

variable (close : ι → σ → Except Fault Unit × σ)

theorem Reaches.reclosed (h : Reaches host exports msg s state inst s₁) :
    Reaches { host with close := close } exports msg s state inst s₁ := by
  induction h with
  | instantiated h => exact .instantiated h
  | stackSet _ h ih => exact ih.stackSet h
  | tlsInitialized _ hparams h ih => exact ih.tlsInitialized hparams h

theorem Fails.reclosed (h : Fails host exports msg s state m s₁) :
    Fails { host with close := close } exports msg s state m s₁ := by
  cases h with
  | instantiate h => exact .instantiate h
  | setStack before h => exact .setStack (before.reclosed close) h
  | tlsUnfit before h => exact .tlsUnfit (before.reclosed close) h
  | tlsTrap before hparams h => exact .tlsTrap (before.reclosed close) hparams h
  | entryUnfit before h => exact .entryUnfit (before.reclosed close) h
  | entryTrap before hparams h => exact .entryTrap (before.reclosed close) hparams h

end

/-! ## What was called by then -/

/-- The function that an effect calls. -/
def Effect.called? : Effect ι → Option String
  | .call _ name _ => some name
  | _ => none

/-- The functions called so far. -/
def Recording.called (rec : Recording σ ι) : List String := rec.effects.filterMap (·.1.called?)

/-- The functions called until a step has failed. -/
def Misstep.calls (exports : Config.Exports) : Misstep → List String
  | .instantiate _ => []
  | .setStack _ => []
  | .unfit phase _ _ => if phase = .tls then [] else [exports.initTls]
  | .trap phase name _ => if phase = .tls then [name] else [exports.initTls, name]

section

variable {rec₀ rec : Recording σ ι}

theorem Recording.called_perform {α : Type} (rec : Recording σ ι) (e : Effect ι) (r : α × σ) :
    (rec.perform e r).2.called = rec.called ++ e.called?.toList := by
  cases h : e.called? <;> simp [Recording.called, Recording.perform, h]

theorem called_observe (n : Note) (rec : Recording σ ι) :
    (host.recorded.observe n rec).called = rec.called := rfl

theorem called_settles (names : List String) : host.recorded.Settles (·.called = names) where
  close inst rec hrec := by
    have hcalled := rec.called_perform (.close inst) (host.close inst rec.world)
    rw [hrec] at hcalled
    exact hcalled.trans (List.append_nil _)
  observe _ _ hrec := hrec

/-- An effect that was carried out, with what became of the record. -/
theorem called_of_perform {α : Type} {e : Effect ι} {r : α × σ} {a : α}
    (h : rec₀.perform e r = (a, rec)) :
    r = (a, rec.world) ∧ rec.called = rec₀.called ++ e.called?.toList := by
  obtain ⟨rfl, rfl⟩ := Prod.mk.inj h
  exact ⟨rfl, rec₀.called_perform e r⟩

/-- The functions called on the way to a state. -/
def State.calls (exports : Config.Exports) : State → List String
  | .tlsInitialized => [exports.initTls]
  | _ => []

/-- The recorded host gets where the host gets. -/
theorem Reaches.unrecorded (h : Reaches host.recorded exports msg rec₀ state inst rec)
    (hnone : rec₀.called = []) :
    Reaches host exports msg rec₀.world state inst rec.world ∧
      rec.called = state.calls exports := by
  induction h with
  | instantiated h =>
    obtain ⟨hrun, hcalled⟩ := called_of_perform h
    exact ⟨.instantiated hrun, hcalled.trans (by rw [called_observe, hnone]; rfl)⟩
  | stackSet _ h ih =>
    obtain ⟨hbefore, hcalls⟩ := ih
    obtain ⟨hrun, hcalled⟩ := called_of_perform h
    exact ⟨hbefore.stackSet hrun, hcalled.trans (by rw [hcalls]; rfl)⟩
  | tlsInitialized _ hparams h ih =>
    obtain ⟨hbefore, hcalls⟩ := ih
    obtain ⟨hrun, hcalled⟩ := called_of_perform h
    exact ⟨hbefore.tlsInitialized hparams hrun, hcalled.trans (by rw [hcalls]; rfl)⟩

theorem Fails.unrecorded (h : Fails host.recorded exports msg rec₀ state m rec)
    (hnone : rec₀.called = []) :
    Fails host exports msg rec₀.world state m rec.world ∧ rec.called = m.calls exports := by
  cases h with
  | instantiate h =>
    obtain ⟨hrun, hcalled⟩ := called_of_perform h
    exact ⟨.instantiate hrun, hcalled.trans (by rw [called_observe, hnone]; rfl)⟩
  | setStack before h =>
    obtain ⟨hbefore, hcalls⟩ := before.unrecorded hnone
    obtain ⟨hrun, hcalled⟩ := called_of_perform h
    exact ⟨.setStack hbefore hrun, hcalled.trans (by rw [hcalls]; rfl)⟩
  | tlsUnfit before h =>
    obtain ⟨hbefore, hcalls⟩ := before.unrecorded hnone
    exact ⟨.tlsUnfit hbefore h, hcalls⟩
  | tlsTrap before hparams h =>
    obtain ⟨hbefore, hcalls⟩ := before.unrecorded hnone
    obtain ⟨hrun, hcalled⟩ := called_of_perform h
    exact ⟨.tlsTrap hbefore hparams hrun, hcalled.trans (by rw [hcalls]; rfl)⟩
  | entryUnfit before h =>
    obtain ⟨hbefore, hcalls⟩ := before.unrecorded hnone
    exact ⟨.entryUnfit hbefore h, hcalls⟩
  | entryTrap before hparams h =>
    obtain ⟨hbefore, hcalls⟩ := before.unrecorded hnone
    obtain ⟨hrun, hcalled⟩ := called_of_perform h
    exact ⟨.entryTrap hbefore hparams hrun, hcalled.trans (by rw [called_observe, hcalls]; rfl)⟩

end

/-! ## What the fault of a bring-up tells -/

/-- The fault `f` of a bring-up that starts in `s` and ends in a state comes from the step `m`. -/
structure StemsFrom (host : Host σ ι μ) (exports : Config.Exports) (msg : Message μ) (s : σ)
    (state : State) (m : Misstep) (f : Fault) : Prop where
  /-- It is this step that fails, and no other. -/
  step : ∀ state' m', (∃ s₁, Fails host exports msg s state' m' s₁) ↔ state' = state ∧ m' = m
  phase : m.phase = state.phase
  /-- The step's own fault and its causes are the last causes of the fault. -/
  behind : m.own.chain <:+ f.chain
  found : ∀ target, m.own.is target = true → f.is target = true
  reported : f.hasReport = true
  /-- A function that is found unfit has not been called. -/
  calls : (handle host.recorded exports {} msg { world := s }).2.2.called = m.calls exports
  /-- Whatever comes of closing the instance, the fault is the same. -/
  closing : ∀ close, ∃ s', handle { host with close := close } exports {} msg s =
    (.error f, { state := state, handled := true, failed := true }, s')

theorem stemsFrom_of_handle {f : Fault} {p : Progress}
    (h : handle host exports {} msg s = (.error f, p, s')) :
    ∃ m s₁, Fails host exports msg s p.state m s₁ ∧ f = m.fault exports ∧
      StemsFrom host exports msg s p.state m f := by
  -- The recording tells what was called, and the host without it fails in the same way.
  have hrecorded := handle_recorded host exports {} msg { world := s }
  rcases hrun : handle host.recorded exports {} msg { world := s } with ⟨r, p', rec'⟩
  rw [hrun] at hrecorded
  cases h.symm.trans hrecorded
  obtain ⟨m, rec, hfails, rfl, hsettled⟩ := fails_of_handle hrun
  obtain ⟨hstep, hcalls⟩ := hfails.unrecorded rfl
  refine ⟨m, rec.world, hstep, rfl, ?_⟩
  exact {
    step := fun state' m' => ⟨fun ⟨_, h'⟩ => hstep.unique h', by
      rintro ⟨rfl, rfl⟩
      exact ⟨_, hstep⟩⟩
    phase := hstep.phase_eq
    behind := m.own_suffix exports
    found := fun _ => Fault.is_of_suffix (m.own_suffix exports)
    reported := m.hasReport exports
    calls := by
      rw [hrun]
      exact hsettled _ (called_settles _) hcalls
    closing := fun close => by
      obtain ⟨s'', hclosed, -⟩ := (hstep.reclosed close).handle_eq
      exact ⟨s'', hclosed⟩ }

end GuestThreads.Worker
