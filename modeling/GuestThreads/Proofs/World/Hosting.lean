import GuestThreads.Proofs.World.Parties

/-!
# Contracts that allow for guest code

What guest code does by itself stays within a frame, and now and then it posts a signal. A contract
that allows both allows for whole calls into a guest, and for all that is done through a bridge to
it, however long it takes and whatever the others do meanwhile.
-/

namespace GuestThreads.World

variable {α β γ : Type} {c : Contract γ} {g : γ} {F : Frame} {I : World → Prop}
  {sink : Option Sink} {w : World}

/-- A process that cannot fail goes on to the same end. -/
theorem Process.Honours.ofProcess {P : α → γ → World → Prop} {p : Process α}
    (h : p.Honours c P g w) :
    Process.Honours c (fun r g v => ∃ a, r = .ok a ∧ P a g v) (Course.ofProcess p) g w := by
  induction p generalizing g w with
  | done a => exact fun v hv => ⟨a, rfl, h v hv⟩
  | piece event act next ih =>
    intro v hv
    obtain ⟨g', hstep, hnext⟩ := h v hv
    exact ⟨g', hstep, ih _ hnext⟩

theorem Course.honours_ofProcess {R : α → World → Prop} {p : Process α}
    (h : p.Honours c (fun a g' v => g' = g ∧ R a v) g w) :
    (Course.ofProcess p).Honours c g R w := by
  refine Process.Honours.imp h.ofProcess ?_
  rintro _ _ _ ⟨a, rfl, hg, hr⟩
  exact ⟨hg, fun _ ha => by cases ha; exact hr⟩

theorem Course.honours_attempt {R : α → World → Prop} {p : Course α} (h : p.Honours c g R w) :
    (Course.attempt p).Honours c g (fun r v => ∀ a, r = .ok a → R a v) w :=
  Course.honours_ofProcess h

theorem Course.honours_ofExcept {R : α → World → Prop} {r : Except Fault α}
    (h : ∀ a, r = .ok a → ∀ v, c.rely.rel w v → R a v) :
    (Course.ofExcept r).Honours c g R w :=
  fun v hv => ⟨rfl, fun a ha => h a ha v hv⟩

variable [Wasm.Machine]

/-- Where `I` holds the contract allows for the frame `F` and for signals to `sink`, and `I` goes on
to hold. -/
structure Hosting (c : Contract γ) (g : γ) (F : Frame) (I : World → Prop) (sink : Option Sink) :
    Prop where
  indifferent : F.Indifferent
  stable : ∀ {w w'}, c.rely.rel w w' → I w → I w'
  quiet : ∀ {w w'}, F.rel w w' → I w → c.step g none w g w' ∧ I w'
  post : ∀ {w} s, I w → (Course.ofProcess (.post sink s)).Honours c g (fun _ v => I v) w

namespace Hosting

/-- A single piece that stays within the frame. What is known of its result has to last. -/
theorem atom (h : Hosting c g F I sink) {act : Try α} {R : α → World → Prop}
    (hact : Keeps F act.run) (hw : I w)
    (hR : ∀ v a, c.rely.rel w v → (act v).1 = .ok a → ∀ v', c.rely.rel (act v).2 v' → R a v') :
    (Course.atom act).Honours c g (fun a v => I v ∧ R a v) w := by
  intro v hv
  obtain ⟨hstep, hnext⟩ := h.quiet (hact v) (h.stable hv hw)
  exact ⟨g, hstep, fun v' hv' => ⟨rfl, fun a ha => ⟨h.stable hv' hnext, hR v a hv ha v' hv'⟩⟩⟩

theorem atom' (h : Hosting c g F I sink) {act : Try α} (hact : Keeps F act.run) (hw : I w) :
    (Course.atom act).Honours c g (fun _ v => I v) w :=
  (h.atom (R := fun _ _ => True) hact hw fun _ _ _ _ _ _ => trivial).imp fun _ _ hr => hr.1

theorem outcome (h : Hosting c g F I sink) (hw : I w) (r : Except Fault α) :
    (Course.ofExcept r).Honours c g (fun _ v => I v) w :=
  Course.honours_ofExcept fun _ _ _ hv => h.stable hv hw

theorem value (h : Hosting c g F I sink) (hw : I w) (a : α) :
    (pure a : Course α).Honours c g (fun _ v => I v) w :=
  Course.honours_value fun _ hv => h.stable hv hw

theorem step (h : Hosting c g F I sink) (frames : List Wasm.Frame) (hw : I w) :
    (Course.ofProcess (.atom (Course.stepGuest frames))).Honours c g (fun _ v => I v) w := by
  refine Course.honours_ofProcess fun v hv => ?_
  have hframe : F.rel v (Course.stepGuest frames v).2 := by
    change F.rel v (Course.stepped v (Wasm.step v.store frames))
    cases hstep : Wasm.step v.store frames with
    | running store frames' => exact h.indifferent.store v store (Wasm.step_evolves hstep)
    | asked | finished | trapped | closed => exact F.refl v
  obtain ⟨hstep, hnext⟩ := h.quiet hframe (h.stable hv hw)
  exact ⟨g, hstep, fun v' hv' => ⟨rfl, h.stable hv' hnext⟩⟩

theorem runGuest (h : Hosting c g F I sink) (trap : Wasm.Trap → List Wasm.Call → Cause)
    (steps : Nat) (frames : List Wasm.Frame) (hw : I w) :
    (Course.runGuest sink trap steps frames).Honours c g (fun _ v => I v) w := by
  induction steps generalizing frames w with
  | zero => exact h.outcome hw _
  | succ steps ih =>
    rw [Course.runGuest]
    refine (h.step frames hw).bind fun next v hv => ?_
    cases next with
    | running store frames' => exact ih frames' hv
    | finished results => exact h.outcome hv _
    | trapped reason => exact h.outcome hv _
    | closed why => exact h.outcome hv _
    | asked function args frames' =>
      dsimp only
      cases Wasm.signalOf? args with
      | none => exact h.outcome hv _
      | some s => exact (h.post s hv).bind fun _ v' hv' => ih _ hv'

theorem execute (h : Hosting c g F I sink) (trap : Wasm.Trap → List Wasm.Call → Cause)
    (entry : Entry) (hw : I w) :
    (Course.execute sink trap entry).Honours c g (fun _ v => I v) w := by
  cases entry with
  | code frame => exact h.runGuest trap _ _ hw
  | host args =>
    rw [Course.execute]
    cases Wasm.signalOf? args with
    | none => exact Course.honours_fault _
    | some s => exact (h.post s hw).bind fun _ v hv => h.value hv _

theorem callFunction (h : Hosting c g F I sink) (e : Engine) (cancelled : Bool) (inst index : Nat)
    (args : List UInt64) (trap : Wasm.Trap → List Wasm.Call → Cause) (hw : I w) :
    (Course.callFunction e sink cancelled inst index args trap).Honours c g (fun _ v => I v) w := by
  refine (h.atom' (enterCall_keeps h.indifferent.toPassive _ _ _ _ _) hw).bind
    fun entered v hv => ?_
  refine (h.execute trap entered.2 hv).bind fun results v' hv' => ?_
  exact h.atom' (unlessClosed_keeps _ _) hv'

theorem link (h : Hosting c g F I sink) (k : Nat) (m : Wasm.Module) (cancelled : Bool)
    (hw : I w) : (Course.link k m sink cancelled).Honours c g (fun _ v => I v) w := by
  refine (h.atom' (install_keeps h.indifferent.toPassive k m) hw).bind fun installed v hv => ?_
  refine (h.atom' (fill_keeps h.indifferent.toPassive _) hv).bind fun _ v' hv' => ?_
  cases m.start with
  | none => exact h.value hv' _
  | some start =>
    exact (h.callFunction _ _ _ _ _ _ hv').bind fun _ v'' hv'' => h.value hv'' _

/-- The number of a new instance, of which `R` says something that lasts. -/
theorem instantiate (h : Hosting c g F I sink) {R : Nat → World → Prop}
    (hstable : ∀ n v v', c.rely.rel v v' → R n v → R n v')
    (henlist : ∀ v k memoryId inst, I v →
      R (enlist k memoryId inst sink v).1 (enlist k memoryId inst sink v).2)
    (k : Nat) (bytes : Bytes) (shared : Option Nat) (cancelled : Bool) (hw : I w) :
    (Course.instantiate k bytes shared sink cancelled).Honours c g (fun n v => I v ∧ R n v) w := by
  refine Course.Honours.orElse ?_
    (fun n v v' hv hr => ⟨h.stable hv hr.1, hstable n v v' hv hr.2⟩)
    fun f v => Course.honours_fault _
  refine (h.atom' (vet_keeps h.indifferent.toPassive k bytes shared) hw).bind fun vetted v hv => ?_
  refine (h.link k _ cancelled hv).bind fun inst v' hv' => ?_
  refine h.atom (.lift (enlist_keeps h.indifferent.toLenient k _ inst sink)) hv'
    fun u a hu ha v'' hv'' => ?_
  cases ha
  exact hstable _ _ _ hv'' (henlist u k vetted.1 inst (h.stable hu hv'))

/-! ## Bridges -/

theorem look (h : Hosting c g F I sink) (f : World → α) (hw : I w) :
    (Course.look f).Honours c g (fun _ v => I v) w := by
  have hlook : Keeps F (do return f (← get) : Try α).run := fun v => F.refl v
  exact h.atom' hlook hw

/-- What is done with a bridge unless it is closed. -/
theorem unlessShut (h : Hosting c g F I sink) (b : Nat) {p : Course (List UInt64)}
    (hp : ∀ v, I v → p.Honours c g (fun _ v => I v) v) (hw : I w) :
    (do if ← Course.look (·.bridgeClosed b) then throw Bridge.closedFault else p :
      Course (List UInt64)).Honours c g (fun _ v => I v) w := by
  refine (h.look _ hw).bind fun closed v hv => ?_
  split
  · exact Course.honours_fault _
  · exact hp v hv

section

variable {guest : Guest} (h : Hosting c g F I sink)
  (hcall : ∀ cancelled name args w, I w →
    (Course.callGuest guest cancelled name args).Honours c g (fun _ v => I v) w)
  (b : Nat) (cancelled : Bool)

include h hcall

theorem callExport (name : String) (args : List UInt64) (hw : I w) :
    (Course.callExport guest cancelled name args).Honours c g (fun _ v => I v) w := by
  refine (h.look _ hw).bind fun known v hv => ?_
  split
  · exact Course.Honours.orElse (hcall cancelled name args v hv)
      (fun _ _ _ hv hr => h.stable hv hr) fun f v' => Course.honours_fault _
  · exact Course.honours_fault _

variable (hlasting : ∀ {g e v g' v'}, c.step g e v g' v' → c.rely.rel v v')
  (hshut : ∀ b, Keeps F (Course.shut b))

include hlasting hshut

theorem perform {nested : String → List UInt64 → Course (List UInt64)}
    (hnested : ∀ name args v, I v → (nested name args).Honours c g (fun _ v => I v) v)
    (script : Bridge.Script) (hw : I w) :
    (Course.perform b guest cancelled nested script).Honours c g (fun _ v => I v) w := by
  -- An outcome of any kind, after which `I` holds because it did before.
  have hthen {α : Type} {p : Course α} {f : Except Fault α → Course (List UInt64)} {w : World}
      (hw : I w) (hp : p.Honours c g (fun _ v => I v) w)
      (hf : ∀ x v, I v → (f x).Honours c g (fun _ v => I v) v) :
      (Course.attempt p >>= f).Honours c g (fun _ v => I v) w :=
    ((Course.honours_attempt hp).since hlasting).bind fun x v hv => hf x v (h.stable hv.1 hw)
  induction script generalizing w with
  | done x => exact h.outcome hw x
  | call name args next ih =>
    refine hthen hw ?_ fun x v hv => ih x hv
    exact h.unlessShut b (fun v hv => h.callExport hcall cancelled name args hv) hw
  | invoke name args next ih => exact hthen hw (hnested name args w hw) fun x v hv => ih x hv
  | global name next ih => exact (h.look _ hw).bind fun x v hv => ih x hv
  | memory next ih => exact (h.look _ hw).bind fun x v hv => ih x hv
  | close next ih =>
    refine hthen hw ((h.atom' (.lift (hshut b)) hw).bind fun closed v hv => ?_)
      fun x v hv => ih x hv
    split
    · exact h.value hv ()
    · exact h.atom' (guest_close_keeps h.indifferent guest) hv

theorem invokeWithin (bridge : Bridge) (depth : Nat) (name : String) (args : List UInt64)
    (hw : I w) :
    (Course.invokeWithin b guest cancelled bridge depth name args).Honours c g
      (fun _ v => I v) w := by
  have hexport (name : String) (args : List UInt64) (v : World) (hv : I v) :=
    h.callExport hcall cancelled name args hv
  induction depth generalizing name args w with
  | zero =>
    rw [Course.invokeWithin]
    refine h.unlessShut b (fun v hv => ?_) hw
    cases bridge.op? name with
    | none => exact hexport name args v hv
    | some op => exact Course.honours_fault _
  | succ depth ih =>
    rw [Course.invokeWithin]
    refine h.unlessShut b (fun v hv => ?_) hw
    cases bridge.op? name with
    | none => exact hexport name args v hv
    | some op =>
      exact h.perform hcall b cancelled hlasting hshut (fun name args v hv => ih name args hv)
        (op args) hv

/-- Whatever is done through a bridge to the guest. -/
theorem session (bridge : Bridge) (script : Bridge.Script) (hw : I w) :
    (Course.perform b guest cancelled
      (Course.invokeWithin b guest cancelled bridge Bridge.depthLimit) script).Honours c g
        (fun _ v => I v) w :=
  h.perform hcall b cancelled hlasting hshut
    (fun name args _ hv => h.invokeWithin hcall b cancelled hlasting hshut bridge _ name args hv)
    script hw

end

end Hosting

end GuestThreads.World
