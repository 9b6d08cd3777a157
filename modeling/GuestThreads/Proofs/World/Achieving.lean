import GuestThreads.Proofs.World.Hosting

/-!
# Processes that succeed

A process achieves something if it keeps to its contract and succeeds in the end, whatever the
others do in between. Guest code achieves what its instructions achieve one after the other.
-/

namespace GuestThreads.World

variable {α β γ : Type} {c : Contract γ} {g : γ} {w : World}

/-- Until the very end, what holds there holds however the others go on. -/
theorem Process.Honours.lasting {P : α → γ → World → Prop} {p : Process α}
    (h : p.Honours c P g w) :
    p.Honours c (fun a g v => ∀ v', c.rely.rel v v' → P a g v') g w := by
  induction p generalizing g w with
  | done a => exact fun v hv v' hv' => h v' (c.rely.trans hv hv')
  | piece event act next ih =>
    intro v hv
    obtain ⟨g', hstep, hnext⟩ := h v hv
    exact ⟨g', hstep, ih _ hnext⟩

/-- Every piece keeps to the contract, and the process succeeds as `P` says. -/
def Course.Achieves (c : Contract γ) (P : α → γ → World → Prop) (p : Course α) (g : γ) (w : World) :
    Prop :=
  Process.Honours c (fun r g' v => ∃ a, r = .ok a ∧ P a g' v) p g w

namespace Course

variable {P : α → γ → World → Prop} {Q : β → γ → World → Prop}

theorem Achieves.imp {P' : α → γ → World → Prop} {p : Course α} (h : p.Achieves c P g w)
    (hP : ∀ a g v, P a g v → P' a g v) : p.Achieves c P' g w := by
  refine Process.Honours.imp h ?_
  rintro _ g' v ⟨a, rfl, ha⟩
  exact ⟨a, rfl, hP a g' v ha⟩

theorem Achieves.bind {p : Course α} {f : α → Course β} (h : p.Achieves c P g w)
    (hf : ∀ a g v, P a g v → (f a).Achieves c Q g v) : (p >>= f).Achieves c Q g w := by
  refine Process.Honours.bind h ?_
  rintro _ g' v ⟨a, rfl, ha⟩
  exact hf a g' v ha

/-- What is there to handle a fault is not needed. -/
theorem Achieves.orElse {p : Course α} (h : p.Achieves c P g w) (f : Fault → Course α) :
    (tryCatch p f).Achieves c P g w := by
  refine Process.Honours.bind h.lasting ?_
  rintro r g' v hlasting
  obtain ⟨a, rfl, -⟩ := hlasting v (c.rely.refl v)
  exact fun v' hv' => hlasting v' hv'

theorem achieves_value {a : α} (h : ∀ v, c.rely.rel w v → P a g v) :
    (pure a : Course α).Achieves c P g w :=
  fun v hv => ⟨a, rfl, h v hv⟩

theorem achieves_atom {act : Try α}
    (h : ∀ v, c.rely.rel w v → ∃ a v' g', act v = (.ok a, v') ∧ c.step g none v g' v' ∧
      ∀ u, c.rely.rel v' u → P a g' u) : (atom act).Achieves c P g w := by
  intro v hv
  obtain ⟨a, v', g', hact, hstep, hend⟩ := h v hv
  change ∃ g', c.step g none v g' (act v).2 ∧
    Process.Honours c _ (Process.done (act v).1) g' (act v).2
  rw [hact]
  exact ⟨g', hstep, fun u hu => ⟨a, rfl, hend u hu⟩⟩

theorem achieves_ofProcess {p : Process α} (h : p.Honours c P g w) :
    (ofProcess p).Achieves c P g w :=
  h.ofProcess

theorem achieves_attempt {p : Course α} (h : p.Achieves c P g w) :
    (attempt p).Achieves c (fun r g v => ∃ a, r = .ok a ∧ P a g v) g w :=
  achieves_ofProcess h

/-! ## Guest code -/

variable [Wasm.Machine] {sink : Option Sink} {trap : Wasm.Trap → List Wasm.Call → Cause}
  {steps : Nat} {frames : List Wasm.Frame} {R : List UInt64 → γ → World → Prop}

theorem stepGuest_run {v : World} {next : Wasm.Next} (h : Wasm.step v.store frames = next) :
    stepGuest frames v = (next, stepped v next) := by
  rw [← h]
  rfl

/-- An instruction that leads on. -/
theorem achieves_running
    (h : ∀ v, c.rely.rel w v → ∃ store frames' g',
      Wasm.step v.store frames = .running store frames' ∧
      c.step g none v g' { v with store := store } ∧
      (runGuest sink trap steps frames').Achieves c R g' { v with store := store }) :
    (runGuest sink trap (steps + 1) frames).Achieves c R g w := by
  intro v hv
  obtain ⟨store, frames', g', hrun, hstep, hrest⟩ := h v hv
  refine ⟨g', ?_, ?_⟩ <;> rw [stepGuest_run hrun]
  · exact hstep
  · exact hrest

theorem achieves_finished {results : List UInt64}
    (h : ∀ v, c.rely.rel w v → Wasm.step v.store frames = .finished results ∧
      c.step g none v g v ∧ ∀ u, c.rely.rel v u → R results g u) :
    (runGuest sink trap (steps + 1) frames).Achieves c R g w := by
  intro v hv
  obtain ⟨hrun, hstep, hend⟩ := h v hv
  refine ⟨g, ?_, ?_⟩ <;> rw [stepGuest_run hrun]
  · exact hstep
  · exact fun u hu => ⟨results, rfl, hend u hu⟩

/-- Guest code asks the host to post a signal, and goes on once the host has done so. -/
theorem achieves_asked {args : List UInt64} {s : Signal} {S : γ → World → Prop}
    (frames' : List Wasm.Frame) (hs : Wasm.signalOf? args = some s)
    (h : ∀ v, c.rely.rel w v →
      (∃ function, Wasm.step v.store frames = .asked function args frames') ∧
      c.step g none v g v ∧ (Process.post sink s).Honours c (fun _ g v => S g v) g v)
    (hrest : ∀ g v, S g v →
      (runGuest sink trap steps (Wasm.handBack [] frames')).Achieves c R g v) :
    (runGuest sink trap (steps + 1) frames).Achieves c R g w := by
  rw [runGuest]
  have hask : (ofProcess (.atom (stepGuest frames))).Achieves c (fun next g' v =>
      (∃ function, next = .asked function args frames') ∧
        (Process.post sink s).Honours c (fun _ g v => S g v) g' v) g w := by
    refine achieves_ofProcess fun v hv => ?_
    obtain ⟨⟨function, hrun⟩, hstep, hpost⟩ := h v hv
    rw [stepGuest_run hrun]
    exact ⟨g, hstep, fun v' hv' => ⟨⟨function, rfl⟩, hpost.later hv'⟩⟩
  refine hask.bind ?_
  rintro _ g' v ⟨⟨function, rfl⟩, hpost⟩
  dsimp only
  rw [hs]
  exact (achieves_ofProcess hpost).bind fun _ g v hv => hrest g v hv

end Course

end GuestThreads.World
