import GuestThreads.Proofs.Wasm.Evolution
import GuestThreads.Proofs.Worker.BringUp
import GuestThreads.Proofs.World.Frame

/-!
# Processes

Parties take turns on one world. What a party does is cut into pieces, each of which runs without
interruption, and what follows a piece depends on what the piece found. A process keeps to a
contract if every one of its pieces does, whatever the others do in between within what the
contract relies on.

An operation that runs to its end at once is one way to schedule the pieces of a process: no one
else has a turn, but for the pumps of the streams.
-/

namespace GuestThreads.World

variable {α β γ : Type}

/-- What is noted about a piece besides what it does to the world. -/
inductive Event where
  /-- A message has reached a worker. -/
  | delivered
  /-- A worker turns to the guest it drives. -/
  | asked (e : Worker.Effect Guest)
  /-- Guest code calls the function that posts a signal. -/
  | signalled (s : Signal)
  /-- A signal is left in an outbox. -/
  | posted (s : Signal)

/-- What a party does, piece by piece. -/
inductive Process (α : Type) : Type 1 where
  | done (a : α)
  | piece {δ : Type} (event : Option Event) (act : Act δ) (next : δ → Process α)

namespace Process

protected def bind : Process α → (α → Process β) → Process β
  | done a, f => f a
  | piece event act next, f => piece event act fun b => (next b).bind f

instance : Monad Process where
  pure := done
  bind := Process.bind

/-- An action as a single piece. -/
def atom (act : Act α) : Process α := piece none act done

/-- Note an event and go on. -/
def note (event : Event) (p : Process α) : Process α := piece (some event) (pure ()) fun _ => p

/-- The next piece is run: what is noted about it, what is left to do, and the world after it. -/
def turn (p : Process α) (w : World) : Option (Option Event × Process α × World) :=
  match p with
  | done _ => none
  | piece event act next => some (event, next (act w).1, (act w).2)

end Process

/-- A process that may fail. -/
abbrev Course := ExceptT Fault Process

/-- An action that may fail as a single piece. -/
def Course.atom (act : Try α) : Course α := Process.atom act.run

/-! ## Contracts -/

/-- What a party relies on between its pieces, and what it owes in each piece, by an account of
type `γ` that is kept of it. -/
structure Contract (γ : Type) where
  rely : Frame
  step : γ → Option Event → World → γ → World → Prop

/-- From this account and world on, every piece keeps to the contract, and the end is as `Q`
says. -/
def Process.Honours (c : Contract γ) (Q : α → γ → World → Prop) :
    Process α → γ → World → Prop
  | .done a, g, w => ∀ w', c.rely.rel w w' → Q a g w'
  | .piece event act next, g, w => ∀ w', c.rely.rel w w' →
      ∃ g', c.step g event w' g' (act w').2 ∧ (next (act w').1).Honours c Q g' (act w').2

namespace Process

variable {c : Contract γ} {P : α → γ → World → Prop} {g : γ} {w w' : World}

theorem Honours.later {p : Process α} (h : p.Honours c P g w) (hw : c.rely.rel w w') :
    p.Honours c P g w' := by
  cases p with
  | done a => exact fun v hv => h v (c.rely.trans hw hv)
  | piece event act next => exact fun v hv => h v (c.rely.trans hw hv)

theorem Honours.turn {p p' : Process α} {event : Option Event} (h : p.Honours c P g w)
    (hp : p.turn w = some (event, p', w')) :
    ∃ g', c.step g event w g' w' ∧ p'.Honours c P g' w' := by
  cases p with
  | done a => cases hp
  | piece event act next =>
    cases hp
    exact h w (c.rely.refl w)

theorem Honours.bind {Q : β → γ → World → Prop} {p : Process α} {f : α → Process β}
    (h : p.Honours c P g w) (hf : ∀ a g w, P a g w → (f a).Honours c Q g w) :
    (p >>= f).Honours c Q g w := by
  induction p generalizing g w with
  | done a => exact hf a g w (h w (c.rely.refl w))
  | piece event act next ih =>
    intro v hv
    obtain ⟨g', hstep, hnext⟩ := h v hv
    exact ⟨g', hstep, ih _ hnext⟩

theorem Honours.imp {Q : α → γ → World → Prop} {p : Process α} (h : p.Honours c P g w)
    (hQ : ∀ a g w, P a g w → Q a g w) : p.Honours c Q g w := by
  induction p generalizing g w with
  | done a => exact fun v hv => hQ a g v (h v hv)
  | piece event act next ih =>
    intro v hv
    obtain ⟨g', hstep, hnext⟩ := h v hv
    exact ⟨g', hstep, ih _ hnext⟩

/-- What is relied on lasts until the end, if the contract allows for nothing else either. -/
theorem Honours.since {p : Process α} (h : p.Honours c P g w)
    (hc : ∀ {g e v g' v'}, c.step g e v g' v' → c.rely.rel v v') :
    p.Honours c (fun a g v => P a g v ∧ c.rely.rel w v) g w := by
  induction p generalizing g w with
  | done a => exact fun v hv => ⟨h v hv, hv⟩
  | piece event act next ih =>
    intro v hv
    obtain ⟨g', hstep, hnext⟩ := h v hv
    exact ⟨g', hstep, (ih _ hnext).imp fun _ _ _ hend =>
      ⟨hend.1, c.rely.trans hv (c.rely.trans (hc hstep) hend.2)⟩⟩

/-- A contract that relies on less and owes more. -/
theorem Honours.weaken {c' : Contract γ} {p : Process α} (h : p.Honours c P g w)
    (hrely : ∀ {v v'}, c'.rely.rel v v' → c.rely.rel v v')
    (hstep : ∀ {g e v g' v'}, c.step g e v g' v' → c'.step g e v g' v') : p.Honours c' P g w := by
  induction p generalizing g w with
  | done a => exact fun v hv => h v (hrely hv)
  | piece event act next ih =>
    intro v hv
    obtain ⟨g', hg', hnext⟩ := h v (hrely hv)
    exact ⟨g', hstep hg', ih _ hnext⟩

end Process

/-- Every piece keeps to the contract, the account is the same at the end, and a success is as `R`
says. -/
def Course.Honours (c : Contract γ) (g : γ) (R : α → World → Prop) (p : Course α) (w : World) :
    Prop :=
  Process.Honours c (fun r g' v => g' = g ∧ ∀ a, r = .ok a → R a v) p g w

namespace Course

variable {c : Contract γ} {g : γ} {R : α → World → Prop} {S : β → World → Prop} {w : World}

theorem Honours.bind {p : Course α} {f : α → Course β} (h : p.Honours c g R w)
    (hf : ∀ a v, R a v → (f a).Honours c g S v) : (p >>= f).Honours c g S w := by
  refine Process.Honours.bind h ?_
  rintro (e | a) g' v ⟨rfl, hr⟩
  · exact fun _ _ => ⟨rfl, nofun⟩
  · exact hf a v (hr a rfl)

theorem Honours.orElse {p : Course α} {f : Fault → Course α} (h : p.Honours c g R w)
    (hR : ∀ a v v', c.rely.rel v v' → R a v → R a v')
    (hf : ∀ e v, (f e).Honours c g R v) : (tryCatch p f).Honours c g R w := by
  refine Process.Honours.bind h ?_
  rintro (e | a) g' v ⟨rfl, hr⟩
  · exact hf e v
  · exact fun v' hv' => ⟨rfl, fun _ ha => by cases ha; exact hR a v v' hv' (hr a rfl)⟩

theorem honours_value {a : α} (h : ∀ v, c.rely.rel w v → R a v) :
    (pure a : Course α).Honours c g R w :=
  fun v hv => ⟨rfl, fun _ ha => by cases ha; exact h v hv⟩

theorem honours_fault (f : Fault) : (throw f : Course α).Honours c g R w :=
  fun _ _ => ⟨rfl, nofun⟩

theorem Honours.imp {R' : α → World → Prop} {p : Course α} (h : p.Honours c g R w)
    (hR : ∀ a v, R a v → R' a v) : p.Honours c g R' w :=
  Process.Honours.imp h fun _ _ v hr => ⟨hr.1, fun a ha => hR a v (hr.2 a ha)⟩

theorem Honours.since {p : Course α} (h : p.Honours c g R w)
    (hc : ∀ {g e v g' v'}, c.step g e v g' v' → c.rely.rel v v') :
    p.Honours c g (fun a v => c.rely.rel w v ∧ R a v) w :=
  (Process.Honours.since h hc).imp fun _ _ _ hend => ⟨hend.1.1, fun a ha => ⟨hend.2, hend.1.2 a ha⟩⟩

end Course

/-! ## Posting -/

/-- Something happens to the stream of a loaded module. -/
def onStream (w : World) (m : Nat) (f : Mailbox ThreadSignal → Mailbox ThreadSignal) : World :=
  { w with modules := w.modules.modify m fun loaded => { loaded with stream := f loaded.stream } }

/-- The relay of a sink counts a signal. What is to be passed on is returned, with the outbox that
it goes to. -/
def tally (sink : Option Sink) (s : Signal) : Act (Option (Outbox × Signal)) := do
  match sink with
  | some (.relay k) =>
    match (← get).relays[k]? with
    | none => return none
    | some (relay, outbox) =>
      let (relay', out) := relay.post s
      modify fun w => { w with relays := w.relays.setIfInBounds k (relay', outbox) }
      return out.head?.map fun s => (outbox, s)
  | sink =>
    postSignal sink s
    return none

/-- Leave a signal in an outbox. A module whose stream accepts it is named, for its bell to be
rung. -/
def leave (outbox : Outbox) (s : Signal) : Act (Option Nat) :=
  match outbox with
  | .stream m t => modifyGet fun w =>
    ((w.modules[m]?).bind fun loaded => if loaded.stream.closed then none else some m,
      w.onStream m (·.enqueue { thread := t, signal := s }))
  | outbox => do
    deliver outbox s
    return none

/-- Ring the bell of a module's stream. -/
def ring (m : Nat) : Act Unit := modify (·.onStream m .notify)

/-- Ring the bell of a module, if any is named. -/
def Process.rung : Option Nat → Process Unit
  | some m => atom (ring m)
  | none => done ()

/-- Leave a signal in an outbox and ring. -/
def Process.left (outbox : Outbox) (s : Signal) : Process Unit :=
  .piece (some (.posted s)) (leave outbox s) rung

/-- Pass a signal on, if there is anything to pass on. -/
def Process.passOn : Option (Outbox × Signal) → Process Unit
  | some (outbox, s) => left outbox s
  | none => done ()

/-- Guest code posts a signal. -/
def Process.post (sink : Option Sink) (s : Signal) : Process Unit :=
  .piece (some (.signalled s)) (tally sink s) passOn

/-! ## Running alone -/

/-- The pump of a module's stream makes a step, if it can. -/
def pumped (w : World) (m : Nat) : World := w.onStream m fun box => box.advance.getD box

/-- Left alone with the pumps, a process comes to its end. -/
inductive Runs : Process α → World → α → World → Prop
  | done (a : α) (w : World) : Runs (.done a) w a w
  | piece {δ : Type} {event : Option Event} {act : Act δ} {next : δ → Process α} {a : α}
      {w w' : World} (h : Runs (next (act w).1) (act w).2 a w') :
      Runs (.piece event act next) w a w'
  | pump (m : Nat) {p : Process α} {a : α} {w w' : World} (h : Runs p (w.pumped m) a w') :
      Runs p w a w'

theorem Runs.bind {p : Process α} {f : α → Process β} {w w₁ w₂ : World} {a : α} {b : β}
    (h : Runs p w a w₁) (hf : Runs (f a) w₁ b w₂) : Runs (p >>= f) w b w₂ := by
  induction h with
  | done a w => exact hf
  | piece _ ih => exact .piece (ih hf)
  | pump m _ ih => exact .pump m (ih hf)

theorem runs_atom (act : Act α) (w : World) : Runs (.atom act) w (act w).1 (act w).2 :=
  .piece (.done _ _)

theorem modify_modify {xs : Array α} (k : Nat) (f g : α → α) :
    (xs.modify k f).modify k g = xs.modify k fun a => g (f a) := by
  apply Array.ext
  · simp
  · intro i hi _
    simp only [Array.getElem_modify]
    split <;> rfl

theorem getElem?_modify_self {xs : Array α} {k : Nat} {a : α} {f : α → α} (h : xs[k]? = some a) :
    (xs.modify k f)[k]? = some (f a) := by
  rw [Array.getElem?_modify, if_pos rfl, h]
  rfl

theorem getElem?_modify_ne {xs : Array α} {i k : Nat} {f : α → α} (h : k ≠ i) :
    (xs.modify k f)[i]? = xs[i]? := by
  rw [Array.getElem?_modify, if_neg h]

theorem getElem?_concat_eq_some {α : Type _} {l : List α} {a b : α} {j : Nat}
    (h : (l ++ [a])[j]? = some b) : l[j]? = some b ∨ j = l.length ∧ b = a := by
  rw [List.getElem?_append, List.getElem?_singleton] at h
  split at h
  · exact .inl h
  · split at h <;> cases h
    exact .inr ⟨by omega, rfl⟩

/-- An entry is changed in two ways that come to the same. -/
theorem modify_congr {xs : Array α} {k : Nat} {f g : α → α}
    (h : ∀ a, xs[k]? = some a → f a = g a) : xs.modify k f = xs.modify k g := by
  apply Array.ext
  · simp
  · intro i hi hi'
    simp only [Array.getElem_modify]
    split
    · rename_i hik
      subst hik
      exact h _ (Array.getElem?_eq_getElem _)
    · rfl

theorem onStream_onStream (w : World) (m : Nat)
    (f g : Mailbox ThreadSignal → Mailbox ThreadSignal) :
    (w.onStream m f).onStream m g = w.onStream m fun box => g (f box) := by
  simp [onStream, modify_modify]

theorem onStream_congr {w : World} {m : Nat} {f g : Mailbox ThreadSignal → Mailbox ThreadSignal}
    (h : ∀ loaded, w.modules[m]? = some loaded → f loaded.stream = g loaded.stream) :
    w.onStream m f = w.onStream m g := by
  simp only [onStream, modify_congr fun loaded hloaded =>
    congrArg (fun box => { loaded with stream := box }) (h loaded hloaded)]

theorem onStream_self (w : World) (m : Nat) : w.onStream m id = w := by
  simp only [onStream, Wasm.modify_eq_self fun (loaded : LoadedModule) _ => (rfl : { loaded with
    stream := id loaded.stream } = loaded)]

theorem run_advance (m : Mailbox α) (steps : Nat) :
    m.run (steps + 1) = (m.advance.getD m).run steps := by
  rw [Mailbox.run]
  cases h : m.advance with
  | some m' => rfl
  | none =>
    cases steps with
    | zero => rfl
    | succ steps => simp [Mailbox.run, h]

/-- The pump runs for a while, and then the process goes on. -/
theorem Runs.settle {p : Process α} {a : α} {w w' : World} (m steps : Nat)
    (h : Runs p (w.onStream m (·.run steps)) a w') : Runs p w a w' := by
  induction steps generalizing w with
  | zero =>
    have hself : w.onStream m (·.run 0) = w := onStream_self w m
    rwa [hself] at h
  | succ steps ih =>
    refine .pump m (ih ?_)
    simp only [pumped, onStream_onStream, ← run_advance]
    exact h

theorem look_run (f : World → Act α) (w : World) : (get >>= f) w = f w w := rfl

theorem tally_none {w : World} {r : Nat} (h : w.relays[r]? = none) (s : Signal) :
    tally (some (.relay r)) s w = (none, w) := by
  refine (look_run _ w).trans ?_
  rw [h]
  rfl

theorem tally_some {w : World} {r : Nat} {relay : Relay} {outbox : Outbox}
    (h : w.relays[r]? = some (relay, outbox)) (s : Signal) :
    tally (some (.relay r)) s w = (if relay.hasOutbox then some (outbox, s) else none, { w with
      relays := w.relays.setIfInBounds r ({ relay with count := relay.count + 1 }, outbox) }) := by
  refine (look_run _ w).trans ?_
  rw [h]
  cases hbox : relay.hasOutbox <;> simp [Relay.post, hbox] <;> rfl

theorem relaySignal_none {w : World} {r : Nat} (h : w.relays[r]? = none) (s : Signal) :
    relaySignal r s w = ((), w) := by
  refine (look_run _ w).trans ?_
  rw [h]
  rfl

theorem relaySignal_some {w : World} {r : Nat} {relay : Relay} {outbox : Outbox}
    (h : w.relays[r]? = some (relay, outbox)) (s : Signal) :
    relaySignal r s w = (if relay.hasOutbox then deliver outbox s else pure ()) { w with
      relays := w.relays.setIfInBounds r ({ relay with count := relay.count + 1 }, outbox) } := by
  refine (look_run _ w).trans ?_
  rw [h]
  cases hbox : relay.hasOutbox <;> simp [Relay.post, hbox] <;> rfl

/-- A signal that is left in an outbox, with the pump running afterwards, is delivered. -/
theorem runs_left (outbox : Outbox) (s : Signal) (w : World) :
    Runs (.left outbox s) w () (deliver outbox s w).2 := by
  refine .piece ?_
  match outbox with
  | .none | .inbox b => exact .done _ _
  | .stream m t =>
    let v : ThreadSignal := { thread := t, signal := s }
    change Runs (Process.rung ((w.modules[m]?).bind fun loaded =>
      if loaded.stream.closed then none else some m)) (w.onStream m (·.enqueue v)) ()
      (w.onStream m (·.post v))
    cases hm : (w.modules[m]?).bind fun loaded => if loaded.stream.closed then none else some m with
    | none =>
      have hsame : w.onStream m (·.enqueue v) = w.onStream m (·.post v) := by
        refine onStream_congr fun loaded hloaded => ?_
        have hclosed : loaded.stream.closed = true := by simpa [hloaded] using hm
        simp [Mailbox.post, Mailbox.enqueue, hclosed]
      rw [hsame]
      exact .done _ _
    | some m' =>
      obtain ⟨loaded, hloaded, hopen⟩ := Option.bind_eq_some_iff.1 hm
      split at hopen <;> cases hopen
      have hsame : w.onStream m (·.post v) =
          (ring m (w.onStream m (·.enqueue v))).2.onStream m (·.run 6) := by
        change _ = ((w.onStream m (·.enqueue v)).onStream m .notify).onStream m (·.run 6)
        rw [onStream_onStream, onStream_onStream]
        refine onStream_congr fun loaded' hloaded' => ?_
        cases hloaded.symm.trans hloaded'
        exact if_neg ‹_›
      rw [hsame]
      exact .piece (.settle m 6 (.done _ _))

/-- Posting piece by piece, with the pump running afterwards, is posting at once. -/
theorem runs_post (sink : Option Sink) (s : Signal) (w : World) :
    Runs (.post sink s) w () (postSignal sink s w).2 := by
  refine .piece ?_
  match sink with
  | none | some (.inbox b) => exact .done _ _
  | some (.relay r) =>
    rw [postSignal]
    cases hr : w.relays[r]? with
    | none =>
      rw [tally_none hr, relaySignal_none hr]
      exact .done _ _
    | some entry =>
      obtain ⟨relay, outbox⟩ := entry
      rw [tally_some hr, relaySignal_some hr]
      cases relay.hasOutbox with
      | false => exact .done _ _
      | true => exact runs_left outbox s _

/-- A process that may fail does what the action does, if it is left alone. -/
def Performs (p : Course α) (act : Try α) : Prop := ∀ w, Runs p w (act w).1 (act w).2

namespace Performs

theorem atom (act : Try α) : Performs (.atom act) act := fun w => runs_atom act.run w

theorem value (a : α) : Performs (pure a) (pure a) := fun w => .done _ w

theorem fault (f : Fault) : Performs (throw f : Course α) (throw f) := fun w => .done _ w

theorem bind {p : Course α} {x : Try α} {f : α → Course β} {g : α → Try β} (hp : Performs p x)
    (hf : ∀ a, Performs (f a) (g a)) : Performs (p >>= f) (x >>= g) := by
  intro w
  have hw := hp w
  rw [bind_run]
  rcases hx : x w with ⟨e | a, w'⟩ <;> rw [hx] at hw
  · exact hw.bind (.done _ _)
  · exact hw.bind (hf a w')

theorem orElse {p : Course α} {x : Try α} {f : Fault → Course α} {g : Fault → Try α}
    (hp : Performs p x) (hf : ∀ e, Performs (f e) (g e)) :
    Performs (tryCatch p f) (tryCatch x g) := by
  intro w
  have hw := hp w
  rw [tryCatch_run]
  rcases hx : x w with ⟨e | a, w'⟩ <;> rw [hx] at hw
  · exact hw.bind (hf e w')
  · exact hw.bind (.done _ _)

end Performs

end GuestThreads.World
