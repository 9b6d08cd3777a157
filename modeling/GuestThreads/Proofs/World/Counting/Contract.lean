import GuestThreads.Proofs.World.Achieving
import GuestThreads.Proofs.World.Counting.Instances

/-!
# What threads of the counting guest owe each other

A thread may count on its worker, its entry and its TLS word being left alone by the others, and on
everything that is there to stay. In return it leaves alone all that belongs to others. The counter
belongs to everyone: a thread adds its closure to it once, in a step of its own, and afterwards
posts what the counter was before.
-/

namespace GuestThreads.World

variable {α : Type}

/-- A thread of a loaded module. -/
def thread? (w : World) (k i : Nat) : Option Thread := (w.modules[k]?).bind (·.threads[i]?)

/-! ## What is spared -/

/-- Two words do not overlap. -/
def Apart (a b : Nat) : Prop := a + 4 ≤ b ∨ b + 4 ≤ a

/-- What is there stays, and so do these workers, threads and words. -/
structure Spares (σ : Site) (workers threads words : Nat → Prop) (w w' : World) : Prop where
  sustains : Sustains w w'
  workers : ∀ j, workers j → ∀ e, w.workers[j]? = some e → w'.workers[j]? = some e
  threads : ∀ i, threads i → ∀ t, w.thread? σ.module i = some t → w'.thread? σ.module i = some t
  words : ∀ a, words a → ∀ v, w.store.word? σ.linear a = some v →
    w'.store.word? σ.linear a = some v

theorem Spares.mono {σ : Site} {workers threads words workers' threads' words' : Nat → Prop}
    {w w' : World} (h : Spares σ workers threads words w w')
    (hworkers : ∀ j, workers' j → workers j) (hthreads : ∀ i, threads' i → threads i)
    (hwords : ∀ a, words' a → words a) :
    Spares σ workers' threads' words' w w' where
  sustains := h.sustains
  workers j hj := h.workers j (hworkers j hj)
  threads i hi := h.threads i (hthreads i hi)
  words a ha := h.words a (hwords a ha)

theorem Spares.trans {σ : Site} {workers threads words : Nat → Prop} {u v w : World}
    (h : Spares σ workers threads words u v) (g : Spares σ workers threads words v w) :
    Spares σ workers threads words u w where
  sustains := h.sustains.trans g.sustains
  workers j hj e he := g.workers j hj e (h.workers j hj e he)
  threads i hi t ht := g.threads i hi t (h.threads i hi t ht)
  words a ha v hv := g.words a ha v (h.words a ha v hv)

/-- What thread `n` counts on. -/
def relies (σ : Site) (n : Nat) : Frame where
  rel := Spares σ (· = σ.worker n) (· = n) (· = σ.tls n)
  refl w := ⟨.refl w, fun _ _ _ => id, fun _ _ _ => id, fun _ _ _ => id⟩
  trans := .trans

/-- What thread `n` leaves alone. -/
structure Minds (σ : Site) (n : Nat) (w w' : World) : Prop where
  spares : Spares σ (· ≠ σ.worker n) (· ≠ n)
    (fun a => Apart a (σ.tls n) ∧ Apart a σ.cell.toNat) w w'
  untouched : (untouched σ.module).rel w w'
  workers : w'.workers.size = w.workers.size
  relays : w'.relays.size = w.relays.size

/-- What one thread leaves alone is what another one counts on. -/
theorem Minds.relies {σ : Site} {n m : Nat} {w w' : World} (h : Minds σ n w w') (hne : n ≠ m)
    (htls : Apart (σ.tls m) (σ.tls n)) (hcell : Apart (σ.tls m) σ.cell.toNat) :
    (relies σ m).rel w w' := by
  refine h.spares.mono ?_ ?_ ?_
  · rintro j rfl
    unfold Site.worker
    omega
  · rintro i rfl
    exact hne.symm
  · rintro a rfl
    exact ⟨htls, hcell⟩

/-! ## The contract -/

/-- How far a thread has come with its addition, and what the counter was before. -/
inductive Tally where
  | waiting
  | added (old : UInt32)
  | told (old : UInt32)

/-- A piece of a thread with this closure, by the counter before the piece and after it. -/
inductive Tallies (closure : UInt32) :
    Tally → Option Event → Option UInt32 → Tally → Option UInt32 → Prop
  | adds (old : UInt32) :
    Tallies closure .waiting none (some old) (.added old) (some (old + closure))
  | tells (old : UInt32) (counter : Option UInt32) :
    Tallies closure (.added old) (some (.signalled { hi := closure, lo := old })) counter
      (.told old) counter
  | stays {event : Option Event} (h : event.bind Event.signalled? = none) (tally : Tally)
    (counter : Option UInt32) : Tallies closure tally event counter tally counter

/-- What thread `n` may do. -/
def tallying (σ : Site) (n : Nat) (closure : UInt32) : Contract Tally where
  rely := relies σ n
  step tally event w tally' w' := Minds σ n w w' ∧
    Tallies closure tally event (σ.counter? w) tally' (σ.counter? w')

/-! ## What happens apart from memory -/

/-- Neither memories nor threads change, and of the workers only that of thread `n` does. -/
structure Calm (σ : Site) (n : Nat) (w w' : World) : Prop where
  relays : Persists wire w.relays w'.relays
  relayCount : w'.relays.size = w.relays.size
  outfits : Persists outfit w.workers w'.workers
  workerCount : w'.workers.size = w.workers.size
  others : ∀ j ≠ σ.worker n, w'.workers[j]? = w.workers[j]?
  instances : Persists id w.instances w'.instances
  engines : Persists fittings w.engines w'.engines
  memories : w'.memories = w.memories
  runtimes : w'.runtimes = w.runtimes
  modules : w'.modules.map core = w.modules.map core
  code : Persists Wasm.Instance.fixture w.store.instances w'.store.instances
  linears : w'.store.memories = w.store.memories

def calm (σ : Site) (n : Nat) : Frame where
  rel := Calm σ n
  refl _ := ⟨.refl _ _, rfl, .refl _ _, rfl, fun _ _ => rfl, .refl _ _, .refl _ _, rfl, rfl, rfl,
    .refl _ _, rfl⟩
  trans h g := {
    relays := h.relays.trans g.relays
    relayCount := g.relayCount.trans h.relayCount
    outfits := h.outfits.trans g.outfits
    workerCount := g.workerCount.trans h.workerCount
    others := fun j hj => (g.others j hj).trans (h.others j hj)
    instances := h.instances.trans g.instances
    engines := h.engines.trans g.engines
    memories := g.memories.trans h.memories
    runtimes := g.runtimes.trans h.runtimes
    modules := g.modules.trans h.modules
    code := h.code.trans g.code
    linears := g.linears.trans h.linears }

section

variable {σ : Site} {n : Nat} {w w' : World}

theorem thread?_core (w : World) (k i : Nat) :
    w.thread? k i = ((w.modules.map core)[k]?).bind (·.threads[i]?) := by
  rw [thread?, Array.getElem?_map]
  cases w.modules[k]? <;> rfl

theorem charter_core (w : World) : w.modules.map charter = (w.modules.map core).map charter := by
  rw [Array.map_map]
  rfl

theorem Calm.sustains (h : Calm σ n w w') : Sustains w w' where
  relays := h.relays
  outfits := h.outfits
  instances := h.instances
  engines := h.engines
  memories := h.memories ▸ .refl _ _
  runtimes := h.runtimes ▸ .refl _ _
  modules := fun i b hb => by
    rw [← Array.getElem?_map, charter_core] at hb ⊢
    rwa [h.modules]
  code := h.code
  extents := h.linears ▸ .refl _ _

theorem Calm.thread? (h : Calm σ n w w') (k i : Nat) : w'.thread? k i = w.thread? k i := by
  rw [thread?_core, thread?_core, h.modules]

theorem Calm.word? (h : Calm σ n w w') (linear a : Nat) :
    w'.store.word? linear a = w.store.word? linear a := by
  rw [Wasm.Store.word?, Wasm.Store.word?, h.linears]

theorem Calm.minds (h : Calm σ n w w') : Minds σ n w w' where
  spares := {
    sustains := h.sustains
    workers := fun j hj _ he => (h.others j hj).trans he
    threads := fun i _ _ ht => (h.thread? _ i).trans ht
    words := fun a _ _ hv => (h.word? _ a).trans hv }
  untouched := untouched_of_core h.modules h.runtimes σ.module
  workers := h.workerCount
  relays := h.relayCount

theorem Calm.step (h : Calm σ n w w') {event : Option Event}
    (hevent : event.bind Event.signalled? = none) (closure : UInt32) (tally : Tally) :
    (tallying σ n closure).step tally event w tally w' := by
  refine ⟨h.minds, ?_⟩
  have hcounter : σ.counter? w' = σ.counter? w := h.word? _ _
  rw [hcounter]
  exact .stays hevent tally _

theorem calm_observed (σ : Site) (n : Nat) : (calm σ n).Observed (σ.worker n) where
  logs w _ := { (calm σ n).refl w with }
  spans w _ := { (calm σ n).refl w with }
  started w _ := { (calm σ n).refl w with
    outfits := .modify fun _ => rfl
    workerCount := Array.size_modify ..
    others := fun _ hj => getElem?_modify_ne hj.symm }
  advanced w _ := { (calm σ n).refl w with
    outfits := .modify fun _ => rfl
    workerCount := Array.size_modify ..
    others := fun _ hj => getElem?_modify_ne hj.symm }

theorem setWorker_calm (σ : Site) (n : Nat) {f : WorkerEntry → WorkerEntry}
    (hf : ∀ e, outfit (f e) = outfit e) : Keeps (calm σ n) (setWorker (σ.worker n) f) :=
  .change fun w => { (calm σ n).refl w with
    outfits := .modify hf
    workerCount := Array.size_modify ..
    others := fun _ hj => getElem?_modify_ne hj.symm }

theorem onStream_calm (σ : Site) (n : Nat) (w : World) (k : Nat)
    (f : Mailbox ThreadSignal → Mailbox ThreadSignal) : Calm σ n w (w.onStream k f) :=
  { (calm σ n).refl w with
    modules := map_modify fun loaded =>
      (rfl : core { loaded with stream := f loaded.stream } = core loaded) }

theorem counted_calm (σ : Site) (n : Nat) (w : World) (r : Nat) : Calm σ n w (w.counted r) :=
  { (calm σ n).refl w with
    relays := .modify fun _ => rfl
    relayCount := Array.size_modify .. }

/-! ## What happens to memory and to the entry of a thread -/

/-- Something is stored in the TLS word of the thread, or in the counter. -/
theorem setWord_minds {a : Nat} (ha : a = σ.tls n ∨ a = σ.cell.toNat) (v : UInt32) (w : World) :
    Minds σ n w { w with store := w.store.setWord σ.linear a v } where
  spares := {
    sustains := { Sustains.refl w with
      extents := .modify fun _ => by simp [extent] }
    workers := fun _ _ _ => id
    threads := fun _ _ _ => id
    words := fun b hb v' hv' => by
      rw [Wasm.Store.word?_setWord_beside (.inr ?_), hv']
      rcases ha with rfl | rfl
      · exact hb.1
      · exact hb.2 }
  untouched := (untouched σ.module).refl w
  workers := rfl
  relays := rfl

theorem note_step (hcell : Apart σ.cell.toNat (σ.tls n)) (v closure : UInt32)
    (tally : Tally) (w : World) :
    (tallying σ n closure).step tally none w tally
      { w with store := w.store.setWord σ.linear (σ.tls n) v } := by
  refine ⟨setWord_minds (.inl rfl) v w, ?_⟩
  have hcounter : σ.counter? { w with store := w.store.setWord σ.linear (σ.tls n) v } =
      σ.counter? w := Wasm.Store.word?_setWord_beside (.inr hcell) v
  rw [hcounter]
  exact .stays rfl tally _

theorem add_step {old : UInt32} (h : σ.counter? w = some old) (n : Nat) (closure : UInt32) :
    (tallying σ n closure).step .waiting none w (.added old)
      { w with store := w.store.setWord σ.linear σ.cell.toNat (old + closure) } := by
  refine ⟨setWord_minds (.inr rfl) _ w, ?_⟩
  have hcounter : σ.counter? { w with
      store := w.store.setWord σ.linear σ.cell.toNat (old + closure) } = some (old + closure) :=
    Wasm.Store.word?_setWord_self h _
  rw [h, hcounter]
  exact .adds old

theorem thread?_finish (w : World) (k n i b : Nat) :
    (finishThread k n (.ok b) w).2.thread? k i =
      if i = n then (w.thread? k n).map (·.finish (.ok b)) else w.thread? k i := by
  change ((w.modules.modify k _)[k]?).bind _ = _
  rw [Array.getElem?_modify, if_pos rfl, thread?, thread?]
  cases w.modules[k]? with
  | none => simp
  | some m =>
    simp only [Option.map_some, Option.bind_some, List.getElem?_modify]
    grind

/-- A thread that ends well changes its own entry only. -/
theorem finishThread_step (b : Nat) (closure : UInt32) (tally : Tally) (w : World) :
    (tallying σ n closure).step tally none w tally (finishThread σ.module n (.ok b) w).2 := by
  have hminds : Minds σ n w (finishThread σ.module n (.ok b) w).2 := {
    spares := {
      sustains := { Sustains.refl w with
        modules := .modify fun m => by simp [charter] }
      workers := fun _ _ _ => id
      threads := fun i hi t ht => by rwa [thread?_finish, if_neg hi]
      words := fun _ _ _ => id }
    untouched := finishThread_untouched σ.module σ.module n (.ok b) w
    workers := rfl
    relays := rfl }
  exact ⟨hminds, .stays rfl tally _⟩

end

end GuestThreads.World
