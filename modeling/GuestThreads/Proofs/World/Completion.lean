import GuestThreads.Proofs.World.Tenure
import GuestThreads.Proofs.World.Traffic

/-!
# How threads come out

The threads of a module run in turns, with whatever else goes on. Each of them is done once, with a
bridge or with a fault, and stays as it is then. The module reports the fault that was the first to
be returned to it, which need not be that of the thread that was done first.
-/

namespace GuestThreads.World

open Worker (Progress State)

/-- The threads of a module at work. -/
structure Crew where
  world : World
  /-- What is left of the runs of the threads, in the order of the threads. -/
  runs : List (Process (Except Fault Nat)) := []
  /-- The threads whose runs have returned, in the order in which they did. -/
  returned : List Nat := []

namespace Crew

inductive Turn : Type 1 where
  /-- A thread is spawned, with a worker that drives its guest in the given way. -/
  | spawn (c : WorkerEntry → Conduct) (closurePtr : UInt32) (ops : List (String × Bridge.Op))
      (heard : Bool)
  /-- The run of a thread goes on by a piece. -/
  | go (i : Nat)
  /-- Something else happens. -/
  | other (f : World → World)

/-- No one but the runs touches the threads of module `k`. -/
def Turn.Aloof (k : Nat) : Turn → Prop
  | .spawn c .. => ∀ entry, (c entry).Aloof k
  | .go _ => True
  | .other f => ∀ w, World.Aloof k w (f w)

/-- A thread was spawned or refused. -/
def spawned (k : Nat) (s : Crew) (c : WorkerEntry → Conduct) (closurePtr : UInt32) (heard : Bool) :
    Except Fault Thread × World → Crew
  | (.ok t, w) => { s with
      world := w
      runs := s.runs ++ [(Course.threadRun c k t closurePtr heard).run] }
  | (.error _, w) => { s with world := w }

/-- The run of thread `i` has gone on by a piece. With its last piece it has returned. -/
def gone (s : Crew) (i : Nat) (rest : Process (Except Fault Nat)) (w : World) : Crew where
  world := w
  runs := s.runs.set i rest
  returned := if rest.ended then s.returned ++ [i] else s.returned

/-- The threads of module `k` after a turn, if it can be taken. -/
def step (k : Nat) (s : Crew) : Turn → Option Crew
  | .spawn c closurePtr ops heard =>
    some (s.spawned k c closurePtr heard (newThread k ops s.world))
  | .go i => do
    let p ← s.runs[i]?
    let (_, rest, w) ← p.turn s.world
    return s.gone i rest w
  | .other f => some { s with world := f s.world }

def run (k : Nat) : Crew → List Turn → Option Crew
  | s, [] => some s
  | s, turn :: turns => (s.step k turn).bind fun s' => run k s' turns

/-- Whether the worker hears its message, for the thread that is entered in a turn. -/
def hears (k : Nat) (s : Crew) : Turn → List Bool
  | .spawn _ _ ops heard => if (newThread k ops s.world).1.toBool then [heard] else []
  | .go _ => []
  | .other _ => []

/-- Whether their workers hear their messages, for the threads that are entered in these turns. -/
def hearing (k : Nat) : Crew → List Turn → List Bool
  | _, [] => []
  | s, turn :: turns => s.hears k turn ++ (s.step k turn).elim [] fun s' => hearing k s' turns

theorem step_go {k i : Nat} {s s' : Crew} (h : s.step k (.go i) = some s') :
    ∃ p event rest w, s.runs[i]? = some p ∧ p.turn s.world = some (event, rest, w) ∧
      s' = s.gone i rest w := by
  obtain ⟨p, hp, h₁⟩ := Option.bind_eq_some_iff.1 h
  obtain ⟨⟨event, rest, w⟩, hturn, h₂⟩ := Option.bind_eq_some_iff.1 h₁
  cases h₂
  exact ⟨p, event, rest, w, hp, hturn, rfl⟩

/-! ## What holds at any time -/

/-- The thread is done, and shows this outcome. -/
structure EndedAs (t : Thread) (r : Except Fault Nat) : Prop where
  done : t.done = true
  bridge : t.bridge = r.toOption
  error : t.error = faultOf r

/-- What a thread shows of how far its run has come. -/
def Shows (t : Thread) : Tenure → Prop
  | .underway => t.done = false ∧ t.bridge = none ∧ t.error = none
  | .ended r => EndedAs t r
  | .returned => ∃ r, EndedAs t r

theorem finish_endedAs {t : Thread} (h : t.done = false) (hbridge : t.bridge = none)
    (herror : t.error = none) (r : Except Fault Nat) : EndedAs (t.finish r) r := by
  have hfinish : t.finish r =
      { t with done := true, bridge := r.toOption, error := faultOf r } := by
    obtain ⟨id, region, worker, done, bridge, error⟩ := t
    cases h
    cases hbridge
    cases herror
    cases r <;> rfl
  rw [hfinish]
  exact ⟨rfl, rfl, rfl⟩

theorem EndedAs.eq {t : Thread} {r r' : Except Fault Nat} (h : EndedAs t r) (h' : EndedAs t r') :
    r = r' := by
  have hbridge := h.bridge.symm.trans h'.bridge
  have herror := h.error.symm.trans h'.error
  cases r <;> cases r' <;> simp_all [faultOf, Except.toOption]

theorem finish_worker (t : Thread) (r : Except Fault Nat) : (t.finish r).worker = t.worker := by
  unfold Thread.finish
  split
  · rfl
  · cases r <;> rfl

/-- The fault of thread `i`, if it has one. -/
def errorAt (threads : List Thread) (i : Nat) : Option Fault := threads[i]?.bind (·.error)

/-- Thread `i` is `t`, and its run has come as far as `phase`. -/
structure Member (k : Nat) (s : Crew) (i : Nat) (t : Thread) (heard : Bool) (phase : Tenure) :
    Prop where
  worker : ∃ e, s.world.workers[t.worker]? = some e
  run : ∃ p, s.runs[i]? = some p ∧
    p.Honours (tenure k i t.worker heard) (fun _ phase _ => phase = .returned) phase s.world
  shows : Shows t phase
  verdict : ∀ r, EndedAs t r → ∃ p, progress? t.worker s.world = some p ∧ Verdict heard r p
  returned : i ∈ s.returned ↔ phase = .returned

/-- Each thread has a run and a worker of its own, and the module has kept the first fault of those
that were returned. -/
structure Sound (k : Nat) (l : Ledger) (heard : List Bool) (s : Crew) : Prop where
  ledger : s.world.ledger? k = some l
  runs : s.runs.length = l.threads.length
  flags : heard.length = l.threads.length
  member : ∀ i t, l.threads[i]? = some t → ∃ b phase, heard[i]? = some b ∧ Member k s i t b phase
  apart : ∀ (i i' : Nat) (t t' : Thread), l.threads[i]? = some t → l.threads[i']? = some t' →
    t.worker = t'.worker → i = i'
  bound : ∀ i ∈ s.returned, i < l.threads.length
  nodup : s.returned.Nodup
  first : l.firstError = s.returned.findSome? (errorAt l.threads)

section

variable {k i : Nat} {l l' : Ledger} {heard : List Bool} {s : Crew} {t : Thread} {b : Bool}
  {phase : Tenure} {w : World}

/-- The run of a thread is at its end when it has returned, and only then. -/
theorem ended_iff {j : Nat} {p : Process (Except Fault Nat)}
    (h : p.Honours (tenure k i j b) (fun _ phase _ => phase = .returned) phase w) :
    p.ended = true ↔ phase = .returned := by
  cases p with
  | done a => exact ⟨fun _ => h w ((tenure k i j b).rely.refl w), fun _ => rfl⟩
  | piece event act next =>
    constructor
    · intro hended
      cases hended
    · rintro rfl
      -- There is no piece that a run may go on with once it has returned.
      obtain ⟨_, hstep, -⟩ := h w ((tenure k i j b).rely.refl w)
      cases hstep

/-- Others go on, and the thread and its worker stay as they are. -/
theorem Member.later (h : Member k s i t b phase) (hledger : w.ledger? k = some l')
    (ht : l'.threads[i]? = some t) (hworker : w.workers[t.worker]? = s.world.workers[t.worker]?)
    {s' : Crew} (hw : s'.world = w) (hruns : s'.runs[i]? = s.runs[i]?)
    (hreturned : i ∈ s'.returned ↔ i ∈ s.returned) : Member k s' i t b phase := by
  subst hw
  obtain ⟨e, he⟩ := h.worker
  obtain ⟨p, hp, hhonours⟩ := h.run
  refine ⟨⟨e, hworker.trans he⟩, ⟨p, hruns.trans hp, hhonours.later fun _ => ?_⟩, h.shows,
    fun r hr => ?_, hreturned.trans h.returned⟩
  · exact ⟨⟨⟨l', t, hledger, ht, rfl⟩, e, hworker.trans he⟩, hworker⟩
  · rw [progress?, hworker]
    exact h.verdict r hr

/-! ## Going on -/

theorem findSome?_congr {α β : Type} {f g : α → Option β} {xs : List α} (h : ∀ x ∈ xs, f x = g x) :
    xs.findSome? f = xs.findSome? g := by
  induction xs with
  | nil => rfl
  | cons x xs ih =>
    rw [List.findSome?_cons, List.findSome?_cons, h x List.mem_cons_self,
      ih fun y hy => h y (List.mem_cons_of_mem x hy)]

/-- Threads that are done stay as they are. -/
def Lasting (threads threads' : List Thread) : Prop :=
  ∀ (i : Nat) (t : Thread), threads[i]? = some t → t.done = true → threads'[i]? = some t

theorem Sound.worker_eq (h : Sound k l heard s) (hw : Aloof k s.world w)
    (ht : l.threads[i]? = some t) :
    w.workers[t.worker]? = s.world.workers[t.worker]? := by
  obtain ⟨_, _, -, hmember⟩ := h.member i t ht
  obtain ⟨e, he⟩ := hmember.worker
  rw [he]
  exact hw.workers l t e h.ledger (List.mem_of_getElem? ht) he

/-- The world around the threads goes on. -/
theorem Sound.aloof (h : Sound k l heard s) (hw : Aloof k s.world w) :
    Sound k l heard { s with world := w } where
  ledger := hw.ledger l h.ledger
  runs := h.runs
  flags := h.flags
  member i t ht := by
    obtain ⟨b, phase, hb, hmember⟩ := h.member i t ht
    exact ⟨b, phase, hb, hmember.later (hw.ledger l h.ledger) ht (h.worker_eq hw ht) rfl rfl .rfl⟩
  apart := h.apart
  bound := h.bound
  nodup := h.nodup
  first := h.first

section

variable {t' : Thread} {rest : Process (Except Fault Nat)}

theorem mem_returned_gone {i' : Nat} :
    i' ∈ (s.gone i rest w).returned ↔ i' ∈ s.returned ∨ rest.ended = true ∧ i' = i := by
  rw [Crew.gone]
  cases rest.ended <;> simp

/-- The run of thread `i`, which is `t'` now, goes on by a piece. What is to be checked is what
becomes of this thread, and that the others are left alone. -/
theorem Sound.gone (h : Sound k l heard s) (ht : l.threads[i]? = some t) (hfresh : i ∉ s.returned)
    (hledger : w.ledger? k = some l') (hthreads : l'.threads = l.threads.set i t')
    (hsame : t'.worker = t.worker) (hworker : ∃ e, w.workers[t.worker]? = some e)
    (hothers : ∀ i' u, i ≠ i' → l.threads[i']? = some u →
      w.workers[u.worker]? = s.world.workers[u.worker]?)
    (hb : heard[i]? = some b)
    (hrest : rest.Honours (tenure k i t.worker b) (fun _ phase _ => phase = .returned) phase w)
    (hshows : Shows t' phase)
    (hverdict : ∀ r, EndedAs t' r → ∃ p, progress? t.worker w = some p ∧ Verdict b r p)
    (hfirst : l'.firstError = (s.gone i rest w).returned.findSome? (errorAt l'.threads)) :
    Sound k l' heard (s.gone i rest w) := by
  have hi : i < l.threads.length := (List.getElem?_eq_some_iff.1 ht).1
  have hself : l'.threads[i]? = some t' := by
    rw [hthreads]
    exact List.getElem?_set_self hi
  have hne {i' : Nat} (hi' : i ≠ i') : l'.threads[i']? = l.threads[i']? := by
    rw [hthreads]
    exact List.getElem?_set_ne hi'
  have hlength : l'.threads.length = l.threads.length := by rw [hthreads, List.length_set]
  have hmem {i' : Nat} (hi' : i ≠ i') : i' ∈ (s.gone i rest w).returned ↔ i' ∈ s.returned := by
    simp [mem_returned_gone, Ne.symm hi']
  refine ⟨hledger, ?_, h.flags.trans hlength.symm, ?_, ?_, ?_, ?_, hfirst⟩
  · rw [hlength, ← h.runs]
    exact List.length_set
  · intro i' u hu
    by_cases hi' : i = i'
    · subst hi'
      cases hself.symm.trans hu
      refine ⟨b, phase, hb, hsame ▸ hworker,
        ⟨rest, List.getElem?_set_self (h.runs ▸ hi), hsame ▸ hrest⟩, hshows, hsame ▸ hverdict, ?_⟩
      simp [mem_returned_gone, hfresh, ended_iff hrest]
    · rw [hne hi'] at hu
      obtain ⟨b', phase', hb', hmember⟩ := h.member i' u hu
      exact ⟨b', phase', hb', hmember.later hledger ((hne hi').trans hu) (hothers i' u hi' hu) rfl
        (List.getElem?_set_ne hi') (hmem hi')⟩
  · -- The workers are those that the threads had before.
    have hbefore (i' : Nat) (u : Thread) (hu : l'.threads[i']? = some u) :
        ∃ v, l.threads[i']? = some v ∧ v.worker = u.worker := by
      by_cases hi' : i = i'
      · subst hi'
        cases hself.symm.trans hu
        exact ⟨t, ht, hsame.symm⟩
      · exact ⟨u, (hne hi').symm.trans hu, rfl⟩
    intro a b u v hu hv hworkers
    obtain ⟨u₀, hu₀, hworker₀⟩ := hbefore a u hu
    obtain ⟨v₀, hv₀, hworker₁⟩ := hbefore b v hv
    exact h.apart a b u₀ v₀ hu₀ hv₀ (hworker₀.trans (hworkers.trans hworker₁.symm))
  · intro i' hi'
    rw [hlength]
    obtain hold | ⟨-, rfl⟩ := mem_returned_gone.1 hi'
    · exact h.bound i' hold
    · exact hi
  · rw [Crew.gone]
    split
    · refine List.nodup_append.2 ⟨h.nodup, by simp, fun a ha b hb heq => ?_⟩
      rw [heq, List.mem_singleton.1 hb] at ha
      exact hfresh ha
    · exact h.nodup

theorem ledger?_endThread (h : w.ledger? k = some l) (i : Nat) (r : Except Fault Nat) :
    (Course.endThread k i r w).2.ledger? k =
      some { l with threads := l.threads.modify i (·.finish r) } := by
  obtain ⟨m, hm, rfl⟩ := Option.map_eq_some_iff.1 h
  have hmodule : (Course.endThread k i r w).2.modules[k]? =
      some { m with threads := m.threads.modify i (·.finish r) } := getElem?_modify_self hm
  rw [ledger?, hmodule]
  rfl

theorem ledger?_rejoin (h : w.ledger? k = some l) (r : Except Fault Nat) :
    (Course.rejoin k r w).2.ledger? k =
      some { l with firstError := l.firstError.or (faultOf r) } := by
  obtain ⟨m, hm, rfl⟩ := Option.map_eq_some_iff.1 h
  have hmodule : (Course.rejoin k r w).2.modules[k]? =
      some { m with firstError := m.firstError.or (faultOf r) } := getElem?_modify_self hm
  rw [ledger?, hmodule]
  rfl

/-- What holds goes on to hold with every piece of a run. -/
theorem Sound.go (h : Sound k l heard s) {s' : Crew} (hstep : s.step k (.go i) = some s') :
    ∃ l', Sound k l' heard s' ∧ Lasting l.threads l'.threads := by
  obtain ⟨p, event, rest, w, hp, hturn, rfl⟩ := step_go hstep
  have hi : i < l.threads.length := h.runs ▸ (List.getElem?_eq_some_iff.1 hp).1
  obtain ⟨t, ht⟩ : ∃ t, l.threads[i]? = some t := ⟨_, List.getElem?_eq_getElem hi⟩
  obtain ⟨b, phase, hb, hmember⟩ := h.member i t ht
  obtain ⟨p', hp', hhonours⟩ := hmember.run
  cases hp.symm.trans hp'
  obtain ⟨phase', hserves, hrest⟩ := hhonours.turn hturn
  have hfresh : i ∉ s.returned := by
    intro hreturned
    have hended := (ended_iff hhonours).2 (hmember.returned.1 hreturned)
    rw [Traffic.going_of_turn hturn] at hended
    cases hended
  have hset : l.threads.set i t = l.threads := by
    rw [← (List.getElem?_eq_some_iff.1 ht).2, List.set_getElem_self]
  -- As long as the run goes on, those that have returned are the same, with the same faults.
  have hfirst {threads : List Thread} (hgoing : phase' ≠ .returned)
      (hne : ∀ i', i ≠ i' → threads[i']? = l.threads[i']?) :
      l.firstError = (s.gone i rest w).returned.findSome? (errorAt threads) := by
    have hreturned : (s.gone i rest w).returned = s.returned :=
      if_neg fun hended => hgoing ((ended_iff hrest).1 hended)
    rw [hreturned, h.first]
    refine findSome?_congr fun i' hi' => ?_
    rw [errorAt, errorAt, hne i' fun heq => hfresh (heq ▸ hi')]
  cases hserves with
  | works hworks =>
    obtain ⟨e, he⟩ := hmember.worker
    refine ⟨l, h.gone ht hfresh (hworks.ledger l h.ledger) hset.symm rfl (hworks.own e he) ?_ hb
      hrest hmember.shows ?_ (hfirst (by simp) fun _ _ => rfl), fun _ _ hu _ => hu⟩
    · intro i' u hi' hu
      obtain ⟨_, _, -, hother⟩ := h.member i' u hu
      obtain ⟨e', he'⟩ := hother.worker
      rw [he']
      exact hworks.others l u e' h.ledger (List.mem_of_getElem? hu)
        (fun heq => hi' (h.apart i i' t u ht hu heq.symm)) he'
    · intro r hr
      cases hmember.shows.1.symm.trans hr.done
  | @ends r p hprogress hverdict =>
    obtain ⟨hdone, hbridge, herror⟩ := hmember.shows
    have hended := finish_endedAs hdone hbridge herror r
    have hthreads : l.threads.modify i (·.finish r) = l.threads.set i (t.finish r) := by
      rw [List.modify_eq_set_getElem?, ht]
      rfl
    have hne (i' : Nat) (hi' : i ≠ i') :
        (l.threads.modify i (·.finish r))[i']? = l.threads[i']? := List.getElem?_modify_ne _ _ hi'
    refine ⟨_, h.gone ht hfresh (ledger?_endThread h.ledger i r) hthreads (finish_worker t r)
      hmember.worker (fun _ _ _ _ => rfl) hb hrest hended ?_ (hfirst (by simp) hne), ?_⟩
    · intro r' hr'
      cases hended.eq hr'
      exact ⟨p, hprogress, hverdict⟩
    · intro i' u hu hdone'
      have hi' : i ≠ i' := by
        rintro rfl
        cases ht.symm.trans hu
        cases hdone.symm.trans hdone'
      exact (hne i' hi').trans hu
  | records haloof =>
    refine ⟨l, h.gone ht hfresh (haloof.ledger l h.ledger) hset.symm rfl ?_
      (fun _ _ _ hu => h.worker_eq haloof hu) hb hrest hmember.shows ?_
      (hfirst (by simp) fun _ _ => rfl), fun _ _ hu _ => hu⟩
    · rw [h.worker_eq haloof ht]
      exact hmember.worker
    · intro r hr
      rw [progress?, h.worker_eq haloof ht]
      exact hmember.verdict r hr
  | returns r =>
    have hreturned : (s.gone i rest (Course.rejoin k r s.world).2).returned = s.returned ++ [i] :=
      if_pos ((ended_iff hrest).2 rfl)
    have herror : errorAt l.threads i = faultOf r := by
      rw [errorAt, ht]
      exact hmember.shows.error
    refine ⟨_, h.gone ht hfresh (ledger?_rejoin h.ledger r) hset.symm rfl hmember.worker
      (fun _ _ _ _ => rfl) hb hrest ⟨r, hmember.shows⟩ hmember.verdict ?_, fun _ _ hu _ => hu⟩
    rw [hreturned, List.findSome?_append, ← h.first, List.findSome?_singleton, herror]

end

/-! ## Spawning -/

/-- A thread is entered behind the others. -/
theorem Sound.entered {m : LoadedModule} {layout : Layout} (h : Sound k (World.ledger m) heard s)
    (hw : Entered k m layout t s.world w) {c : WorkerEntry → Conduct}
    (hc : ∀ entry, (c entry).Aloof k) (closurePtr : UInt32) (b : Bool) :
    Sound k { threads := m.threads ++ [t], firstError := m.firstError } (heard ++ [b])
      { s with world := w, runs := s.runs ++ [(Course.threadRun c k t closurePtr b).run] } := by
  obtain ⟨e, hworker, -, -, hworkers⟩ := hw.worker
  have hledger :
      w.ledger? k = some { threads := m.threads ++ [t], firstError := m.firstError } := by
    rw [ledger?, hw.module]
    rfl
  have hlength : s.runs.length = m.threads.length := h.runs
  have hheard : heard.length = m.threads.length := h.flags
  have hnew : w.workers[t.worker]? = some e := by
    rw [hworkers, hworker, Array.getElem?_push_size]
  -- The worker of the new thread is none of those that were there.
  have hold {i : Nat} {u : Thread} (hu : m.threads[i]? = some u) :
      u.worker < s.world.workers.size := by
    obtain ⟨_, _, -, hmember⟩ := h.member i u hu
    obtain ⟨e', he'⟩ := hmember.worker
    exact (Array.getElem?_eq_some_iff.1 he').1
  refine ⟨hledger, by simp [hlength], by simp [hheard], ?_, ?_, ?_, h.nodup, ?_⟩
  · intro i u hu
    obtain hu' | ⟨rfl, rfl⟩ := getElem?_concat_eq_some hu
    · obtain ⟨b', phase, hb', hmember⟩ := h.member i u hu'
      have hi : i < s.runs.length := hlength ▸ (List.getElem?_eq_some_iff.1 hu').1
      refine ⟨b', phase, ?_, hmember.later hledger hu ?_ rfl (List.getElem?_append_left hi) .rfl⟩
      · exact (List.getElem?_append_left (List.getElem?_eq_some_iff.1 hb').1).trans hb'
      rw [hworkers, Array.getElem?_push, if_neg (Nat.ne_of_lt (hold hu'))]
    · have hseated : SeatedAt k m.threads.length u.worker {} w :=
        ⟨⟨⟨_, u, hledger, hu, rfl⟩, e, hnew⟩, hw.fresh⟩
      refine ⟨b, .underway, ?_, ⟨e, hnew⟩,
        ⟨_, ?_, threadRun_tenure hc hw.id hseated closurePtr b⟩,
        ⟨hw.done, hw.bridge, hw.error⟩, fun r hr => ?_, ?_⟩
      · rw [← hheard]
        exact List.getElem?_concat_length
      · rw [← hlength]
        exact List.getElem?_concat_length
      · cases hw.done.symm.trans hr.done
      · refine ⟨fun hreturned => ?_, fun hover => by cases hover⟩
        exact absurd (h.bound _ hreturned) (Nat.lt_irrefl _)
  · intro i i' u u' hu hu' hsame
    obtain hbefore | ⟨rfl, rfl⟩ := getElem?_concat_eq_some hu
    · obtain hbefore' | ⟨rfl, rfl⟩ := getElem?_concat_eq_some hu'
      · exact h.apart i i' u u' hbefore hbefore' hsame
      · have hlt := hold hbefore
        omega
    · obtain hbefore' | ⟨rfl, rfl⟩ := getElem?_concat_eq_some hu'
      · have hlt := hold hbefore'
        omega
      · rfl
  · intro i hi
    have hlt : i < m.threads.length := h.bound i hi
    simp only [List.length_append, List.length_singleton]
    omega
  · refine h.first.trans (findSome?_congr fun i hi => ?_)
    have hlt : i < m.threads.length := h.bound i hi
    rw [errorAt, errorAt, List.getElem?_append_left hlt]
    rfl

theorem Sound.spawn (h : Sound k l heard s) {c : WorkerEntry → Conduct}
    (hc : ∀ entry, (c entry).Aloof k) (closurePtr : UInt32) (ops : List (String × Bridge.Op))
    (b : Bool) :
    ∃ l', Sound k l' (heard ++ s.hears k (.spawn c closurePtr ops b))
        (s.spawned k c closurePtr b (newThread k ops s.world)) ∧
      Lasting l.threads l'.threads := by
  obtain ⟨m, hm, rfl⟩ := Option.map_eq_some_iff.1 h.ledger
  obtain ⟨f, hf⟩ | ⟨t, layout, w, ht, hentered⟩ := newThread_cases hm ops
  · rw [hears, hf]
    exact ⟨_, (List.append_nil heard).symm ▸ h, fun _ _ hu _ => hu⟩
  · rw [hears, ht]
    refine ⟨_, h.entered hentered hc closurePtr b, fun i u hu _ => ?_⟩
    exact (List.getElem?_append_left (List.getElem?_eq_some_iff.1 hu).1).trans hu

/-! ## Whole runs -/

theorem Sound.step (h : Sound k l heard s) {turn : Turn} {s' : Crew} (hturn : turn.Aloof k)
    (hstep : s.step k turn = some s') :
    ∃ l', Sound k l' (heard ++ s.hears k turn) s' ∧ Lasting l.threads l'.threads := by
  cases turn with
  | spawn c closurePtr ops b =>
    cases hstep
    exact h.spawn hturn closurePtr ops b
  | go i =>
    rw [hears, List.append_nil]
    exact h.go hstep
  | other f =>
    cases hstep
    rw [hears, List.append_nil]
    exact ⟨l, h.aloof (hturn s.world), fun _ _ hu _ => hu⟩

theorem Sound.run (h : Sound k l heard s) {turns : List Turn} {s' : Crew}
    (hturns : ∀ turn ∈ turns, turn.Aloof k) (hrun : s.run k turns = some s') :
    ∃ l', Sound k l' (heard ++ s.hearing k turns) s' ∧ Lasting l.threads l'.threads := by
  induction turns generalizing s l heard with
  | nil =>
    cases hrun
    rw [hearing, List.append_nil]
    exact ⟨l, h, fun _ _ hu _ => hu⟩
  | cons turn turns ih =>
    obtain ⟨s₁, hstep, hrest⟩ := Option.bind_eq_some_iff.1 hrun
    obtain ⟨l₁, h₁, hlasting⟩ := h.step (hturns turn List.mem_cons_self) hstep
    obtain ⟨l', h', hlasting'⟩ := ih h₁ (fun u hu => hturns u (List.mem_cons_of_mem turn hu)) hrest
    rw [hearing, hstep, Option.elim_some, ← List.append_assoc]
    exact ⟨l', h', fun i t ht hdone => hlasting' i t (hlasting i t ht hdone) hdone⟩

theorem sound_of_load [Wasm.Machine] {rk : Nat} {bytes : Bytes} {w₀ : World}
    (h : load rk bytes w₀ = (.ok k, w)) :
    Sound k { threads := [], firstError := none } [] { world := w } := by
  obtain ⟨m, v, logs, hprepare, rfl, rfl⟩ := load_prepared h
  obtain ⟨r, -, -, hhousing, -, -, hfirst, -⟩ := prepare_ok hprepare
  have hthreads : m.threads = [] := List.map_eq_nil_iff.1 (congrArg Housing.places hhousing)
  have hmodule : (v.modules.push m)[v.modules.size]? = some m := Array.getElem?_push_size
  refine ⟨?_, rfl, rfl, by simp, by simp, by simp, .nil, rfl⟩
  rw [ledger?, hmodule, Option.map_some, World.ledger, hthreads, hfirst]

/-! ## How threads come out -/

/-- All runs have come to their ends, which is what waiting for the threads waits for. -/
def Finished (s : Crew) : Prop := ∀ p ∈ s.runs, p.ended = true

/-- What can be relied on of the threads of module `k`, which is `m` now. -/
structure Consistent (k : Nat) (m : LoadedModule) (s : Crew) : Prop where
  pending : ∀ t ∈ m.threads, t.done = false → t.bridge = none ∧ t.error = none
  /-- A thread that is done has a bridge or a fault, and not both. -/
  outcome : ∀ t ∈ m.threads, t.done = true → (t.bridge.isSome = true ↔ t.error = none)
  running : ∀ t ∈ m.threads, t.bridge.isSome = true →
    (s.world.threadStatus t).state = .running
  /-- Whatever happens from now on, a thread that is done stays as it is. -/
  lasting : ∀ turns s', (∀ turn ∈ turns, turn.Aloof k) → s.run k turns = some s' →
    ∃ m', s'.world.modules[k]? = some m' ∧ Lasting m.threads m'.threads
  /-- Each thread has a run, which returns once. -/
  returned : s.runs.length = m.threads.length ∧ s.returned.Nodup ∧
    ∀ i, i ∈ s.returned ↔ ∃ p, s.runs[i]? = some p ∧ p.ended = true
  /-- A run returns when its thread is done. -/
  done : ∀ i ∈ s.returned, ∃ t, m.threads[i]? = some t ∧ t.done = true
  /-- The fault that is reported is that of the first thread to return one. -/
  first : wait k s.world =
    ((s.returned.findSome? (errorAt m.threads)).elim (.ok ()) .error, s.world)
  /-- When all runs have returned, none is reported just if no thread has one. -/
  all : s.Finished → (∀ t ∈ m.threads, t.done = true) ∧
    ((wait k s.world).1 = .ok () ↔ ∀ t ∈ m.threads, t.error = none)

theorem wait_run {m : LoadedModule} (hm : w.modules[k]? = some m) :
    wait k w = (m.firstError.elim (.ok ()) .error, w) := by
  refine (bind_run (loadedModule k) _ w).trans ?_
  rw [(loadedModule_finds k).run hm]
  dsimp only
  cases m.firstError <;> rfl

theorem Member.endedAs (h : Member k s i t b phase) (hdone : t.done = true) : ∃ r, EndedAs t r := by
  cases phase with
  | underway => cases h.shows.1.symm.trans hdone
  | ended r => exact ⟨r, h.shows⟩
  | returned => exact h.shows

theorem Member.pending (h : Member k s i t b phase) (hdone : t.done = false) :
    t.bridge = none ∧ t.error = none := by
  cases phase with
  | underway => exact h.shows.2
  | ended r => cases h.shows.done.symm.trans hdone
  | returned =>
    obtain ⟨r, hr⟩ := h.shows
    cases hr.done.symm.trans hdone

theorem Member.done (h : Member k s i t b phase) (hi : i ∈ s.returned) : t.done = true := by
  cases h.returned.1 hi
  obtain ⟨r, hr⟩ := h.shows
  exact hr.done

theorem threadStatus_of_progress {p : Progress} (h : progress? t.worker w = some p) :
    (w.threadStatus t).state = p.state ∧ (w.threadStatus t).failed = p.failed := by
  obtain ⟨e, he, rfl⟩ := Option.map_eq_some_iff.1 h
  rw [threadStatus, he]
  exact ⟨rfl, rfl⟩

theorem Member.running (h : Member k s i t b phase) (hbridge : t.bridge.isSome = true) :
    (s.world.threadStatus t).state = .running := by
  have hdone : t.done = true := by
    by_contra hpending
    simp [(h.pending (by simpa using hpending)).1] at hbridge
  obtain ⟨r, hr⟩ := h.endedAs hdone
  obtain ⟨p, hp, hverdict⟩ := h.verdict r hr
  rw [(threadStatus_of_progress hp).1]
  rw [hr.bridge] at hbridge
  cases hverdict with
  | running b' => rfl
  | failed f state => cases hbridge
  | unheard => cases hbridge

section

variable {m : LoadedModule} (h : Sound k (World.ledger m) heard s)

include h

theorem Sound.mem_returned_iff : i ∈ s.returned ↔ ∃ p, s.runs[i]? = some p ∧ p.ended = true := by
  constructor
  · intro hi
    have hlt : i < m.threads.length := h.bound i hi
    obtain ⟨b, phase, -, hmember⟩ := h.member i _ (List.getElem?_eq_getElem hlt)
    obtain ⟨p, hp, hhonours⟩ := hmember.run
    exact ⟨p, hp, (ended_iff hhonours).2 (hmember.returned.1 hi)⟩
  · rintro ⟨p, hp, hended⟩
    have hlt : i < m.threads.length := h.runs ▸ (List.getElem?_eq_some_iff.1 hp).1
    obtain ⟨b, phase, -, hmember⟩ := h.member i _ (List.getElem?_eq_getElem hlt)
    obtain ⟨p', hp', hhonours⟩ := hmember.run
    cases hp.symm.trans hp'
    exact hmember.returned.2 ((ended_iff hhonours).1 hended)

theorem Sound.mem_returned (hfinished : s.Finished) {i : Nat} (hi : i < m.threads.length) :
    i ∈ s.returned := by
  have hlt : i < s.runs.length := h.runs ▸ hi
  exact h.mem_returned_iff.2 ⟨_, List.getElem?_eq_getElem hlt, hfinished _ (List.getElem_mem hlt)⟩

theorem Sound.firstError_eq_none_iff (hfinished : s.Finished) :
    m.firstError = none ↔ ∀ t ∈ m.threads, t.error = none := by
  have hfirst : m.firstError = s.returned.findSome? (errorAt m.threads) := h.first
  rw [hfirst, List.findSome?_eq_none_iff]
  constructor
  · intro hnone t ht
    obtain ⟨i, hi⟩ := List.mem_iff_getElem?.1 ht
    have herror := hnone i (h.mem_returned hfinished (List.getElem?_eq_some_iff.1 hi).1)
    rwa [errorAt, hi] at herror
  · intro hnone i hi
    have hlt : i < m.threads.length := h.bound i hi
    rw [errorAt, List.getElem?_eq_getElem hlt]
    exact hnone _ (List.getElem_mem hlt)

theorem Sound.consistent (hm : s.world.modules[k]? = some m) : Consistent k m s := by
  have hmember {t : Thread} (ht : t ∈ m.threads) : ∃ i b phase, Member k s i t b phase := by
    obtain ⟨i, hi⟩ := List.mem_iff_getElem?.1 ht
    obtain ⟨b, phase, -, hmember⟩ := h.member i t hi
    exact ⟨i, b, phase, hmember⟩
  have hdone {i : Nat} (hi : i ∈ s.returned) : ∃ t, m.threads[i]? = some t ∧ t.done = true := by
    have hlt : i < m.threads.length := h.bound i hi
    obtain ⟨b, phase, -, hmember⟩ := h.member i _ (List.getElem?_eq_getElem hlt)
    exact ⟨_, List.getElem?_eq_getElem hlt, hmember.done hi⟩
  have hfirst : m.firstError = s.returned.findSome? (errorAt m.threads) := h.first
  refine ⟨?_, ?_, ?_, ?_, ⟨h.runs, h.nodup, fun i => h.mem_returned_iff⟩, fun i hi => hdone hi,
    ?_, ?_⟩
  · intro t ht hpending
    obtain ⟨i, b, phase, hmember⟩ := hmember ht
    exact hmember.pending hpending
  · intro t ht hdone
    obtain ⟨i, b, phase, hmember⟩ := hmember ht
    obtain ⟨r, hr⟩ := hmember.endedAs hdone
    rw [hr.bridge, hr.error]
    cases r <;> simp [faultOf, Except.toOption]
  · intro t ht hbridge
    obtain ⟨i, b, phase, hmember⟩ := hmember ht
    exact hmember.running hbridge
  · intro turns s' hturns hrun
    obtain ⟨l', h', hlasting⟩ := h.run hturns hrun
    obtain ⟨m', hm', rfl⟩ := Option.map_eq_some_iff.1 h'.ledger
    exact ⟨m', hm', hlasting⟩
  · rw [wait_run hm, hfirst]
  · intro hfinished
    refine ⟨fun t ht => ?_, ?_⟩
    · obtain ⟨i, hi⟩ := List.mem_iff_getElem?.1 ht
      have hlt := (List.getElem?_eq_some_iff.1 hi).1
      obtain ⟨t', ht', hdone'⟩ := hdone (h.mem_returned hfinished hlt)
      cases hi.symm.trans ht'
      exact hdone'
    · rw [← h.firstError_eq_none_iff hfinished, wait_run hm]
      cases m.firstError <;> simp

end

end

end Crew

/-- **Threads come out in one way.** However many threads are spawned from a loaded module, however
their runs take turns with each other and with whatever else goes on, and whether or not their
workers hear of a message when their wait is cancelled: a thread is done once, with a bridge to a
guest that runs or with a fault, and waiting for the threads reports the first fault that was
returned. A thread that is entered and run is spawned. Guests leave threads alone, and so do the use
of bridges and the closing of modules. -/
theorem thread_completion_is_consistent [Wasm.Machine] :
    (∀ (rk k : Nat) (bytes : Bytes) (w₀ w₁ : World) (turns : List Crew.Turn) (s : Crew),
      load rk bytes w₀ = (.ok k, w₁) → (∀ turn ∈ turns, turn.Aloof k) →
      Crew.run k { world := w₁ } turns = some s →
      ∃ m, s.world.modules[k]? = some m ∧ Crew.Consistent k m s) ∧
    (∀ k closurePtr ops cancelled, Performs (do
        let t ← Course.atom (newThread k ops)
        Course.threadRun (Conduct.guests · cancelled) k t closurePtr true)
      (spawn k closurePtr ops cancelled)) ∧
    (∀ k entry cancelled, (Conduct.guests entry cancelled).Aloof k) ∧
    (∀ k b cancelled script w,
      (Course.drive b cancelled script).Honours (detached k) () (fun _ _ => True) w) ∧
    ∀ k j w, (Course.closeModule j).Honours (detached k) () (fun _ _ => True) w := by
  refine ⟨?_, Performs.threadRun, Conduct.guests_aloof, drive_detached, closeModule_detached⟩
  intro rk k bytes w₀ w₁ turns s hload hturns hrun
  obtain ⟨l, hsound, -⟩ := (Crew.sound_of_load hload).run hturns hrun
  obtain ⟨m, hm, rfl⟩ := Option.map_eq_some_iff.1 hsound.ledger
  exact ⟨m, hm, hsound.consistent hm⟩

/-- A guest that is made at once and does all that is asked of it. -/
def obliging : Conduct := { trapping with call := fun _ _ _ => pure [] }

theorem trapping_aloof (k : Nat) : trapping.Aloof k where
  instantiate _ _ := (hosting_detached k none).atom' (.ok _) trivial
  setGlobal _ _ _ _ := (hosting_detached k none).value trivial _
  call _ _ _ _ := (hosting_detached k none).atom' (.fail _) trivial
  close _ _ := (hosting_detached k none).value trivial _

theorem obliging_aloof (k : Nat) : obliging.Aloof k :=
  { trapping_aloof k with call := fun _ _ _ _ => (hosting_detached k none).value trivial _ }

/-- Four threads are spawned. The first is done and about to return its fault when the second
returns another one. Then the module is closed, the third thread comes to run, and the fourth does
not hear of its message. -/
def contest : List Crew.Turn :=
  [.spawn (Conduct.guests · false) 0 [] true, .spawn (fun _ => trapping) 0 [] true,
      .spawn (fun _ => obliging) 0 [] true, .spawn (Conduct.guests · true) 0 [] false] ++
    List.replicate 9 (.go 0) ++ List.replicate 18 (.go 1) ++ [.other fun w => (shutModule 0 w).2] ++
    List.replicate 21 (.go 2) ++ List.replicate 6 (.go 3) ++ List.replicate 2 (.go 0)

theorem contest_is_consistent :
    let w := (load 0 Wasm.header fresh).2
    ∃ s m f, load 0 Wasm.header fresh = (.ok 0, w) ∧ Crew.run 0 { world := w } contest = some s ∧
      s.world.modules[0]? = some m ∧ s.Finished ∧ s.returned = [1, 2, 3, 0] ∧
      m.threads.map (fun t => (t.done, t.bridge, t.error.isSome)) =
        [(true, none, true), (true, none, true), (true, some 0, false), (true, none, true)] ∧
      Crew.errorAt m.threads 1 = some f ∧ wait 0 s.world = (.error f, s.world) ∧
      Crew.Consistent 0 m s := by
  intro w
  have hanswer : (load 0 Wasm.header fresh).1.toOption = some 0 := by decide +kernel
  have hload : load 0 Wasm.header fresh = (.ok 0, w) := by
    refine Prod.ext ?_ rfl
    cases hrun : (load 0 Wasm.header fresh).1 <;> rw [hrun] at hanswer <;> cases hanswer
    rfl
  have hturns : ∀ turn ∈ contest, turn.Aloof 0 := by
    have hshut (w : World) : Aloof 0 w (shutModule 0 w).2 := shutModule_aloof 0 w
    simp [contest, or_imp, forall_and, Crew.Turn.Aloof, Conduct.guests_aloof, trapping_aloof,
      obliging_aloof, hshut]
  have hseen : (Crew.run 0 { world := w } contest).map (fun s =>
      (s.returned, s.runs.all (·.ended))) = some ([1, 2, 3, 0], true) := by
    decide +kernel
  have hthreads : (Crew.run 0 { world := w } contest).bind (fun s =>
      s.world.modules[0]?.map fun m => m.threads.map fun t => (t.done, t.bridge, t.error.isSome)) =
      some [(true, none, true), (true, none, true), (true, some 0, false), (true, none, true)] := by
    decide +kernel
  obtain ⟨s, hs, hsame⟩ := Option.map_eq_some_iff.1 hseen
  obtain ⟨hreturned, hended⟩ := Prod.mk.inj hsame
  obtain ⟨m, hm, hconsistent⟩ :=
    thread_completion_is_consistent.1 0 0 Wasm.header fresh w contest s hload hturns hs
  rw [hs, Option.bind_some, hm] at hthreads
  have hshown := Option.some.inj hthreads
  -- The second thread has a fault, and no other run returned before its run.
  obtain ⟨f, hf⟩ : ∃ f, Crew.errorAt m.threads 1 = some f := by
    have hsecond := congrArg (·[1]?) hshown
    obtain ⟨t, ht, hflags⟩ := Option.map_eq_some_iff.1 ((List.getElem?_map ..).symm.trans hsecond)
    obtain ⟨f, hf⟩ := Option.isSome_iff_exists.1 (congrArg (·.2.2) hflags)
    exact ⟨f, by rw [Crew.errorAt, ht]; exact hf⟩
  refine ⟨s, m, f, hload, hs, hm, List.all_eq_true.1 hended, hreturned, hshown, hf, ?_, hconsistent⟩
  rw [hconsistent.first, hreturned, List.findSome?_cons, hf]
  rfl

end GuestThreads.World
