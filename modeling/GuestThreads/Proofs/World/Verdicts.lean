import GuestThreads.Command
import GuestThreads.Proofs.World.Completion

/-!
# Which failures show

A worker takes note that it failed while it handles its message, and the fault of a thread is
recorded from whatever its run comes to. The two agree for a thread whose worker heard its message,
and then the status line tells the fault. A worker whose wait was cancelled has handled nothing. Its
thread is done with a fault, and its status line says that all is well.
-/

namespace GuestThreads.World

open Worker (Progress)

/-- The status line of a thread ends in this text. -/
def LineEnds (w : World) (t : Thread) (text : String) : Prop :=
  Command.statusLine w t = .ok ("thread " ++ Text.decimal t.id ++ ": " ++
    (w.threadStatus t).state.name ++ ", " ++ Text.decimal (w.threadStatus t).signals.toNat ++
      " signal(s), " ++ text)

/-- What shows of a thread that is done, by whether its worker heard its message. -/
def Shown (w : World) (t : Thread) : Bool → Prop
  | true => ((w.threadStatus t).failed = true ↔ t.error ≠ none) ∧
      LineEnds w t (t.error.elim "ok" fun f => "failed: " ++ f.message)
  | false => t.error = some (.external .cancelled) ∧ (w.threadStatus t).failed = false ∧
      (w.threadStatus t).state = .uninitialized ∧ LineEnds w t "ok"

section

variable {w : World} {t : Thread}

theorem lineEnds_ok (h : (w.threadStatus t).failed = false) : LineEnds w t "ok" := by
  delta LineEnds Command.statusLine
  simp only [h]
  rfl

theorem lineEnds_failed (h : (w.threadStatus t).failed = true) {f : Fault}
    (herror : t.error = some f) : LineEnds w t ("failed: " ++ f.message) := by
  delta LineEnds Command.statusLine
  simp only [h, herror]
  rfl

/-- A thread shows how its worker stands. -/
theorem Verdict.shown {b : Bool} {r : Except Fault Nat} {p : Progress} (h : Verdict b r p)
    (hp : progress? t.worker w = some p) (ht : Crew.EndedAs t r) : Shown w t b := by
  obtain ⟨hstate, hfailed⟩ := Crew.threadStatus_of_progress hp
  have herror := ht.error
  cases h with
  | running b' =>
    refine ⟨by simp [hfailed, herror, faultOf], ?_⟩
    rw [herror]
    exact lineEnds_ok hfailed
  | failed f state =>
    refine ⟨by simp [hfailed, herror, faultOf], ?_⟩
    rw [herror]
    exact lineEnds_failed hfailed herror
  | unheard => exact ⟨herror, hfailed, hstate, lineEnds_ok hfailed⟩

end

namespace Crew

theorem exists_spawn_of_mem_hearing {k : Nat} {s : Crew} {turns : List Turn} {b : Bool}
    (h : b ∈ s.hearing k turns) : ∃ c closurePtr ops, .spawn c closurePtr ops b ∈ turns := by
  induction turns generalizing s with
  | nil => cases h
  | cons turn turns ih =>
    obtain hnow | hlater := List.mem_append.1 h
    · cases turn with
      | spawn c closurePtr ops heard =>
        rw [hears] at hnow
        split at hnow
        · cases List.mem_singleton.1 hnow
          exact ⟨c, closurePtr, ops, List.mem_cons_self⟩
        · cases hnow
      | go i => cases hnow
      | other f => cases hnow
    · cases hstep : s.step k turn with
      | none =>
        rw [hstep] at hlater
        cases hlater
      | some s' =>
        rw [hstep] at hlater
        obtain ⟨c, closurePtr, ops, hmem⟩ := ih hlater
        exact ⟨c, closurePtr, ops, List.mem_cons_of_mem _ hmem⟩

/-- A fault that is reported is that of a thread whose run has returned. -/
theorem Sound.exists_of_wait {k : Nat} {m : LoadedModule} {heard : List Bool} {s : Crew} {f : Fault}
    (h : Sound k (World.ledger m) heard s) (hm : s.world.modules[k]? = some m)
    (hwait : (wait k s.world).1 = .error f) :
    ∃ t ∈ m.threads, t.done = true ∧ t.error = some f := by
  have hkept : m.firstError = some f := by
    rw [wait_run hm] at hwait
    cases hfirst : m.firstError <;> simp_all
  obtain ⟨i, hi, herror⟩ := List.exists_of_findSome?_eq_some (h.first.symm.trans hkept)
  obtain ⟨t, ht, hf⟩ := Option.bind_eq_some_iff.1 herror
  obtain ⟨b, phase, -, hmember⟩ := h.member i t ht
  exact ⟨t, List.mem_of_getElem? ht, hmember.done hi, hf⟩

end Crew

/-- **A failure shows unless the message was not heard.** However the threads of a loaded module
take turns with each other and with whatever else goes on: a thread that is done shows as failed
just if it has a fault, and its status line tells the fault, provided that its worker heard its
message. If the wait of the worker was cancelled before, then the thread has a fault and does not
show as failed. A fault that waiting for the threads reports is that of a thread that is done. -/
theorem failure_shows_unless_unheard [Wasm.Machine] (rk k : Nat) (bytes : Bytes) (w₀ w₁ : World)
    (turns : List Crew.Turn) (s : Crew) (hload : load rk bytes w₀ = (.ok k, w₁))
    (hturns : ∀ turn ∈ turns, turn.Aloof k) (hrun : Crew.run k { world := w₁ } turns = some s) :
    ∃ m, s.world.modules[k]? = some m ∧
      (Crew.hearing k { world := w₁ } turns).length = m.threads.length ∧
      (∀ b ∈ Crew.hearing k { world := w₁ } turns,
        ∃ c closurePtr ops, .spawn c closurePtr ops b ∈ turns) ∧
      (∀ (i : Nat) (t : Thread) (b : Bool), m.threads[i]? = some t →
        (Crew.hearing k { world := w₁ } turns)[i]? = some b → t.done = true → Shown s.world t b) ∧
      ∀ f, (wait k s.world).1 = .error f → ∃ t ∈ m.threads, t.done = true ∧ t.error = some f := by
  obtain ⟨l, hsound, -⟩ := (Crew.sound_of_load hload).run hturns hrun
  obtain ⟨m, hm, rfl⟩ := Option.map_eq_some_iff.1 hsound.ledger
  rw [List.nil_append] at hsound
  refine ⟨m, hm, hsound.flags, fun b hb => Crew.exists_spawn_of_mem_hearing hb, ?_,
    fun f hf => hsound.exists_of_wait hm hf⟩
  intro i t b ht hb hdone
  obtain ⟨b', phase, hb', hmember⟩ := hsound.member i t ht
  cases hb.symm.trans hb'
  obtain ⟨r, hr⟩ := hmember.endedAs hdone
  obtain ⟨p, hp, hverdict⟩ := hmember.verdict r hr
  exact hverdict.shown hp hr

/-- Two threads are spawned, the second with a context that is cancelled. The first fails, and the
second does not hear of its message. -/
def mishap : List Crew.Turn :=
  [.spawn (Conduct.guests · false) 0 [] true, .spawn (Conduct.guests · true) 0 [] false] ++
    List.replicate 11 (.go 0) ++ List.replicate 6 (.go 1)

theorem mishap_aloof : ∀ turn ∈ mishap, turn.Aloof 0 := by
  simp [mishap, or_imp, forall_and, Crew.Turn.Aloof, Conduct.guests_aloof]

theorem load_header_fresh : load 0 Wasm.header fresh = (.ok 0, (load 0 Wasm.header fresh).2) := by
  have hanswer : (load 0 Wasm.header fresh).1.toOption = some 0 := by decide +kernel
  generalize load 0 Wasm.header fresh = out at hanswer ⊢
  obtain ⟨f | k, w⟩ := out
  · cases hanswer
  · cases hanswer
    rfl

/-- What becomes of the two threads. -/
theorem mishap_run : ∃ s m t u,
    Crew.run 0 { world := (load 0 Wasm.header fresh).2 } mishap = some s ∧
      s.world.modules[0]? = some m ∧ m.threads[0]? = some t ∧ m.threads[1]? = some u ∧
      t.done = true ∧ u.done = true ∧ u.error = some (.external .cancelled) ∧
      (s.world.threadStatus u).failed = false ∧
      Command.statusLine s.world u = .ok "thread 1: uninitialized, 0 signal(s), ok" := by
  have hseen : (Crew.run 0 { world := (load 0 Wasm.header fresh).2 } mishap).bind (fun s =>
      s.world.modules[0]?.bind fun m => m.threads[0]?.bind fun t => m.threads[1]?.map fun u =>
        (t.done, u.done, u.error, (s.world.threadStatus u).failed,
          Command.statusLine s.world u)) =
      some (true, true, some (.external .cancelled), false,
        .ok "thread 1: uninitialized, 0 signal(s), ok") := by
    decide +kernel
  obtain ⟨s, hs, h₁⟩ := Option.bind_eq_some_iff.1 hseen
  obtain ⟨m, hm, h₂⟩ := Option.bind_eq_some_iff.1 h₁
  obtain ⟨t, ht, h₃⟩ := Option.bind_eq_some_iff.1 h₂
  obtain ⟨u, hu, hshown⟩ := Option.map_eq_some_iff.1 h₃
  simp only [Prod.mk.injEq] at hshown
  exact ⟨s, m, t, u, hs, hm, ht, hu, hshown⟩

/-- The thread whose worker did not hear its message has a fault, and its status line says that all
is well. -/
theorem unheard_failure_is_hidden : ∃ s m t,
    Crew.run 0 { world := (load 0 Wasm.header fresh).2 } mishap = some s ∧
      s.world.modules[0]? = some m ∧ t ∈ m.threads ∧ t.done = true ∧ t.error ≠ none ∧
      (s.world.threadStatus t).failed = false ∧
      Command.statusLine s.world t = .ok "thread 1: uninitialized, 0 signal(s), ok" := by
  obtain ⟨s, m, t, u, hs, hm, -, hu, -, hdone, herror, hfailed, hline⟩ := mishap_run
  exact ⟨s, m, u, hs, hm, List.mem_of_getElem? hu, hdone, by simp [herror], hfailed, hline⟩

/-- Of the two threads, the first shows its failure. -/
theorem mishap_shows_unless_unheard : ∃ s m t u,
    Crew.run 0 { world := (load 0 Wasm.header fresh).2 } mishap = some s ∧
      s.world.modules[0]? = some m ∧ m.threads[0]? = some t ∧ m.threads[1]? = some u ∧
      t.done = true ∧ u.done = true ∧ Shown s.world t true ∧ Shown s.world u false := by
  obtain ⟨s, m, t, u, hs, hm, ht, hu, hdone, hdone', -⟩ := mishap_run
  have hheard : Crew.hearing 0 { world := (load 0 Wasm.header fresh).2 } mishap =
      [true, false] := by
    decide +kernel
  obtain ⟨m', hm', -, -, hshown, -⟩ := failure_shows_unless_unheard 0 0 Wasm.header fresh _ mishap s
    load_header_fresh mishap_aloof hs
  cases hm.symm.trans hm'
  rw [hheard] at hshown
  exact ⟨s, m, t, u, hs, hm, ht, hu, hdone, hdone', hshown 0 t true ht rfl hdone,
    hshown 1 u false hu rfl hdone'⟩

end GuestThreads.World
