import GuestThreads.Proofs.World.Closing

/-!
# Closing a runtime while it loads

Loads and a close of the same runtime take turns. A load looks whether the runtime is open, prepares
its module and registers it, in a turn each; the close takes the registered modules and marks the
runtime closed in one turn, and then closes the modules one by one. Since a load looks before it
prepares, its module may be registered when the modules have been taken already. `Straddles` says
when that happens, and such a module is neither closed nor given up.
-/

namespace GuestThreads.World

/-! ## Turns -/

/-- How far a load has come. -/
inductive Loading where
  | entered (bytes : Bytes)
  | admitted (bytes : Bytes)
  | prepared (m : LoadedModule)
  | returned (r : Except Fault Nat)

/-- How far the close has come. -/
inductive Shutting where
  | entered
  | closing (modules : List Nat)
  /-- A module is closed, and its signals are to be dropped. -/
  | discarding (id : Nat) (modules : List Nat)
  | returned (r : Except Fault Unit)

/-- The next part of a load. -/
def Loading.step [Wasm.Machine] (k : Nat) (l : Loading) (w : World) : Option (Loading × World) :=
  match l with
  | .entered bytes =>
    match checkOpen k w with
    | (.ok _, w') => some (.admitted bytes, w')
    | (.error f, w') => some (.returned (.error f), w')
  | .admitted bytes =>
    match prepare k bytes w with
    | (.ok m, w') => some (.prepared m, w')
    | (.error f, w') => some (.returned (.error f), w')
  | .prepared m =>
    let (id, w') := register k m w
    some (.returned (.ok id), w')
  | .returned _ => none

/-- The next part of the close. -/
def Shutting.step [Wasm.Machine] (k : Nat) (c : Shutting) (w : World) : Option (Shutting × World) :=
  match c with
  | .entered =>
    match shutRuntime k w with
    | (.ok modules, w') => some (.closing modules, w')
    | (.error f, w') => some (.returned (.error f), w')
  | .closing [] => some (.returned (.ok ()), w)
  | .closing (id :: modules) =>
    match closeModule id w with
    | (.ok _, w') => some (.discarding id modules, w')
    | (.error f, w') => some (.returned (.error f), w')
  | .discarding id modules =>
    match discardSignals id w with
    | (.ok _, w') => some (.closing modules, w')
    | (.error f, w') => some (.returned (.error f), w')
  | .returned _ => none

/-- Whose turn it is. -/
inductive Shutdown.Turn where
  | load (i : Nat)
  | close
deriving DecidableEq

/-- Loads and a close of the same runtime on their way. -/
structure Shutdown where
  world : World
  loads : List Loading
  close : Shutting := .entered

namespace Shutdown

/-- The loads and the close are called. -/
def begin (w : World) (requests : List Bytes) : Shutdown where
  world := w
  loads := requests.map .entered

def step [Wasm.Machine] (k : Nat) (s : Shutdown) : Turn → Option Shutdown
  | .load i => do
    let (l, w) ← (← s.loads[i]?).step k s.world
    return { s with world := w, loads := s.loads.set i l }
  | .close => do
    let (c, w) ← s.close.step k s.world
    return { s with world := w, close := c }

def run [Wasm.Machine] (k : Nat) (s : Shutdown) (turns : List Turn) : Option Shutdown :=
  turns.foldlM (step k) s

/-- All the calls have returned. -/
structure Finished (s : Shutdown) : Prop where
  loads : ∀ l ∈ s.loads, ∃ r, l = .returned r
  close : ∃ r, s.close = .returned r

/-- How many turns a load has before the first turn of the close. -/
def lead (turns : List Turn) (i : Nat) : Nat := (turns.takeWhile (· ≠ .close)).count (.load i)

/-- The load has looked whether the runtime is open, and not yet registered its module, when the
close takes the modules. -/
def Straddles (turns : List Turn) (i : Nat) : Prop := 0 < lead turns i ∧ lead turns i < 3

instance (turns : List Turn) (i : Nat) : Decidable (Straddles turns i) :=
  inferInstanceAs (Decidable (_ ∧ _))

end Shutdown

/-! ### Turns without a pause -/

section

variable (k : Nat) (w : World)

/-- A load that is left to itself comes to what the operation does. -/
theorem load_by_turns [Wasm.Machine] (bytes : Bytes) :
    ∃ turns, (Shutdown.begin w [bytes]).run k turns =
      some { world := (load k bytes w).2, loads := [.returned (load k bytes w).1] } := by
  have hload : load k bytes w = (checkOpen k >>= fun _ =>
    prepare k bytes >>= fun m => liftM (register k m)) w := rfl
  rw [hload, bind_run]
  rcases hcheck : checkOpen k w with ⟨f | u, w₁⟩
  · refine ⟨[.load 0], ?_⟩
    simp [Shutdown.run, Shutdown.begin, Shutdown.step, Loading.step, hcheck]
  · dsimp only
    rw [bind_run]
    rcases hprepare : prepare k bytes w₁ with ⟨f | m, w₂⟩
    · refine ⟨[.load 0, .load 0], ?_⟩
      simp [Shutdown.run, Shutdown.begin, Shutdown.step, Loading.step, hcheck, hprepare]
    · refine ⟨[.load 0, .load 0, .load 0], ?_⟩
      simp [Shutdown.run, Shutdown.begin, Shutdown.step, Loading.step, hcheck, hprepare]
      rfl

/-- Close these modules and drop their signals. -/
def closeAll [Wasm.Machine] (modules : List Nat) : Try Unit := do
  for id in modules do
    closeModule id
    discardSignals id

theorem closeAll_cons [Wasm.Machine] (id : Nat) (modules : List Nat) :
    closeAll (id :: modules) = (do
      closeModule id
      discardSignals id
      closeAll modules) := by
  simp [closeAll]

theorem closeAll_by_turns [Wasm.Machine] (modules : List Nat) :
    ∃ turns, ({ world := w, loads := [], close := .closing modules } : Shutdown).run k turns =
      some { world := (closeAll modules w).2, loads := [],
             close := .returned (closeAll modules w).1 } := by
  induction modules generalizing w with
  | nil => exact ⟨[.close], rfl⟩
  | cons id modules ih =>
    rw [closeAll_cons, bind_run]
    rcases hclose : closeModule id w with ⟨f | u, w₁⟩
    · refine ⟨[.close], ?_⟩
      simp [Shutdown.run, Shutdown.step, Shutting.step, hclose]
    · dsimp only
      rw [bind_run]
      rcases hdiscard : discardSignals id w₁ with ⟨f | u, w₂⟩
      · refine ⟨[.close, .close], ?_⟩
        simp [Shutdown.run, Shutdown.step, Shutting.step, hclose, hdiscard]
      · obtain ⟨turns, hturns⟩ := ih w₂
        refine ⟨.close :: .close :: turns, ?_⟩
        simpa [Shutdown.run, Shutdown.step, Shutting.step, hclose, hdiscard] using hturns

/-- A close that is left to itself comes to what the operation does. -/
theorem closeRuntime_by_turns [Wasm.Machine] :
    ∃ turns, (Shutdown.begin w []).run k turns =
      some { world := (closeRuntime k w).2, loads := [],
             close := .returned (closeRuntime k w).1 } := by
  have hclose : closeRuntime k w = (shutRuntime k >>= closeAll) w := rfl
  rw [hclose, bind_run]
  rcases hshut : shutRuntime k w with ⟨f | modules, w₁⟩
  · refine ⟨[.close], ?_⟩
    simp [Shutdown.run, Shutdown.begin, Shutdown.step, Shutting.step, hshut]
  · obtain ⟨turns, hturns⟩ := closeAll_by_turns k w₁ modules
    refine ⟨.close :: turns, ?_⟩
    simpa [Shutdown.run, Shutdown.begin, Shutdown.step, Shutting.step, hshut] using hturns

end

section

variable {w w' : World} {k id : Nat} {r : Runtime}

/-! ## What a turn does -/

/-- What a turn of a load comes to, in a world where the runtime is `r`. -/
inductive Loading.Steps (k : Nat) (r : Runtime) (w : World) : Loading → Loading → World → Prop
  | refused (bytes : Bytes) (hr : r.closed = true) :
      Steps k r w (.entered bytes) (.returned (.error runtimeClosed)) w
  | admitted (bytes : Bytes) (hr : r.closed = false) :
      Steps k r w (.entered bytes) (.admitted bytes) w
  | prepared (bytes : Bytes) {m : LoadedModule} {w' : World} (h : Lasts w w') (hm : Ready w' m) :
      Steps k r w (.admitted bytes) (.prepared m) w'
  | failed (bytes : Bytes) (f : Fault) {w' : World} (h : Lasts w w') :
      Steps k r w (.admitted bytes) (.returned (.error f)) w'
  | registered (m : LoadedModule) {w' : World} (hmodules : w'.modules = w.modules.push m)
      (hengines : w'.engines = w.engines)
      (hruntime : w'.runtimes[k]? = some { r with modules := r.modules ++ [w.modules.size] }) :
      Steps k r w (.prepared m) (.returned (.ok w.modules.size)) w'

theorem Loading.steps_of_step [Wasm.Machine] {l l' : Loading} (hr : w.runtimes[k]? = some r)
    (h : l.step k w = some (l', w')) : Loading.Steps k r w l l' w' := by
  cases l with
  | entered bytes =>
    simp only [Loading.step, checkOpen_run hr] at h
    cases hclosed : r.closed with
    | true =>
      simp only [hclosed, if_pos] at h
      cases h
      exact .refused bytes hclosed
    | false =>
      simp only [hclosed] at h
      cases h
      exact .admitted bytes hclosed
  | admitted bytes =>
    rcases hrun : prepare k bytes w with ⟨f | m, w₁⟩
    · simp only [Loading.step, hrun] at h
      cases h
      exact .failed bytes f (Keeps.of_run (prepare_lasts bytes) hrun)
    · simp only [Loading.step, hrun] at h
      cases h
      exact .prepared bytes (Keeps.of_run (prepare_lasts bytes) hrun) (prepare_ready hrun)
  | prepared m =>
    obtain ⟨record, hrun⟩ := register_run (k := k) m w
    simp only [Loading.step, hrun] at h
    cases h
    exact .registered m rfl rfl (getElem?_modify_self hr)
  | returned => cases h

/-- A load leaves everything that exists as it is. -/
structure Onward (w w' : World) : Prop where
  modules : ∀ id < w.modules.size, w'.modules[id]? = w.modules[id]?
  engines : EnginesStay w w'

theorem Loading.Steps.onward {l l' : Loading} (h : Loading.Steps k r w l l' w') : Onward w w' := by
  cases h with
  | refused | admitted => exact ⟨fun _ _ => rfl, enginesStay_of_eq rfl⟩
  | prepared _ h | failed _ _ h =>
    exact ⟨fun id _ => congrArg (·[id]?) h.modules, h.engines⟩
  | registered m hmodules hengines =>
    refine ⟨fun id hid => ?_, enginesStay_of_eq hengines⟩
    rw [hmodules, Array.getElem?_push, if_neg (by omega)]

/-- A load registers the module that it returns, and no other. -/
theorem Loading.Steps.runtime {l l' : Loading} (h : Loading.Steps k r w l l' w')
    (hr : w.runtimes[k]? = some r) : ∃ r', w'.runtimes[k]? = some r' ∧ r'.closed = r.closed ∧
      ∀ id, id ∈ r'.modules ↔ id ∈ r.modules ∨ l' = .returned (.ok id) := by
  cases h with
  | refused | admitted => exact ⟨r, hr, rfl, fun id => by simp⟩
  | prepared _ h | failed _ _ h =>
    exact ⟨r, (congrArg (·[k]?) h.runtimes).trans hr, rfl, fun id => by simp⟩
  | registered m _ _ hruntime => exact ⟨_, hruntime, rfl, fun id => by simp [eq_comm]⟩

theorem Loading.Steps.made {l : Loading} (h : Loading.Steps k r w l (.returned (.ok id)) w')
    (hready : ∀ m, l = .prepared m → Ready w m) :
    id = w.modules.size ∧ Intact w' id ∧ Forgotten w' id := by
  cases h with
  | registered m hmodules hengines =>
    have hm : w'.modules[w.modules.size]? = some m := by
      rw [hmodules]
      exact Array.getElem?_push_size
    obtain ⟨hopen, hstream, e, he⟩ := hready m rfl
    refine ⟨rfl, ⟨m, e, hm, (congrArg (·[m.engine]?) hengines).trans he, ?_⟩, m, hm, hopen, ?_⟩
    · simp [hopen]
    · rw [hstream]
      rfl

theorem Ready.later {m : LoadedModule} (h : Ready w m) (he : EnginesStay w w') : Ready w' m := by
  obtain ⟨e, hengine⟩ := h.engine
  obtain ⟨e', hengine', -⟩ := he _ e hengine
  exact ⟨h.isOpen, h.stream, e', hengine'⟩

end

namespace Shutdown

variable {turns : List Turn}

/-! ## Counting turns -/

theorem lead_concat_of_mem (h : .close ∈ turns) (t : Turn) (i : Nat) :
    lead (turns ++ [t]) i = lead turns i := by
  induction turns with
  | nil => cases h
  | cons t' turns ih =>
    by_cases ht' : t' = .close
    · simp [lead, ht']
    · have hmem : .close ∈ turns := (List.mem_cons.1 h).resolve_left (Ne.symm ht')
      simpa [lead, ht', List.count_cons] using ih hmem

theorem straddles_concat (h : .close ∈ turns) (t : Turn) (i : Nat) :
    Straddles (turns ++ [t]) i ↔ Straddles turns i := by
  rw [Straddles, Straddles, lead_concat_of_mem h]

theorem lead_append (h : .close ∉ turns) (rest : List Turn) (i : Nat) :
    lead (turns ++ rest) i = turns.count (.load i) + lead rest i := by
  rw [lead, List.takeWhile_append_of_pos, List.count_append, lead]
  intro t ht
  simpa using fun hclose : t = .close => h (hclose ▸ ht)

theorem lead_eq_count (h : .close ∉ turns) (i : Nat) : lead turns i = turns.count (.load i) := by
  simpa [lead] using lead_append h [] i

theorem lead_concat_close (h : .close ∉ turns) (i : Nat) :
    lead (turns ++ [.close]) i = lead turns i := by
  rw [lead_append h, lead_eq_count h]
  simp [lead]

theorem lead_concat_self (h : .close ∉ turns) (i : Nat) :
    lead (turns ++ [.load i]) i = lead turns i + 1 := by
  rw [lead_append h, lead_eq_count h]
  simp [lead]

theorem lead_concat_other (h : .close ∉ turns) {i j : Nat} (hj : i ≠ j) :
    lead (turns ++ [.load i]) j = lead turns j := by
  rw [lead_append h, lead_eq_count h]
  simp [lead, hj]

/-! ## Before the modules are taken -/

/-- Where a load stands after `n` turns, as long as the close has not begun. -/
inductive Early (w : World) : Nat → Loading → Prop
  | entered (bytes : Bytes) : Early w 0 (.entered bytes)
  | admitted (bytes : Bytes) : Early w 1 (.admitted bytes)
  | prepared {m : LoadedModule} (h : Ready w m) : Early w 2 (.prepared m)
  | failed (f : Fault) : Early w 2 (.returned (.error f))
  | registered (id : Nat) : Early w 3 (.returned (.ok id))

/-- Load `i` has returned module `id`. -/
def Returned (s : Shutdown) (i id : Nat) : Prop := s.loads[i]? = some (.returned (.ok id))

/-- The close has not begun. The modules of the runtime are those it had, `old`, and those that were
loaded since. -/
structure Before (k : Nat) (old : List Nat) (turns : List Turn) (s : Shutdown) : Prop where
  notYet : .close ∉ turns
  close : s.close = .entered
  runtime : ∃ r, s.world.runtimes[k]? = some r ∧ r.closed = false ∧
    (∀ id ∈ r.modules, Intact s.world id) ∧ (∀ id ∈ old, id ∈ r.modules) ∧
    ∀ i id, s.Returned i id → id ∈ r.modules
  loads : ∀ i l, s.loads[i]? = some l → Early s.world (lead turns i) l

variable {k : Nat} {old : List Nat} {s : Shutdown} {i : Nat} {l l' : Loading} {w : World}
  {r : Runtime}

theorem Early.later {n : Nat} {w' : World} (h : Early w n l) (he : EnginesStay w w') :
    Early w' n l := by
  cases h with
  | prepared h => exact .prepared (h.later he)
  | entered | admitted | failed | registered => constructor

/-- A load goes on from where it stands. -/
theorem Early.step {n : Nat} {w' : World} (h : Early w n l) (hr : r.closed = false)
    (hstep : Loading.Steps k r w l l' w') : Early w' (n + 1) l' := by
  cases hstep with
  | refused _ hclosed => cases hr.symm.trans hclosed
  | admitted bytes =>
    cases h
    exact .admitted bytes
  | prepared bytes _ hm =>
    cases h
    exact .prepared hm
  | failed bytes f =>
    cases h
    exact .failed f
  | registered m =>
    cases h
    exact .registered _

theorem Early.ready {n : Nat} {m : LoadedModule} (h : Early w n (.prepared m)) : Ready w m := by
  cases h with
  | prepared h => exact h

theorem Early.all_turns {n id : Nat} (h : Early w n (.returned (.ok id))) : n = 3 := by
  cases h with
  | registered => rfl

theorem getElem?_set_cases {j : Nat} {x : Loading} (h : (s.loads.set i l')[j]? = some x) :
    (i = j ∧ x = l') ∨ (i ≠ j ∧ s.loads[j]? = some x) := by
  rw [List.getElem?_set] at h
  split at h
  · split at h
    · exact .inl ⟨‹_›, (Option.some.inj h).symm⟩
    · cases h
  · exact .inr ⟨‹_›, h⟩

theorem Before.load {w' : World} (h : Before k old turns s) (hl : s.loads[i]? = some l)
    (hr : s.world.runtimes[k]? = some r) (hstep : Loading.Steps k r s.world l l' w') :
    Before k old (turns ++ [.load i]) { s with world := w', loads := s.loads.set i l' } := by
  obtain ⟨r', hr', hopen, hintact, hold, hreturned⟩ := h.runtime
  cases hr.symm.trans hr'
  have honward := hstep.onward
  have hlater {id : Nat} (hid : Intact s.world id) : Intact w' id :=
    hid.later (honward.modules id hid.lt_size) honward.engines
  refine ⟨by simpa using h.notYet, h.close, ?_, fun j x hx => ?_⟩
  · obtain ⟨r', hr', hclosed, hmodules⟩ := hstep.runtime hr
    refine ⟨r', hr', hclosed.trans hopen, fun id hid => ?_, fun id hid => ?_, fun j id hj => ?_⟩
    · rcases (hmodules id).1 hid with hid | rfl
      · exact hlater (hintact id hid)
      · exact (hstep.made fun m hm => (hm ▸ h.loads i l hl).ready).2.1
    · exact (hmodules id).2 (.inl (hold id hid))
    · rcases getElem?_set_cases hj with ⟨-, hl'⟩ | ⟨-, hj⟩
      · exact (hmodules id).2 (.inr hl'.symm)
      · exact (hmodules id).2 (.inl (hreturned j id hj))
  · rcases getElem?_set_cases hx with ⟨rfl, rfl⟩ | ⟨hj, hx⟩
    · rw [lead_concat_self h.notYet]
      exact (h.loads i l hl).step hopen hstep
    · rw [lead_concat_other h.notYet hj]
      exact (h.loads j x hx).later honward.engines

/-! ## Once the modules are taken -/

/-- Where a load stands that had `n` turns before the modules were taken. -/
inductive Late (w : World) (taken : List Nat) : Nat → Loading → Prop
  | entered (bytes : Bytes) : Late w taken 0 (.entered bytes)
  | refused : Late w taken 0 (.returned (.error runtimeClosed))
  | admitted (bytes : Bytes) : Late w taken 1 (.admitted bytes)
  | prepared {n : Nat} {m : LoadedModule} (hn : n = 1 ∨ n = 2) (h : Ready w m) :
      Late w taken n (.prepared m)
  | failed {n : Nat} (hn : n = 1 ∨ n = 2) (f : Fault) : Late w taken n (.returned (.error f))
  | registered {id : Nat} (h : id ∈ taken) : Late w taken 3 (.returned (.ok id))
  | straddled {n : Nat} (hn : n = 1 ∨ n = 2) (id : Nat) : Late w taken n (.returned (.ok id))

/-- Where the close stands with the modules that it took. -/
inductive Closes (w : World) (taken : List Nat) : Shutting → Prop
  | closing (done : List Nat) {modules : List Nat} (htaken : taken = done ++ modules)
      (hdone : ∀ id ∈ done, Retired w id) : Closes w taken (.closing modules)
  | discarding (done : List Nat) {id : Nat} {modules : List Nat}
      (htaken : taken = done ++ id :: modules) (hdone : ∀ id ∈ done, Retired w id)
      (hid : Shut w id) : Closes w taken (.discarding id modules)
  | returned (hdone : ∀ id ∈ taken, Retired w id) : Closes w taken (.returned (.ok ()))

/-- The close has begun and takes care of the modules it took. The runtime has the modules of the
loads that straddle this moment. -/
structure After (k : Nat) (old taken : List Nat) (turns : List Turn) (s : Shutdown) : Prop where
  begun : .close ∈ turns
  runtime : ∃ r, s.world.runtimes[k]? = some r ∧ r.closed = true ∧
    ∀ id, id ∈ r.modules ↔ ∃ i, s.Returned i id ∧ Straddles turns i
  old : ∀ id ∈ old, id ∈ taken
  intact : ∀ id ∈ taken, Intact s.world id
  forgotten : ∀ i id, s.Returned i id → Straddles turns i → Forgotten s.world id ∧ id ∉ taken
  loads : ∀ i l, s.loads[i]? = some l → Late s.world taken (lead turns i) l
  close : Closes s.world taken s.close

variable {taken : List Nat} {n : Nat} {w' : World}

theorem Late.later (h : Late w taken n l) (he : EnginesStay w w') : Late w' taken n l := by
  cases h with
  | prepared hn h => exact .prepared hn (h.later he)
  | entered => exact .entered _
  | refused => exact .refused
  | admitted => exact .admitted _
  | failed hn f => exact .failed hn f
  | registered h => exact .registered h
  | straddled hn id => exact .straddled hn id

theorem Late.ready {m : LoadedModule} (h : Late w taken n (.prepared m)) : Ready w m := by
  cases h with
  | prepared _ h => exact h

/-- The module of a load is registered late only if the load straddles. -/
theorem Late.step (h : Late w taken n l) (hr : r.closed = true)
    (hstep : Loading.Steps k r w l l' w') : Late w' taken n l' := by
  cases hstep with
  | refused =>
    cases h
    exact .refused
  | admitted _ hopen => cases hr.symm.trans hopen
  | prepared _ _ hm =>
    cases h
    exact .prepared (.inl rfl) hm
  | failed _ f =>
    cases h
    exact .failed (.inl rfl) f
  | registered m =>
    cases h with
    | prepared hn => exact .straddled hn _

theorem Early.late (h : Early w n l) (htaken : ∀ id, l = .returned (.ok id) → id ∈ taken) :
    Late w taken n l := by
  cases h with
  | entered bytes => exact .entered bytes
  | admitted bytes => exact .admitted bytes
  | prepared h => exact .prepared (.inr rfl) h
  | failed f => exact .failed (.inr rfl) f
  | registered id => exact .registered (htaken id rfl)

/-- A module that was not taken is that of a load that straddles. -/
theorem Late.straddles {id : Nat} (h : Late w taken n (.returned (.ok id))) (hid : id ∉ taken) :
    0 < n ∧ n < 3 := by
  cases h with
  | registered h => exact absurd h hid
  | straddled hn => omega

theorem Closes.later {c : Shutting} (h : Closes w taken c) (honward : Onward w w') :
    Closes w' taken c := by
  have hretired {id : Nat} (hid : Retired w id) : Retired w' id :=
    hid.later (honward.modules id hid.intact.lt_size) honward.engines
  cases h with
  | closing done htaken hdone => exact .closing done htaken fun id hid => hretired (hdone id hid)
  | discarding done htaken hdone hid =>
    refine .discarding done htaken (fun id hid => hretired (hdone id hid)) ?_
    exact hid.later (honward.modules _ hid.intact.lt_size) honward.engines
  | returned hdone => exact .returned fun id hid => hretired (hdone id hid)

/-- The first turn of the close. -/
theorem Before.take (h : Before k old turns s) (hr : s.world.runtimes[k]? = some r)
    (hw : w' = { s.world with
      runtimes := s.world.runtimes.modify k fun r => { r with modules := [], closed := true } }) :
    After k old r.modules (turns ++ [.close])
      { s with world := w', close := .closing r.modules } := by
  subst hw
  obtain ⟨r', hr', hopen, hintact, hold, hreturned⟩ := h.runtime
  cases hr.symm.trans hr'
  have hleads (i : Nat) : lead (turns ++ [.close]) i = lead turns i :=
    lead_concat_close h.notYet i
  -- A load that has returned a module by now had all its turns.
  have hnone {i id : Nat} (hi : s.Returned i id) : ¬Straddles (turns ++ [.close]) i := by
    rintro ⟨-, hlt⟩
    rw [hleads, (h.loads i _ hi).all_turns] at hlt
    omega
  refine ⟨by simp, ⟨_, getElem?_modify_self hr, rfl, fun id => ?_⟩, hold, hintact, ?_, ?_, ?_⟩
  · simp only [List.not_mem_nil, false_iff]
    rintro ⟨i, hi, hstraddles⟩
    exact hnone hi hstraddles
  · exact fun i id hi hstraddles => absurd hstraddles (hnone hi)
  · intro i l hl
    rw [hleads]
    refine Late.later (Early.late (h.loads i l hl) fun id hid => ?_) (enginesStay_of_eq rfl)
    exact hreturned i id (hl.trans (congrArg some hid))
  · exact .closing [] rfl fun id hid => by cases hid

theorem After.load (h : After k old taken turns s) (hl : s.loads[i]? = some l)
    (hr : s.world.runtimes[k]? = some r) (hstep : Loading.Steps k r s.world l l' w') :
    After k old taken (turns ++ [.load i]) { s with world := w', loads := s.loads.set i l' } := by
  obtain ⟨r', hr', hclosed, hmodules⟩ := h.runtime
  cases hr.symm.trans hr'
  have honward := hstep.onward
  have hstraddles (j : Nat) : Straddles (turns ++ [.load i]) j ↔ Straddles turns j :=
    straddles_concat h.begun _ j
  have hlate : Late w' taken (lead turns i) l' := (h.loads i l hl).step hclosed hstep
  have hnew {id : Nat} (hid : l' = .returned (.ok id)) :
      Straddles turns i ∧ Forgotten w' id ∧ id ∉ taken := by
    subst hid
    obtain ⟨rfl, -, hforgotten⟩ := hstep.made fun m hm => (hm ▸ h.loads i l hl).ready
    have htaken : s.world.modules.size ∉ taken := fun hmem =>
      absurd (h.intact _ hmem).lt_size (Nat.lt_irrefl _)
    exact ⟨hlate.straddles htaken, hforgotten, htaken⟩
  have hkept {j id : Nat} (hj : s.Returned j id) :
      (s.loads.set i l')[j]? = some (.returned (.ok id)) := by
    have hne : i ≠ j := by
      rintro rfl
      cases hl.symm.trans hj
      cases hstep
    exact (List.getElem?_set_ne hne).trans hj
  obtain ⟨r', hr', hclosed', hmodules'⟩ := hstep.runtime hr
  refine ⟨by simp [h.begun], ⟨r', hr', hclosed'.trans hclosed, fun id => ?_⟩, h.old, ?_, ?_, ?_, ?_⟩
  · rw [hmodules', hmodules]
    constructor
    · rintro (⟨j, hj, hstraddle⟩ | hid)
      · exact ⟨j, hkept hj, (hstraddles j).2 hstraddle⟩
      · refine ⟨i, ?_, (hstraddles i).2 (hnew hid).1⟩
        rw [Returned, List.getElem?_set_self (List.getElem?_eq_some_iff.1 hl).1, hid]
    · rintro ⟨j, hj, hstraddle⟩
      rcases getElem?_set_cases hj with ⟨-, hid⟩ | ⟨-, hj⟩
      · exact .inr hid.symm
      · exact .inl ⟨j, hj, (hstraddles j).1 hstraddle⟩
  · exact fun id hid => (h.intact id hid).later
      (honward.modules id (h.intact id hid).lt_size) honward.engines
  · intro j id hj hstraddle
    rcases getElem?_set_cases hj with ⟨-, hid⟩ | ⟨-, hj⟩
    · exact (hnew hid.symm).2
    · obtain ⟨hforgotten, htaken⟩ := h.forgotten j id hj ((hstraddles j).1 hstraddle)
      refine ⟨hforgotten.later (honward.modules id ?_), htaken⟩
      obtain ⟨m, hm, -⟩ := hforgotten
      exact (Array.getElem?_eq_some_iff.1 hm).1
  · intro j x hx
    rw [lead_concat_of_mem h.begun]
    rcases getElem?_set_cases hx with ⟨rfl, rfl⟩ | ⟨-, hx⟩
    · exact hlate
    · exact (h.loads j x hx).later honward.engines
  · exact h.close.later honward

/-- A turn of the close that concerns no other modules than those it took. -/
theorem After.turn {c : Shutting} (h : After k old taken turns s)
    (hruntimes : w'.runtimes = s.world.runtimes) (hengines : EnginesStay s.world w')
    (hothers : ∀ id ∉ taken, w'.modules[id]? = s.world.modules[id]?)
    (hintact : ∀ id ∈ taken, Intact w' id) (hclose : Closes w' taken c) :
    After k old taken (turns ++ [.close]) { s with world := w', close := c } := by
  have hstraddles (j : Nat) : Straddles (turns ++ [.close]) j ↔ Straddles turns j :=
    straddles_concat h.begun _ j
  obtain ⟨r, hr, hclosed, hmodules⟩ := h.runtime
  refine ⟨by simp, ⟨r, ?_, hclosed, fun id => ?_⟩, h.old, hintact, ?_, ?_, hclose⟩
  · exact (congrArg (·[k]?) hruntimes).trans hr
  · simp only [hmodules, hstraddles]
    rfl
  · intro j id hj hstraddle
    obtain ⟨hforgotten, htaken⟩ := h.forgotten j id hj ((hstraddles j).1 hstraddle)
    exact ⟨hforgotten.later (hothers id htaken), htaken⟩
  · intro j x hx
    rw [lead_concat_of_mem h.begun]
    exact Late.later (h.loads j x hx) hengines

/-- A turn of the close that concerns one of the modules it took. -/
theorem After.turn_beside {c : Shutting} {id : Nat} (h : After k old taken turns s)
    (hid : id ∈ taken) (hbeside : Beside s.world w' id) (hintact : Intact w' id)
    (hclose : Closes w' taken c) :
    After k old taken (turns ++ [.close]) { s with world := w', close := c } := by
  refine h.turn hbeside.runtimes hbeside.engines (fun j hj => ?_) (fun j hj => ?_) hclose
  · exact hbeside.others j fun heq => hj (heq ▸ hid)
  · by_cases hne : j = id
    · exact hne ▸ hintact
    · exact (h.intact j hj).later (hbeside.others j hne) hbeside.engines

theorem After.close_step [Wasm.Machine] {c : Shutting} (h : After k old taken turns s)
    (hstep : s.close.step k s.world = some (c, w')) :
    After k old taken (turns ++ [.close]) { s with world := w', close := c } := by
  generalize hc : s.close = close at hstep
  cases hc ▸ h.close with
  | @closing done modules htaken hretired =>
    cases modules with
    | nil =>
      cases hstep
      refine h.turn rfl (enginesStay_of_eq rfl) (fun _ _ => rfl) h.intact (.returned ?_)
      rw [htaken, List.append_nil]
      exact hretired
    | cons id modules =>
      have hid : id ∈ taken := htaken ▸ List.mem_append_right _ List.mem_cons_self
      obtain ⟨w₁, hrun, hbeside, hshut, hkept⟩ := (h.intact id hid).close
      simp only [Shutting.step, hrun] at hstep
      cases hstep
      refine h.turn_beside hid hbeside hshut.intact ?_
      exact .discarding done htaken (hbeside.retired hkept hretired) hshut
  | @discarding done id modules htaken hretired hshut =>
    have hid : id ∈ taken := htaken ▸ List.mem_append_right _ List.mem_cons_self
    obtain ⟨w₁, hrun, hbeside, hdiscarded⟩ := hshut.discard
    simp only [Shutting.step, hrun] at hstep
    cases hstep
    refine h.turn_beside hid hbeside hdiscarded.intact ?_
    refine .closing (done ++ [id]) (by simp [htaken]) ?_
    intro j hj
    rcases List.mem_append.1 hj with hj | hj
    · exact hbeside.retired (fun _ => hdiscarded) hretired j hj
    · exact List.mem_singleton.1 hj ▸ hdiscarded
  | returned => cases hstep

/-! ## All turns -/

/-- Whether the close has begun or not, everything is in order. -/
def Sound (k : Nat) (old : List Nat) (turns : List Turn) (s : Shutdown) : Prop :=
  Before k old turns s ∨ ∃ taken, After k old taken turns s

theorem sound_begin (requests : List Bytes) (hr : w.runtimes[k]? = some r)
    (hopen : r.closed = false) (hintact : ∀ id ∈ r.modules, Intact w id) :
    Sound k r.modules [] (begin w requests) := by
  have hentered {i : Nat} {l : Loading} (hl : (begin w requests).loads[i]? = some l) :
      ∃ bytes, l = .entered bytes := by
    rw [begin, List.getElem?_map] at hl
    obtain ⟨bytes, -, hbytes⟩ := Option.map_eq_some_iff.1 hl
    exact ⟨bytes, hbytes.symm⟩
  refine .inl ⟨List.not_mem_nil, rfl, ⟨r, hr, hopen, hintact, fun _ h => h, ?_⟩, ?_⟩
  · intro i id hi
    obtain ⟨bytes, hbytes⟩ := hentered hi
    cases hbytes
  · intro i l hl
    obtain ⟨bytes, rfl⟩ := hentered hl
    exact .entered bytes

theorem Sound.step [Wasm.Machine] {t : Turn} {s' : Shutdown} (h : Sound k old turns s)
    (hstep : s.step k t = some s') : Sound k old (turns ++ [t]) s' := by
  cases t with
  | load i =>
    obtain ⟨l, hl, hrest⟩ := Option.bind_eq_some_iff.1 hstep
    obtain ⟨⟨l', w'⟩, hnext, hs'⟩ := Option.bind_eq_some_iff.1 hrest
    cases hs'
    rcases h with h | ⟨taken, h⟩
    · obtain ⟨r, hr, -⟩ := h.runtime
      exact .inl (h.load hl hr (Loading.steps_of_step hr hnext))
    · obtain ⟨r, hr, -⟩ := h.runtime
      exact .inr ⟨taken, h.load hl hr (Loading.steps_of_step hr hnext)⟩
  | close =>
    obtain ⟨⟨c, w'⟩, hnext, hs'⟩ := Option.bind_eq_some_iff.1 hstep
    cases hs'
    rcases h with h | ⟨taken, h⟩
    · obtain ⟨r, hr, -⟩ := h.runtime
      simp only [h.close, Shutting.step, shutRuntime_run hr] at hnext
      cases hnext
      exact .inr ⟨r.modules, h.take hr rfl⟩
    · exact .inr ⟨taken, h.close_step hnext⟩

theorem Sound.run [Wasm.Machine] {rest : List Turn} {s' : Shutdown} (h : Sound k old turns s)
    (hrun : s.run k rest = some s') : Sound k old (turns ++ rest) s' := by
  induction rest generalizing turns s with
  | nil =>
    cases hrun
    rwa [List.append_nil]
  | cons t rest ih =>
    obtain ⟨s₁, hstep, hrest⟩ := Option.bind_eq_some_iff.1 hrun
    rw [← List.singleton_append, ← List.append_assoc]
    exact ih (h.step hstep) hrest

/-- Every module that a load returned is closed with its stream discarded, and the runtime has none
left. -/
def Reached (k : Nat) (s : Shutdown) : Prop :=
  (∀ i id, s.Returned i id → Retired s.world id) ∧
    ∃ r, s.world.runtimes[k]? = some r ∧ r.modules = []

theorem After.returned {id : Nat} (h : After k old taken turns s)
    (hretired : ∀ id ∈ taken, Retired s.world id) (hi : s.Returned i id) :
    if Straddles turns i then Forgotten s.world id else Retired s.world id := by
  split
  next hstraddles => exact (h.forgotten i id hi hstraddles).1
  next hstraddles =>
    by_contra hremains
    exact hstraddles ((h.loads i _ hi).straddles fun hid => hremains (hretired id hid))

/-- Once all calls have returned, the close has succeeded, and the modules it took are closed with
their streams discarded: those the runtime had before, and those registered by then. A load that had
not looked by then was refused. What is left in the runtime are the modules of the loads that
straddle, open and with their streams. -/
theorem closing_reaches_all_but_straddling_loads [Wasm.Machine] {w : World} {k : Nat} {r : Runtime}
    (hr : w.runtimes[k]? = some r) (hopen : r.closed = false)
    (hintact : ∀ id ∈ r.modules, Intact w id) {requests : List Bytes} {turns : List Turn}
    {s : Shutdown} (hrun : (begin w requests).run k turns = some s) (hdone : s.Finished) :
    s.close = .returned (.ok ()) ∧ (∀ id ∈ r.modules, Retired s.world id) ∧
      (∀ i out, s.loads[i]? = some (.returned out) → lead turns i = 0 →
        out = .error runtimeClosed) ∧
      (∀ i id, s.Returned i id →
        if Straddles turns i then Forgotten s.world id else Retired s.world id) ∧
      (∃ r', s.world.runtimes[k]? = some r' ∧ r'.closed = true ∧
        ∀ id, id ∈ r'.modules ↔ ∃ i, s.Returned i id ∧ Straddles turns i) ∧
      (Reached k s ↔ ∀ i id, s.Returned i id → ¬Straddles turns i) := by
  obtain hbefore | ⟨taken, hafter⟩ := (sound_begin requests hr hopen hintact).run hrun
  · obtain ⟨out, hout⟩ := hdone.close
    cases hbefore.close.symm.trans hout
  rw [List.nil_append] at hafter
  obtain ⟨hclose, hretired⟩ : s.close = .returned (.ok ()) ∧ ∀ id ∈ taken, Retired s.world id := by
    obtain ⟨out, hout⟩ := hdone.close
    cases hout ▸ hafter.close with
    | returned hretired => exact ⟨hout, hretired⟩
  have hreturned {i id : Nat} (hi : s.Returned i id) := hafter.returned hretired hi
  refine ⟨hclose, fun id hid => hretired id (hafter.old id hid), ?_, fun i id hi => hreturned hi,
    hafter.runtime, ?_⟩
  · intro i out hout hlead
    cases hlead ▸ hafter.loads i _ hout with
    | refused => rfl
    | failed hn | straddled hn => omega
  · obtain ⟨r', hr', -, hmodules⟩ := hafter.runtime
    constructor
    · rintro ⟨hall, -⟩ i id hi hstraddles
      have hforgotten : Forgotten s.world id := by simpa [hstraddles] using hreturned hi
      exact hforgotten.not_retired (hall i id hi)
    · intro hnone
      refine ⟨fun i id hi => by simpa [hnone i id hi] using hreturned hi, r', hr', ?_⟩
      refine List.eq_nil_iff_forall_not_mem.2 fun id hid => ?_
      obtain ⟨i, hi, hstraddles⟩ := (hmodules id).1 hid
      exact hnone i id hi hstraddles

/-! ## A load that straddles -/

/-- What a load has returned. -/
def module? : Loading → Option Nat
  | .returned (.ok id) => some id
  | _ => none

/-- Whether a close has returned. -/
def ended : Shutting → Bool
  | .returned _ => true
  | _ => false

/-- The close has returned, and the loads have returned these modules. -/
def Returns (s : Shutdown) (ids : List Nat) : Prop :=
  ended s.close = true ∧ s.loads.map module? = ids.map some

instance (s : Shutdown) (ids : List Nat) : Decidable (s.Returns ids) :=
  inferInstanceAs (Decidable (_ ∧ _))

theorem module?_eq_some {id : Nat} (h : module? l = some id) : l = .returned (.ok id) := by
  unfold module? at h
  split at h
  · cases h
    rfl
  · cases h

theorem returned_of_ended {c : Shutting} (h : ended c = true) : ∃ out, c = .returned out := by
  cases c with
  | returned out => exact ⟨out, rfl⟩
  | entered | closing | discarding => cases h

theorem Returns.finished {ids : List Nat} (h : s.Returns ids) : s.Finished := by
  constructor
  · intro l hl
    obtain ⟨id, -, hid⟩ := List.mem_map.1 (h.2 ▸ List.mem_map_of_mem hl)
    exact ⟨_, module?_eq_some hid.symm⟩
  · exact returned_of_ended h.1

theorem Returns.returned {ids : List Nat} {id : Nat} (h : s.Returns ids) (hi : ids[i]? = some id) :
    s.Returned i id := by
  have hloads := congrArg (·[i]?) h.2
  simp only [List.getElem?_map, hi, Option.map_some] at hloads
  obtain ⟨l, hl, hmodule⟩ := Option.map_eq_some_iff.1 hloads
  exact hl.trans (congrArg some (module?_eq_some hmodule))

/-- A load looks whether the runtime is open before the close takes the modules, which are none, and
registers its module after the close has returned. -/
def straddling : List Turn := [.load 0, .close, .close, .load 0, .load 0]

theorem straddling_load_is_forgotten :
    ∃ s, (begin fresh [Wasm.header]).run 0 straddling = some s ∧ s.Finished ∧ s.Returned 0 0 ∧
      Forgotten s.world 0 ∧ (s.world.engines[0]?.map (·.closed)) = some false ∧
      (s.world.runtimes[0]?.map fun r => (r.closed, r.modules)) = some (true, [0]) ∧
      ¬Reached 0 s := by
  have hrun : ((begin fresh [Wasm.header]).run 0 straddling).any (fun s => s.Returns [0] ∧
      (s.world.modules[0]?.map fun m => (m.closed, m.stream.discarded)) = some (false, false) ∧
      (s.world.engines[0]?.map (·.closed)) = some false ∧
      (s.world.runtimes[0]?.map fun r => (r.closed, r.modules)) = some (true, [0])) = true := by
    decide +kernel
  obtain ⟨s, hs, hview⟩ := Option.any_eq_true _ _ |>.1 hrun
  obtain ⟨hreturns, hmodule, hengine, hruntime⟩ := of_decide_eq_true hview
  obtain ⟨m, hm, hopen⟩ := Option.map_eq_some_iff.1 hmodule
  obtain ⟨hclosed, hdiscarded⟩ := Prod.mk.inj hopen
  have hforgotten : Forgotten s.world 0 := ⟨m, hm, hclosed, hdiscarded⟩
  have hreturned : s.Returned 0 0 := hreturns.returned rfl
  exact ⟨s, hs, hreturns.finished, hreturned, hforgotten, hengine, hruntime,
    fun h => hforgotten.not_retired (h.1 0 0 hreturned)⟩

/-- The first load is done when the close begins. The second one has only looked whether the runtime
is open, and gets its turns while the module of the first one is closed. -/
def overtaken : List Turn :=
  [.load 0, .load 0, .load 0, .load 1, .close, .load 1, .close, .close, .load 1, .close]

theorem overtaken_load_is_not_reached :
    ∃ s, (begin fresh [Wasm.header, Wasm.header]).run 0 overtaken = some s ∧ s.Finished ∧
      s.Returned 0 0 ∧ s.Returned 1 1 ∧ Retired s.world 0 ∧ Forgotten s.world 1 ∧ ¬Reached 0 s := by
  have hrun : ((begin fresh [Wasm.header, Wasm.header]).run 0 overtaken).any
      (fun s => s.Returns [0, 1]) = true := by
    decide +kernel
  obtain ⟨s, hs, hview⟩ := Option.any_eq_true _ _ |>.1 hrun
  have hreturns : s.Returns [0, 1] := of_decide_eq_true hview
  have hfirst : s.Returned 0 0 := hreturns.returned rfl
  have hsecond : s.Returned 1 1 := hreturns.returned rfl
  have hruntime : fresh.runtimes[0]? = some { config := {} } := rfl
  obtain ⟨-, -, -, hfate, -, hreached⟩ := closing_reaches_all_but_straddling_loads hruntime rfl
    (fun _ h => by cases h) hs hreturns.finished
  have hstraddles : Straddles overtaken 1 := by decide
  refine ⟨s, hs, hreturns.finished, hfirst, hsecond, hfate 0 0 hfirst, hfate 1 1 hsecond, ?_⟩
  exact fun h => hreached.1 h 1 1 hsecond hstraddles

end Shutdown

end GuestThreads.World
