import GuestThreads.Proofs.Worker.Attribution
import GuestThreads.Proofs.World.Population

/-!
# What workers blame

The fault of a failed bring-up names the step that failed, if instances are made by an engine or if
the scripted guest does not pass off reports as its own. With an engine, a function is never called
with a wrong number of arguments.
-/

namespace GuestThreads

/-! ## The faults of an action -/

namespace Fault

/-- Nothing in the chain is about the number of arguments of a call. -/
def ArityFree (f : Fault) : Prop := ∀ expected given, .external (.arity expected given) ∉ f.chain

variable {r : Report} {f : Fault}

theorem arityFree_report (r : Report) : (report r).ArityFree :=
  fun _ _ h => by cases List.mem_singleton.1 h

theorem ArityFree.causedBy (h : f.ArityFree) : (Fault.causedBy r f).ArityFree := by
  intro expected given hmem
  rcases List.mem_cons.1 hmem with hmem | hmem
  · cases hmem
  · exact h expected given hmem

theorem arityFree_external {c : Cause} (h : ∀ expected given, c ≠ .arity expected given) :
    (external c).ArityFree := by
  intro expected given hmem
  cases List.mem_singleton.1 hmem
  exact h expected given rfl

theorem ArityFree.within (h : f.ArityFree) (place : String) : (Fault.within place f).ArityFree := by
  intro expected given hmem
  rcases List.mem_cons.1 hmem with hmem | hmem
  · cases hmem
  · exact h expected given hmem

theorem arityFree_unreadableImports (e : Wasm.Import.ScanError) :
    (unreadableImports e).ArityFree := by
  have hstopped (failure : Cursor.Failure) : (ofFailure failure).ArityFree :=
    (arityFree_external (by simp)).within _
  refine ArityFree.within ?_ _
  cases e with
  | unreadable failure => exact hstopped failure
  | sectionHeader id failure => exact (hstopped failure).within _
  | notWasm | sectionOverrun | unknownKind | limits => exact arityFree_external (by simp)

end Fault

/-- A start function takes no arguments and has no results. -/
class Wasm.Machine.ChecksStarts [Wasm.Machine] : Prop where
  funcType? : ∀ {pageLimit : Nat} {bytes : Bytes} {m : Wasm.Module} {start : Nat},
    compile? pageLimit bytes = some m → m.start = some start → m.funcType? start = some {}

instance Wasm.interpreter_checksStarts : Wasm.Machine.ChecksStarts where
  funcType? h hstart := by
    have hvalid := (Wasm.compile?_eq_some_iff.1 h).2
    simp only [Wasm.Module.valid, Bool.and_eq_true] at hvalid
    have hstart' : Wasm.Module.validStart _ = true := hvalid.1.2
    simpa [Wasm.Module.validStart, hstart] using hstart'

namespace World

variable {α β : Type} {P : Fault → Prop} {w : World}

theorem unknown_arityFree : unknown.ArityFree :=
  fun _ _ h => by cases List.mem_singleton.1 h

/-- Run in `w`, the action fails with nothing but faults of this sort. -/
def ThrowsAt (P : Fault → Prop) (w : World) (act : Try α) : Prop :=
  ∀ f w', act w = (.error f, w') → P f

def Throws (P : Fault → Prop) (act : Try α) : Prop := ∀ w, ThrowsAt P w act

theorem ThrowsAt.bind {x : Try α} {f : α → Try β} (hx : ThrowsAt P w x)
    (hf : ∀ a w', x w = (.ok a, w') → ThrowsAt P w' (f a)) : ThrowsAt P w (x >>= f) := by
  intro e w' h
  rw [bind_run] at h
  rcases hrun : x w with ⟨e' | a, w₁⟩
  · rw [hrun] at h
    cases h
    exact hx e w' hrun
  · rw [hrun] at h
    exact hf a w₁ hrun e w' h

namespace Throws

theorem ok (a : α) : Throws P (pure a : Try α) := fun _ _ _ h => by cases h

theorem fail {f : Fault} (h : P f) : Throws P (throw f : Try α) := fun _ _ _ hrun => by
  cases hrun
  exact h

theorem failThen {f : Fault} (h : P f) (g : α → Try β) : Throws P ((throw f : Try α) >>= g) :=
  fun _ _ _ hrun => by
    cases hrun
    exact h

theorem bind {x : Try α} {f : α → Try β} (hx : Throws P x) (hf : ∀ a, Throws P (f a)) :
    Throws P (x >>= f) := fun w => (hx w).bind fun a w' _ => hf a w'

theorem lift (x : Act α) : Throws P (liftM x : Try α) := fun _ _ _ h => by cases h

theorem read : Throws P (get : Try World) := fun _ _ _ h => by cases h

theorem alter (f : World → World) : Throws P (modify f : Try Unit) := fun _ _ _ h => by cases h

theorem finds {act : Try α} {found? : World → Option α} (h : Finds act found?)
    (hunknown : P unknown) : Throws P act := by
  intro w f w' hrun
  rw [h w] at hrun
  cases hw : found? w with
  | none =>
    rw [hw] at hrun
    cases hrun
    exact hunknown
  | some a =>
    rw [hw] at hrun
    cases hrun

theorem orElse {x : Try α} {handler : Fault → Try α} (h : ∀ f, Throws P (handler f)) :
    Throws P (tryCatch x handler) := by
  intro w f w' hrun
  rw [tryCatch_run] at hrun
  rcases hx : x w with ⟨e | a, w₁⟩
  · rw [hx] at hrun
    exact h e w₁ f w' hrun
  · rw [hx] at hrun
    cases hrun

end Throws

theorem ThrowsAt.find {act : Try α} {found? : World → Option α} {f : α → Try β}
    (h : Finds act found?) (hunknown : P unknown)
    (hf : ∀ a, found? w = some a → ThrowsAt P w (f a)) : ThrowsAt P w (act >>= f) := by
  refine (Throws.finds h hunknown w).bind fun a w' hrun => ?_
  obtain ⟨ha, rfl⟩ := h.ok hrun
  exact hf a ha

/-! ## Setting the stack pointer -/

theorem telling_report {phase : Phase} {r : Report} (hphase : r.phase = phase)
    (hkind : r.kind ≠ .trap) : Worker.Telling phase (.report r) :=
  .inr ⟨r, rfl, hphase, hkind⟩

theorem telling_unknown (phase : Phase) : Worker.Telling phase unknown := .inl rfl

theorem setInstanceGlobal_throws (k : Nat) (name : String) (v : UInt32) :
    Throws (fun f => Worker.Telling .stack f ∧ f.ArityFree) (setInstanceGlobal k name v) := by
  have hunknown : Worker.Telling .stack unknown ∧ unknown.ArityFree :=
    ⟨telling_unknown _, unknown_arityFree⟩
  have hreport (r : Report) (hphase : r.phase = .stack) (hkind : r.kind ≠ .trap) :
      Worker.Telling .stack (.report r) ∧ (Fault.report r).ArityFree :=
    ⟨telling_report hphase hkind, Fault.arityFree_report r⟩
  refine .bind (.finds (liveInstance_finds k) hunknown) fun i => ?_
  dsimp only
  split
  · exact .failThen (hreport _ rfl (by decide)) _
  · refine .bind .read fun w => ?_
    split
    · exact .fail (hreport _ rfl (by simp [Kind.missingExport, Kind.trap]))
    · split
      · exact .fail hunknown
      · split
        · exact .failThen (hreport _ rfl (by simp [Kind.typeMismatch, Kind.trap])) _
        · split
          · exact .failThen (hreport _ rfl (by simp [Kind.typeMismatch, Kind.trap])) _
          · exact .alter _

/-! ## Calls with the right number of arguments -/

theorem closingFault_arityFree (why : Wasm.Closing) : (closingFault why).ArityFree := by
  cases why <;> exact Fault.arityFree_external (by simp)

theorem outcome_arityFree {trap : Wasm.Trap → List Wasm.Call → Cause}
    (htrap : ∀ t calls, (Fault.external (trap t calls)).ArityFree) {ending : Wasm.Ending}
    {f : Fault} (h : outcome trap ending = .error f) : f.ArityFree := by
  cases ending with
  | finished results => cases h
  | trapped reason calls =>
    cases h
    exact htrap reason calls
  | closed why =>
    cases h
    exact closingFault_arityFree why
  | exhausted =>
    cases h
    exact Fault.arityFree_external (by simp)

theorem unlessClosed_throws (owner : Wasm.Owner) (results : List UInt64) :
    Throws Fault.ArityFree (unlessClosed owner results) := by
  refine .bind .read fun w => ?_
  split
  · exact .fail (closingFault_arityFree _)
  · exact .ok _

theorem findFunction_throws (k : Nat) (name : String) :
    Throws Fault.ArityFree (findFunction k name) := by
  refine .bind (.finds (liveInstance_finds k) unknown_arityFree) fun i => .bind .read fun w => ?_
  split
  · exact .fail (Fault.arityFree_external (by simp))
  · exact .bind (.finds (engine_finds _) unknown_arityFree) fun e => .ok _

/-- A function that is found is an export of the instance. -/
theorem findFunction_found {k : Nat} {name : String} {found : LiveInstance × Engine × Nat}
    {w' : World} (h : findFunction k name w = (.ok found, w')) :
    w' = w ∧ w.instances[k]? = some found.1 ∧
      ∃ x f, w.export? found.1 .func name = some (x, f) ∧ found.2.2 = f.index := by
  obtain ⟨i, v, hi, hrest⟩ := bind_ok (x := liveInstance k) h
  obtain ⟨hinstance, rfl⟩ := (liveInstance_finds k).ok hi
  replace hrest := (read_run _ v).symm.trans hrest
  cases hexport : v.export? i .func name with
  | none =>
    rw [hexport] at hrest
    cases hrest
  | some out =>
    rw [hexport] at hrest
    obtain ⟨e, u, he, hpure⟩ := bind_ok hrest
    obtain ⟨-, rfl⟩ := (engine_finds _).ok he
    cases hpure
    exact ⟨rfl, hinstance, out.1, out.2, hexport, rfl⟩

theorem checkMemoryImport_arityFree {wanted : Config.ImportName} {pages maxPages : UInt32}
    {bytes : Bytes} {f : Fault} (h : checkMemoryImport wanted pages maxPages bytes = .error f) :
    f.ArityFree := by
  have hmissing (imports : List MissingImport) : (Fault.missingImports imports).ArityFree :=
    fun _ _ h => by cases List.mem_singleton.1 h
  unfold checkMemoryImport at h
  split at h
  · cases h
    exact Fault.arityFree_unreadableImports _
  · dsimp only at h
    split at h
    · cases h
      exact hmissing _
    · split at h
      · cases h
        exact hmissing _
      · split at h
        · cases h
          exact Fault.arityFree_report _
        · split at h
          · cases h
            exact Fault.arityFree_report _
          · split at h
            · cases h
              exact Fault.arityFree_report _
            · split at h
              · split at h
                · cases h
                  exact Fault.arityFree_report _
                · cases h
              · cases h

theorem instance_of_instantiate {s s' : Wasm.Store} {modules : List (String × Wasm.Provider)}
    {pageLimit inst : Nat} {m : Wasm.Module}
    (h : s.instantiate modules pageLimit m = .ok (inst, s')) :
    ∃ x, s'.instances[inst]? = some x ∧ x.module = m := by
  cases hbindings : m.imports.mapM (Wasm.resolve s modules pageLimit m) with
  | error reason => cases (Wasm.instantiate_of_error hbindings).symm.trans h
  | ok bindings =>
    cases (Wasm.instantiate_of_bindings hbindings).symm.trans h
    exact ⟨_, Array.getElem?_push_size, rfl⟩

/-- Functions keep their types while signals are on their way. -/
theorem BesideSignals.params? {w' : World} (h : BesideSignals w w') (g : Nat) (name : String) :
    Guest.params? (.live g) name w' = Guest.params? (.live g) name w := by
  simp only [Guest.params?, functionType?, export?, h.instances, h.store]

/-! ## Scripted guests -/

/-- What scripted guest `k` refuses has no report in its chain. -/
def Unreporting (k : Nat) (w : World) : Prop := ∀ g : Scripted, w.scripted[k]? = some g →
  (∀ f, g.instantiateError = some f → f.hasReport = false) ∧
    ∀ name f, g.setGlobalErrors.lookup name = some f → f.hasReport = false

def unreporting (k : Nat) : Frame where
  rel w w' := Unreporting k w → Unreporting k w'
  refl _ h := h
  trans h g hu := g (h hu)

section

variable {k : Nat}

/-- Changes of anything else in a script. -/
theorem modify_unreporting {f : Scripted → Scripted}
    (hf : ∀ g, (f g).instantiateError = g.instantiateError ∧
      (f g).setGlobalErrors = g.setGlobalErrors) (w : World) :
    (unreporting k).rel w { w with scripted := w.scripted.modify k f } := by
  intro h g hg
  have hg' : (w.scripted.modify k f)[k]? = some g := hg
  rw [Array.getElem?_modify, if_pos rfl] at hg'
  obtain ⟨g₀, hg₀, rfl⟩ := Option.map_eq_some_iff.1 hg'
  rw [(hf g₀).1, (hf g₀).2]
  exact h g₀ hg₀

theorem noteScripted_unreporting (line : String) : Keeps (unreporting k) (noteScripted k line) :=
  .change fun w => modify_unreporting (by exact fun _ => ⟨rfl, rfl⟩) w

theorem postSignal_unreporting (sink : Option Sink) (s : Signal) :
    Keeps (unreporting k) (postSignal sink s) := by
  have hdeliver (outbox : Outbox) (s : Signal) : Keeps (unreporting k) (deliver outbox s) := by
    refine .change fun w => ?_
    cases outbox <;> exact fun h => h
  unfold postSignal
  split
  · exact .change fun _ h => h
  · exact hdeliver _ _
  · refine .seq (fun w h => h) fun w => ?_
    split
    · exact .done ()
    · exact .seq (.change fun _ h => h) fun _ => .forEach fun s => hdeliver _ s

theorem unreporting_observed (worker : Nat) : (unreporting k).Observed worker where
  logs _ _ h := h
  spans _ _ h := h
  started _ _ h := h
  advanced _ _ h := h

/-- Playing back fails as it is written down, and yields the value otherwise. -/
theorem playBack_run (k : Nat) (sink : Option Sink) (signals : List Signal) (error : Option Fault)
    (value : α) (w : World) : ∃ w', playBack sink signals error value w =
    (error.elim (.ok value) .error, w') ∧ (unreporting k).rel w w' := by
  have hposts : (unreporting k).rel w (afterPosts sink signals w) := by
    induction signals generalizing w with
    | nil => exact (unreporting k).refl w
    | cons s signals ih => exact (unreporting k).trans (postSignal_unreporting sink s w) (ih _)
  unfold playBack
  dsimp only
  split
  · refine ⟨_, ?_, hposts⟩
    rw [bind_run, postAll_run]
    cases error <;> rfl
  · refine ⟨w, ?_, (unreporting k).refl w⟩
    cases error <;> rfl

theorem setGlobal_scripted {name : String} {v : UInt32} (hw : Unreporting k w) :
    ThrowsAt (·.hasReport = false) w (Guest.setGlobal (.scripted k) name v) := by
  refine (Throws.lift _ w).bind fun _ w₁ hnoted => ?_
  cases hnoted
  have hw₁ := noteScripted_unreporting (Scripted.setLine name v) w hw
  refine .find (scriptedGuest_finds k) rfl fun g hg => ?_
  intro f w' h
  cases hlookup : g.setGlobalErrors.lookup name with
  | none =>
    rw [hlookup] at h
    cases h
  | some e =>
    rw [hlookup] at h
    cases h
    exact (hw₁ g hg).2 name f hlookup

end

/-- The instances come from an engine, or from a scripted guest whose refusals have no report in
their chains. -/
def Candid (w : World) : Maker → Prop
  | .engine _ => True
  | .scripted k => Unreporting k w

/-! ## Making an instance -/

section Machines

variable [Wasm.Machine]

theorem instantiate_telling (k : Nat) (bytes : Bytes) (shared : Option Nat) (sink : Option Sink)
    (cancelled : Bool) :
    Throws (Worker.Telling .instantiate) (instantiate k bytes shared sink cancelled) :=
  .orElse fun _ => .fail (.inr ⟨_, rfl, rfl, by decide⟩)

theorem enterCallee_throws (callee : Wasm.Callee) (args : List UInt64) :
    Throws Fault.ArityFree (enterCallee callee args) := by
  cases callee with
  | host function => exact .ok _
  | code definer target =>
    refine .bind .read fun _ => ?_
    split
    · exact .fail unknown_arityFree
    · exact .ok _

/-- A call with as many arguments as the function takes is not refused for their number. -/
theorem enterCall_throws {inst index : Nat} {args : List UInt64} (e : Engine) (cancelled : Bool)
    (hargs : ∀ i t, w.store.instances[inst]? = some i → i.module.funcType? index = some t →
      args.length = t.params.length) :
    ThrowsAt Fault.ArityFree w (enterCall e cancelled inst index args) := by
  rw [enterCall]
  intro f w' h
  rw [read_run] at h
  cases hi : w.store.instances[inst]? with
  | none =>
    simp only [hi] at h
    cases h
    exact unknown_arityFree
  | some i =>
    cases hcallee : i.callees[index]? with
    | none =>
      simp only [hi, hcallee] at h
      cases h
      exact unknown_arityFree
    | some callee =>
      cases ht : i.module.funcType? index with
      | none =>
        simp only [hi, hcallee, ht] at h
        cases h
        exact unknown_arityFree
      | some t =>
        simp only [hi, hcallee, ht, if_neg (not_not_intro (hargs i t hi ht))] at h
        split at h
        · cases h
          exact closingFault_arityFree _
        · exact enterCallee_throws callee args w f w' h

theorem execute_throws (sink : Option Sink) {trap : Wasm.Trap → List Wasm.Call → Cause}
    (htrap : ∀ t calls, (Fault.external (trap t calls)).ArityFree) (entry : Entry) :
    Throws Fault.ArityFree (execute sink trap entry) := by
  cases entry with
  | code frame =>
    intro w f w' h
    rw [execute_code] at h
    exact outcome_arityFree htrap (Prod.mk.inj h).1
  | host args =>
    rw [execute]
    split
    · exact .fail unknown_arityFree
    · exact .bind (.lift _) fun _ => .ok _

theorem callFunction_throws {inst index : Nat} {args : List UInt64} (e : Engine)
    (sink : Option Sink) (cancelled : Bool) {trap : Wasm.Trap → List Wasm.Call → Cause}
    (htrap : ∀ t calls, (Fault.external (trap t calls)).ArityFree)
    (hargs : ∀ i t, w.store.instances[inst]? = some i → i.module.funcType? index = some t →
      args.length = t.params.length) :
    ThrowsAt Fault.ArityFree w (callFunction e sink cancelled inst index args trap) :=
  (enterCall_throws e cancelled hargs).bind fun entered w' _ =>
    Throws.bind (execute_throws sink htrap entered.2)
      (fun results => unlessClosed_throws entered.1 results) w'

/-- A function that takes a pointer can be called with one. -/
theorem callInstance_throws {k : Nat} {name : String} (cancelled : Bool) (arg : UInt64)
    (hparams : Guest.params? (.live k) name w = some [.i32]) :
    ThrowsAt Fault.ArityFree w (callInstance k name [arg] cancelled) := by
  refine (findFunction_throws k name w).bind fun found w' hfound => ?_
  obtain ⟨rfl, hi, x, f, hexport, hindex⟩ := findFunction_found hfound
  refine callFunction_throws _ _ _ (fun _ _ => Fault.arityFree_external (by simp)) ?_
  intro y t hy ht
  have hx : w'.store.instances[found.1.inst]? = some x := by
    simp only [export?] at hexport
    split at hexport
    · obtain ⟨x', hx', hrest⟩ := Option.bind_eq_some_iff.1 hexport
      obtain ⟨f', -, hkind⟩ := Option.bind_eq_some_iff.1 hrest
      split at hkind
      · cases hkind
        exact hx'
      · cases hkind
    · cases hexport
  cases hx.symm.trans hy
  rw [hindex] at ht
  simp [Guest.params?, functionType?, hi, hexport, ht] at hparams
  simp [hparams]

theorem compile_throws (k : Nat) (bytes : Bytes) : Throws Fault.ArityFree (compile k bytes) := by
  refine .bind (.finds (engine_finds k) unknown_arityFree) fun e => ?_
  split
  · exact .ok _
  · split
    · exact .fail (Fault.arityFree_external (by simp))
    · exact .bind (.lift _) fun _ => .bind (.lift _) fun _ => .ok _

theorem vet_throws (k : Nat) (bytes : Bytes) (shared : Option Nat) :
    Throws Fault.ArityFree (vet k bytes shared) := by
  refine .bind (.finds (engine_finds k) unknown_arityFree) fun e => ?_
  split
  · refine .bind (.finds (memory_finds _) unknown_arityFree) fun m => ?_
    dsimp only
    split
    · exact .failThen (Fault.arityFree_external (by simp)) _
    · split
      · exact .failThen (Fault.arityFree_external (by simp)) _
      · refine .bind .read fun w => ?_
        split
        · exact .failThen (checkMemoryImport_arityFree (by assumption)) _
        · exact .bind (compile_throws k bytes) fun _ => .ok _
  · exact .fail (Fault.arityFree_external (by simp))

theorem link_throws {k : Nat} {e : Engine} {m : Wasm.Module} (sink : Option Sink)
    (cancelled : Bool) (he : w.engines[k]? = some e)
    (hstart : ∀ start, m.start = some start → m.funcType? start = some {}) :
    ThrowsAt Fault.ArityFree w (link k m sink cancelled) := by
  intro f w' h
  cases hinst : w.store.instantiate e.modules e.pageLimit m with
  | error reason =>
    cases (link_refused he hinst).symm.trans h
    exact Fault.arityFree_external (by simp)
  | ok out =>
    obtain ⟨inst, store⟩ := out
    rcases hfill : store.fill inst with ⟨_ | reason, filled⟩
    · cases hm : m.start with
      | none => cases (link_plain he hinst hfill hm).symm.trans h
      | some start =>
        rcases hcall : callFunction e sink cancelled inst start [] (.startTrap (startName m start))
          (installed w k inst filled) with ⟨r, w₁⟩
        have hlink := (link_start he hinst hfill hm hcall).symm.trans h
        cases r with
        | ok results => cases hlink
        | error g =>
          cases hlink
          refine callFunction_throws e sink cancelled
            (fun _ _ => Fault.arityFree_external (by simp)) ?_ f w' hcall
          intro x t hx ht
          obtain ⟨x₀, hx₀, hmodule⟩ := instance_of_instantiate hinst
          obtain ⟨x', hx', hstays⟩ := (fill_evolves hfill).instances inst x₀ hx₀
          cases hx'.symm.trans hx
          rw [hstays.module, hmodule, hstart start hm] at ht
          cases ht
          rfl
    · cases (link_unfilled he hinst hfill).symm.trans h
      exact Fault.arityFree_external (by simp)

theorem instantiate_throws [Wasm.Machine.ChecksStarts] (hcached : Cached w) (k : Nat)
    (bytes : Bytes) (shared : Option Nat) (sink : Option Sink) (cancelled : Bool) :
    ThrowsAt Fault.ArityFree w (instantiate k bytes shared sink cancelled) := by
  intro f w' h
  obtain ⟨w₁, -, hvet, hattempt⟩ := instantiate_attempt hcached k bytes shared sink cancelled
  rw [h] at hattempt
  cases hattempt with
  | @rejected g hvetting =>
    rw [hvetting] at hvet
    exact .causedBy (vet_throws k bytes shared w g _ hvet)
  | @failed _ _ _ _ g _ _ hv hlink =>
    exact .causedBy (link_throws sink cancelled hv.engine
      (fun _ => Wasm.Machine.ChecksStarts.funcType? (accept?_ok hv.accepted).2) g _ hlink)

section

variable {worker : Nat} {entry : WorkerEntry} {cancelled : Bool} {msg : Worker.Message Nat}
  {k : Nat}

/-- What comes of making a scripted guest. -/
theorem makeInstance_scripted (cancelled : Bool) (msg : Worker.Message Nat)
    (hmaker : entry.maker = .scripted k) (hw : Unreporting k w) :
    ∃ r w', makeInstance entry cancelled msg w = (r, w') ∧ Unreporting k w' ∧
      (∀ g, r = .ok g → g = .scripted k) ∧ ∀ f, r = .error f → f.hasReport = false := by
  let sink := some (Sink.relay entry.relay)
  let w₁ := (noteScripted k (Scripted.instantiateLine msg.bytes) w).2
  let w₂ := { w₁ with scripted := w₁.scripted.modify k fun g => { g with sink := sink } }
  have hrun : makeInstance entry cancelled msg w = (scriptedGuest k >>= fun g =>
      playBack sink g.instantiateSignals g.instantiateError (.scripted k)) w₂ := by
    simp only [makeInstance, hmaker]
    rfl
  have hw₂ : Unreporting k w₂ := modify_unreporting (by exact fun _ => ⟨rfl, rfl⟩) w₁
    (noteScripted_unreporting _ w hw)
  rw [hrun, bind_run]
  cases hg : w₂.scripted[k]? with
  | none =>
    rw [(scriptedGuest_finds k).miss hg]
    refine ⟨_, _, rfl, hw₂, fun _ h => (by cases h), fun f h => ?_⟩
    cases h
    rfl
  | some g =>
    rw [(scriptedGuest_finds k).run hg]
    obtain ⟨w', hplay, hkeeps⟩ := playBack_run k sink g.instantiateSignals
      g.instantiateError (Guest.scripted k) w₂
    refine ⟨_, w', hplay, hkeeps hw₂, fun g' h => ?_, fun f h => ?_⟩
    · cases herror : g.instantiateError with
      | none =>
        rw [herror] at h
        cases h
        rfl
      | some e =>
        rw [herror] at h
        cases h
    · cases herror : g.instantiateError with
      | none =>
        rw [herror] at h
        cases h
      | some e =>
        rw [herror] at h
        cases h
        exact (hw₂ g hg).1 f herror

theorem makeInstance_engine {e : Nat} (hmaker : entry.maker = .engine e) :
    makeInstance entry cancelled msg = (do
      let sink := some (Sink.relay entry.relay)
      return .live (← instantiate e msg.bytes msg.memory sink cancelled)) := by
  simp only [makeInstance, hmaker]

/-! ## The step that fails -/

/-- The guests of the world, as worker number `worker` brings one of them up. -/
def bringingUp (worker : Nat) (entry : WorkerEntry) (cancelled : Bool)
    (msg : Worker.Message Nat) : Worker.Host World Guest Nat :=
  workerHost worker entry msg (guestDriver entry cancelled)

section

variable (worker : Nat) (entry : WorkerEntry) (cancelled : Bool) (msg : Worker.Message Nat)
  (n : Worker.Note)

theorem observe_unreporting (h : Unreporting k w) :
    Unreporting k ((bringingUp worker entry cancelled msg).observe n w) :=
  observe_keeps (unreporting_observed worker) entry msg n w h

theorem observe_beside (w : World) :
    BesideSignals w ((bringingUp worker entry cancelled msg).observe n w) := by
  have hobserved : besideSignals.Observed worker := by
    constructor <;> exact fun _ _ => ⟨rfl, rfl, rfl, rfl⟩
  exact observe_keeps hobserved entry msg n w

end

variable {state : Worker.State} {m : Worker.Misstep} {w₁ : World} {g : Guest}

theorem instantiate_of_makeInstance {e : Nat} {own : Fault} (hmaker : entry.maker = .engine e)
    (h : makeInstance entry cancelled msg w = (.error own, w₁)) :
    instantiate e msg.bytes msg.memory (some (.relay entry.relay)) cancelled w =
      (.error own, w₁) := by
  rw [makeInstance_engine hmaker, bind_run] at h
  rcases hrun : instantiate e msg.bytes msg.memory (some (.relay entry.relay)) cancelled w with
    ⟨own' | n, w'⟩
  · rw [hrun] at h
    cases h
    rfl
  · rw [hrun] at h
    cases h

/-- An engine makes live instances. -/
theorem live_of_reaches {e : Nat} (hmaker : entry.maker = .engine e)
    (h : Worker.Reaches (bringingUp worker entry cancelled msg) entry.exports msg w state g w₁) :
    ∃ n, g = .live n := by
  induction h with
  | instantiated h =>
    have hmake : makeInstance entry cancelled msg _ = _ := h
    rw [makeInstance_engine hmaker] at hmake
    obtain ⟨n, w', -, hn⟩ := bind_ok hmake
    cases hn
    exact ⟨n, rfl⟩
  | stackSet _ _ ih | tlsInitialized _ _ _ ih => exact ih

theorem scripted_of_reaches (hmaker : entry.maker = .scripted k) (hw : Unreporting k w)
    (h : Worker.Reaches (bringingUp worker entry cancelled msg) entry.exports msg w
      .instantiated g w₁) : g = .scripted k ∧ Unreporting k w₁ := by
  cases h with
  | instantiated h =>
    obtain ⟨r, w', hrun, hw', hok, -⟩ := makeInstance_scripted cancelled msg hmaker
      (observe_unreporting worker entry cancelled msg .started hw)
    cases hrun.symm.trans h
    exact ⟨hok g rfl, observe_unreporting _ _ _ _ _ hw'⟩

/-- Faults of the first two steps name their phase, or no phase at all. -/
theorem telling_of_fails (hw : Candid w entry.maker)
    (h : Worker.Fails (bringingUp worker entry cancelled msg) entry.exports msg w state m w₁) :
    m.Telling := by
  cases hmaker : entry.maker with
  | engine e =>
    cases h with
    | instantiate h =>
      exact instantiate_telling e _ _ _ _ _ _ _ (instantiate_of_makeInstance hmaker h)
    | setStack before h =>
      obtain ⟨n, rfl⟩ := live_of_reaches hmaker before
      exact (setInstanceGlobal_throws n _ _ _ _ _ h).1
    | tlsUnfit | tlsTrap | entryUnfit | entryTrap => trivial
  | scripted k =>
    rw [hmaker] at hw
    cases h with
    | instantiate h =>
      obtain ⟨r, w', hrun, -, -, herror⟩ := makeInstance_scripted cancelled msg hmaker
        (observe_unreporting worker entry cancelled msg .started hw)
      cases hrun.symm.trans h
      exact .inl (herror _ rfl)
    | setStack before h =>
      obtain ⟨rfl, hw'⟩ := scripted_of_reaches hmaker hw before
      exact .inl (setGlobal_scripted hw' _ _ h)
    | tlsUnfit | tlsTrap | entryUnfit | entryTrap => trivial

/-- With an engine no function is called with a wrong number of arguments. -/
theorem arityFree_of_fails [Wasm.Machine.ChecksStarts] {e : Nat} (hcached : Cached w)
    (hmaker : entry.maker = .engine e)
    (h : Worker.Fails (bringingUp worker entry cancelled msg) entry.exports msg w state m w₁) :
    (m.fault entry.exports).ArityFree := by
  have hattribution {phase : Phase} {name : String} {f : Fault} (hf : f.ArityFree) :
      (Worker.attribution phase name f).ArityFree := by
    unfold Worker.attribution
    split
    · exact hf
    · split <;> exact .causedBy hf
  have hunfit (phase : Phase) (name : String) (params : Option (List Wasm.ValType)) :
      (Worker.Misstep.unfitFault phase name params).ArityFree := by
    cases params <;> exact Fault.arityFree_report _
  cases h with
  | instantiate h =>
    have hbeside := observe_beside worker entry cancelled msg .started w
    have hcached' : Cached ((bringingUp worker entry cancelled msg).observe .started w) :=
      fun k' e' he' => hcached k' e' (hbeside.engines ▸ he')
    exact hattribution (instantiate_throws hcached' _ _ _ _ _ _ _
      (instantiate_of_makeInstance hmaker h))
  | setStack before h =>
    obtain ⟨n, rfl⟩ := live_of_reaches hmaker before
    exact hattribution (setInstanceGlobal_throws n _ _ _ _ _ h).2
  | tlsUnfit | entryUnfit => exact hunfit _ _ _
  | tlsTrap before hparams h =>
    obtain ⟨n, rfl⟩ := live_of_reaches hmaker before
    exact .causedBy (callInstance_throws cancelled _ hparams _ _ h)
  | entryTrap before hparams h =>
    obtain ⟨n, rfl⟩ := live_of_reaches hmaker before
    -- The function is looked up before the worker runs, and called when it does.
    have hbeside := observe_beside worker entry cancelled msg (.advanced .running)
    have hparams' := ((hbeside _).params? n _).trans hparams
    exact .causedBy (callInstance_throws cancelled _ hparams' _ _ h)

end

/-- Whoever makes its instance, a failed bring-up has one step to blame, and its fault leads back to
that step's own. If the instance comes from an engine, or from a scripted guest whose refusals have
no report in their chains, the outermost report names the step. With an engine no call of a bring-up
is refused for the number of its arguments. A worker that has had its message takes no step. -/
theorem failures_name_their_steps [Wasm.Machine.RunsTrampolines]
    [Wasm.Machine.ChecksStarts] :
    (∀ {σ ι μ : Type} (host : Worker.Host σ ι μ) (exports : Config.Exports) (msg : Worker.Message μ)
      (s s' : σ) (f : Fault) (p : Worker.Progress),
      Worker.handle host exports {} msg s = (.error f, p, s') →
        ∃ m, Worker.StemsFrom host exports msg s p.state m f) ∧
    (∀ (worker : Nat) (entry : WorkerEntry) (cancelled : Bool) (msg : Worker.Message Nat)
      (w w' : World) (f : Fault) (p : Worker.Progress), Candid w entry.maker →
      let host := workerHost worker entry msg (guestDriver entry cancelled)
      Worker.handle host entry.exports {} msg w = (.error f, p, w') →
        ∃ m r, Worker.StemsFrom host entry.exports msg w p.state m f ∧
          f.outermost? = some r ∧ Worker.Names p.state m r) ∧
    (∀ (worker : Nat) (entry : WorkerEntry) (cancelled : Bool) (msg : Worker.Message Nat)
      (w w' : World) (history : List Request) (f : Fault) (p : Worker.Progress) (e : Nat),
      Blank w → entry.maker = .engine e →
      let host := workerHost worker entry msg (guestDriver entry cancelled)
      Worker.handle host entry.exports {} msg (afterAll history w) = (.error f, p, w') →
        f.ArityFree) ∧
    ∀ {σ ι μ : Type} (host : Worker.Host σ ι μ) (exports : Config.Exports) (msg : Worker.Message μ)
      (s : σ) (p : Worker.Progress), p.handled = true →
      let out := Worker.handle host.recorded exports p msg { world := s }
      out.1 = .error Worker.alreadyBootstrapped ∧ out.2.1 = p ∧ out.2.2.effects = [] := by
  refine ⟨?_, ?_, ?_, ?_⟩
  · intro σ ι μ host exports msg s s' f p h
    obtain ⟨m, s₁, -, -, hstems⟩ := Worker.stemsFrom_of_handle h
    exact ⟨m, hstems⟩
  · intro worker entry cancelled msg w w' f p hcandid host h
    obtain ⟨m, w₁, hfails, rfl, hstems⟩ := Worker.stemsFrom_of_handle h
    obtain ⟨r, hr, hnames⟩ := hfails.names (telling_of_fails hcandid hfails)
    exact ⟨m, r, hstems, hr, hnames⟩
  · intro worker entry cancelled msg w w' history f p e hblank hmaker host h
    obtain ⟨m, w₁, hfails, rfl, -⟩ := Worker.stemsFrom_of_handle h
    exact arityFree_of_fails (populated_afterAll hblank history).cached hmaker hfails
  · intro σ ι μ host exports msg s p hp
    rw [Worker.handle, if_pos hp]
    exact ⟨rfl, rfl, rfl⟩

end Machines

/-- A guest that traps when its thread-local block is set up, and cannot be closed either. -/
def stubborn : Scripted where
  functions := [("__wasm_init_tls",
    { params := [.i32], error := some (.context "guest" (.plain "out of blocks")) })]
  closeError := some (.plain "stuck")

theorem failures_of_guests_name_their_steps :
    let entry : WorkerEntry := { maker := .scripted 0, relay := 0 }
    let msg : Worker.Message Nat := { bytes := [], memory := none }
    let w : World := { scripted := #[stubborn] }
    let host := workerHost 0 entry msg (guestDriver entry false)
    let f : Fault :=
      .trapped .tls "__wasm_init_tls" (some (.context "guest" (.plain "out of blocks")))
    let made : WorkerEntry := { maker := .engine 0, relay := 0 }
    let engines := afterAll [.newEngine none] {}
    (∃ w', Worker.handle host entry.exports {} msg w =
      (.error f, { state := .stackSet, handled := true, failed := true }, w')) ∧
    (∃ m, Worker.StemsFrom host entry.exports msg w .stackSet m f) ∧
    (∃ m r, Worker.StemsFrom host entry.exports msg w .stackSet m f ∧
      f.outermost? = some r ∧ Worker.Names .stackSet m r) ∧
    ∃ g p w', Worker.handle (workerHost 0 made msg (guestDriver made false)) made.exports {} msg
      engines = (.error g, p, w') ∧ g.ArityFree := by
  intro entry msg w host f made engines
  have hcandid : Candid w entry.maker := by
    intro g hg
    obtain rfl : stubborn = g := Option.some.inj hg
    exact ⟨fun _ h => (by cases h), fun _ _ h => (by cases h)⟩
  have hresult : (Worker.handle host entry.exports {} msg w).1 = .error f := by decide +kernel
  have hprogress : (Worker.handle host entry.exports {} msg w).2.1 =
      { state := .stackSet, handled := true, failed := true } := by decide +kernel
  obtain ⟨w', hrun⟩ : ∃ w', Worker.handle host entry.exports {} msg w =
      (.error f, { state := .stackSet, handled := true, failed := true }, w') := by
    rcases hout : Worker.handle host entry.exports {} msg w with ⟨r, p, w'⟩
    rw [hout] at hresult hprogress
    cases hresult
    cases hprogress
    exact ⟨w', rfl⟩
  have hengines : (Worker.handle (workerHost 0 made msg (guestDriver made false)) made.exports {}
      msg engines).1 = .error (.instantiation (some (.external .noMemory))) := by
    decide +kernel
  have hmade := Prod.ext hengines (Eq.refl (Worker.handle (workerHost 0 made msg
    (guestDriver made false)) made.exports {} msg engines).2)
  exact ⟨⟨_, hrun⟩, failures_name_their_steps.1 host entry.exports msg w _ f _ hrun,
    failures_name_their_steps.2.1 0 entry false msg w _ f _ hcandid hrun,
    ⟨_, _, _, hmade, failures_name_their_steps.2.2.1 0 made false msg {} _ [.newEngine none] _ _ 0
      ⟨rfl, rfl, rfl, rfl⟩ rfl hmade⟩⟩

end World

end GuestThreads
