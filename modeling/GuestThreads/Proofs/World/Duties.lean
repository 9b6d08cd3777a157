import GuestThreads.Proofs.World.Spawning
import GuestThreads.Proofs.World.Wiring

/-!
# What parties owe

The code of a thread is its bring-up and all that is done later through its bridge. All of it keeps
to the contract of its thread, whatever the others do in between. The closing of a module has a
contract of its own.
-/

namespace GuestThreads.World

open Worker (BringUp Inbox Message Note Progress State)

variable {α β : Type}

/-! ## Entering a thread -/

section

variable {k : Nat} {ρ : Nat → Nat} {m : LoadedModule} {w : World}

theorem Entered.later {layout : Layout} {t : Thread} {w' : World} (h : Entered k m layout t w w') :
    Later w w' := by
  obtain ⟨e, -, -, -, hworkers⟩ := h.worker
  refine ⟨?_, ?_, ?_, ?_⟩
  · exact h.relay ▸ .push _
  · exact h.instances ▸ .refl _ _
  · exact h.bridges ▸ .refl _ _
  · exact hworkers ▸ .push _

theorem enterThread_cases (hm : w.modules[k]? = some m) (region : Region) (layout : Layout)
    (ops : List (String × Bridge.Op)) :
    (∃ f, enterThread k m region layout ops w = (.error f, w)) ∨
      ∃ t w', enterThread k m region layout ops w = (.ok t, w') ∧ Entered k m layout t w w' := by
  cases hr : w.runtimes[m.runtime]? with
  | none =>
    refine .inl ⟨unknown, (bind_run (runtime m.runtime) _ w).trans ?_⟩
    rw [(runtime_finds m.runtime).miss hr]
  | some r =>
    obtain ⟨t, w', hrun, -, hentered⟩ := enterThread_run region layout hm hr ops
    exact .inr ⟨t, w', hrun, hentered⟩

/-- A thread is entered, or it is refused and nothing happens. -/
theorem newThread_cases (hm : w.modules[k]? = some m) (ops : List (String × Bridge.Op)) :
    (∃ f, newThread k ops w = (.error f, w)) ∨
      ∃ t layout w', newThread k ops w = (.ok t, w') ∧ Entered k m layout t w w' := by
  cases hclosed : m.closed with
  | true => exact .inl (newThread_closed hm hclosed ops)
  | false =>
    rw [newThread_run hm hclosed ops]
    cases m.layout.reserve (w.memorySize m.memory) with
    | error refusal => exact .inl ⟨_, rfl⟩
    | ok reserved =>
      obtain hrefused | ⟨t, w', hrun⟩ := enterThread_cases hm reserved.1 reserved.2 ops
      · exact .inl hrefused
      · exact .inr ⟨t, reserved.2, w', hrun⟩

/-- The relays of the threads, with relay `r` for thread `j`. -/
def assign (ρ : Nat → Nat) (j r : Nat) : Nat → Nat := fun i => if i = j then r else ρ i

theorem assign_self (ρ : Nat → Nat) (j r : Nat) : assign ρ j r j = r := if_pos rfl

theorem assign_of_lt (ρ : Nat → Nat) {i j : Nat} (r : Nat) (h : i < j) : assign ρ j r i = ρ i :=
  if_neg (Nat.ne_of_lt h)

theorem Entered.sited {layout : Layout} {t : Thread} {w' : World} (h : Entered k m layout t w w') :
    Sited k (assign ρ m.threads.length w.relays.size) w' m.threads.length t := by
  obtain ⟨e, hworker, hrelay, hmaker, hworkers⟩ := h.worker
  refine ⟨h.id, ?_, ⟨m.engine, ?_⟩, fun b hb => by rw [h.bridge] at hb; cases hb⟩
  · rw [assign_self, Wired, h.relay, Array.getElem?_push_size, h.id]
    rfl
  · rw [assign_self, hworkers, hworker, Array.getElem?_push_size, Option.map_some, outfit,
      hrelay, hmaker]

end

/-! ## The code of a thread -/

section

variable {k i r : Nat} {w w' : World}

theorem honours_makeInstance [Wasm.Machine] {entry : WorkerEntry} {e : Nat}
    (hrelay : entry.relay = r) (hmaker : entry.maker = .engine e) (cancelled : Bool)
    (msg : Message Nat) (h : Wired k i r w) :
    (Course.makeInstance entry cancelled msg).Honours (duty k i r) []
      (fun g v => Wired k i r v ∧ Bound r g v) w := by
  unfold Course.makeInstance
  rw [hmaker, hrelay]
  refine ((hosting_duty k i r).instantiate (R := fun n v => Bound r (.live n) v)
    (fun n v v' hv hn => hn.later hv) ?_ _ _ _ cancelled h).bind fun n v hn => ?_
  · intro v k memoryId inst _
    refine ⟨v.instances.size, rfl, ?_⟩
    change (v.instances.push _)[v.instances.size]?.map _ = _
    rw [Array.getElem?_push, if_pos rfl]
    rfl
  · exact Course.honours_value fun v' hv => ⟨hn.1.later hv, hn.2.later hv⟩

theorem findFunction_ok {n : Nat} {name : String} {found : LiveInstance × Engine × Nat}
    (h : findFunction n name w = (.ok found, w')) : w.instances[n]? = some found.1 := by
  obtain ⟨x, v, hx, hrest⟩ := bind_ok (x := liveInstance n) h
  obtain ⟨hinstance, rfl⟩ := (liveInstance_finds n).ok hx
  have hfound := (read_run _ v).symm.trans hrest
  cases hexport : v.export? x .func name with
  | none =>
    rw [hexport] at hfound
    cases hfound
  | some f =>
    rw [hexport] at hfound
    obtain ⟨e, u, -, hpure⟩ := bind_ok hfound
    cases hpure
    exact hinstance

theorem honours_callGuest [Wasm.Machine] {g : Guest} (hg : Bound r g w) (cancelled : Bool)
    (name : String) (args : List UInt64) (h : Wired k i r w) :
    (Course.callGuest g cancelled name args).Honours (duty k i r) []
      (fun _ v => Wired k i r v) w := by
  obtain ⟨n, rfl, hn⟩ := hg
  refine ((hosting_duty k i r).atom (R := fun found _ => found.1.sink = some (.relay r))
    (findFunction_keeps n name) h fun v found hv hfound v' hv' => ?_).bind fun found v hv => ?_
  · have hsink := hv.instances _ _ hn
    rw [findFunction_ok (Prod.ext hfound rfl)] at hsink
    exact Option.some.inj hsink
  · obtain ⟨hwired, hsink⟩ := hv
    dsimp only
    rw [hsink]
    exact (hosting_duty k i r).callFunction _ cancelled _ _ args _ hwired

/-- An action that leaves counters and modules alone, as a piece of the code of a thread. -/
theorem honours_quiet {act : Try α} (hact : Keeps quiet act.run) (w : World) :
    (Course.atom act).Honours (duty k i r) [] (fun _ v => Later w v) w :=
  fun v hv => ⟨[], .steady rfl rfl ((hact v).steady k i r), fun _ hv' =>
    ⟨rfl, fun _ _ => later.trans hv (later.trans (hact v).later hv')⟩⟩

/-- A request to the guest and what follows from its outcome. -/
theorem honours_ask {Q : β → List Signal → World → Prop} {R : α → World → Prop}
    {e : Worker.Effect Guest} {p : Course α} {f : Except Fault α → Process β}
    (hp : ∀ v, Later w v → p.Honours (duty k i r) [] R v)
    (hf : ∀ x v, Later w v → (∀ a, x = .ok a → R a v) → (f x).Honours (duty k i r) Q [] v) :
    (Process.note (.asked e) (p.run >>= f)).Honours (duty k i r) Q [] w := by
  intro v hv
  refine ⟨[], .steady rfl rfl ((quiet.refl v).steady k i r), ?_⟩
  refine (Process.Honours.since (hp v hv) Owes.later).bind ?_
  rintro x owed v' ⟨⟨rfl, hx⟩, hv'⟩
  exact hf x v' (later.trans hv hv') hx

section

variable {entry : WorkerEntry} (cancelled : Bool) (j : Nat) (msg : Message Nat)

theorem carryOut_duty [Wasm.Machine] {p : Guest → Prop} {b : BringUp Guest} (hb : b.About p)
    (state : State) (hp : ∀ g, p g → Bound r g w) (h : Wired k i r w) :
    (Process.carryOut (.guests entry cancelled) j entry msg b state).Honours (duty k i r)
      (fun out owed v => owed = [] ∧ ∀ g, out.1 = .ok g → Bound r g v) [] w := by
  have hlater {v : World} (hv : Later w v) (g : Guest) (hg : p g) : Bound r g v :=
    (hp g hg).later hv
  induction b generalizing state w with
  | instantiate next ih => exact hb.elim
  | setGlobal g name v next ih =>
    refine honours_ask (R := fun _ _ => True) (fun v hv => ?_) fun x v hv _ =>
      ih x (hb.2 x) state (hlater hv) (h.later hv) fun hv' => hlater (later.trans hv hv')
    exact (honours_quiet (guest_setGlobal_keeps quiet_indifferent g name _) v).imp
      fun _ _ _ => trivial
  | params g name next ih =>
    intro v hv
    exact ⟨[], .steady rfl rfl ((quiet.refl v).steady k i r), ih _ (hb.2 _) state (hlater hv)
      (h.later hv) fun hv' => hlater (later.trans hv hv')⟩
  | call g name arg next ih =>
    exact honours_ask (fun v hv => honours_callGuest (hlater hv g hb.1) cancelled name [arg]
      (h.later hv)) fun x v hv _ =>
        ih x (hb.2 x) state (hlater hv) (h.later hv) fun hv' => hlater (later.trans hv hv')
  | close g next ih =>
    refine honours_ask (R := fun _ _ => True) (fun v hv => ?_) fun x v hv _ =>
      ih x (hb.2 x) state (hlater hv) (h.later hv) fun hv' => hlater (later.trans hv hv')
    exact (honours_quiet (guest_close_keeps quiet_indifferent g) v).imp fun _ _ _ => trivial
  | note n next ih =>
    intro v hv
    have hobserve := observe_quiet j entry msg n v
    have hv' := later.trans hv hobserve.later
    exact ⟨[], .steady rfl rfl (hobserve.steady k i r), ih hb _ (hlater hv') (h.later hv')
      fun hv'' => hlater (later.trans hv' hv'')⟩
  | done x => exact fun v hv => ⟨rfl, fun g hg => hlater hv g (hb g hg)⟩

theorem enterBridge_duty {g : Guest} (h : Bound r g w) :
    (Course.atom (Course.enterBridge j entry g : Try Nat)).Honours (duty k i r) []
      (fun b v => Joined r b v) w := by
  intro u hu
  have hquiet : Quiet u (Course.enterBridge j entry g u).2 :=
    Keeps.seq (F := quiet) (x := newBridge g entry.ops) (f := fun b => do
        setWorker j fun e => { e with bridge := some b }
        return b)
      (fun w => ⟨{ later.refl w with bridges := .push _ }, rfl, rfl⟩)
      (fun b => .seq (setWorker_quiet j fun _ => rfl) fun _ => .done b) u
  refine ⟨[], .steady rfl rfl (hquiet.steady k i r), fun u' hu' => ⟨rfl, fun b hb => ?_⟩⟩
  cases hb
  have hjoined : Joined r u.bridges.size (Course.enterBridge j entry g u).2 := by
    refine ⟨g, ?_, (h.later hu).later hquiet.later⟩
    change (u.bridges.push _)[u.bridges.size]?.map _ = _
    rw [Array.getElem?_push, if_pos rfl]
    rfl
  exact hjoined.later hu'

theorem settle_duty (before : Progress) {ended : Except Fault Guest × State}
    (hended : ∀ g, ended.1 = .ok g → Bound r g w) :
    (Course.settle j entry msg before ended).Honours (duty k i r) []
      (fun b v => Joined r b v) w := by
  have hprogress (p : Progress) : Keeps quiet (setWorker j fun e => { e with progress := p }) :=
    setWorker_quiet j fun _ => rfl
  obtain ⟨f | g, state⟩ := ended
  · refine (honours_quiet (.lift (hprogress _)) w).bind fun _ v _ => ?_
    refine (honours_quiet (.lift (observe_quiet j entry msg _)) v).bind fun _ v' _ => ?_
    exact Course.honours_fault _
  · refine (honours_quiet (.lift (hprogress _)) w).bind fun _ v hv => ?_
    refine (enterBridge_duty j ((hended g rfl).later hv)).bind fun b v' hv' => ?_
    refine (honours_quiet (.lift (observe_quiet j entry msg _)) v').bind fun _ u hu => ?_
    exact Course.honours_value fun u' hu' => (hv'.later hu).later hu'

theorem bringUp_duty [Wasm.Machine] {e : Nat} (hrelay : entry.relay = r)
    (hmaker : entry.maker = .engine e) (before : Progress) (h : Wired k i r w) :
    (Course.bringUp (.guests entry cancelled) j entry msg before).Honours (duty k i r) []
      (fun b v => Joined r b v) w := by
  obtain ⟨next, hsteps, habout⟩ := Worker.steps_about (ι := Guest) entry.exports msg.stackPtr
    msg.tlsPtr msg.closurePtr
  unfold Course.bringUp
  rw [hsteps]
  have hmade : Process.Honours (duty k i r) (fun out owed v => owed = [] ∧
      ∀ g, out.1 = .ok g → Bound r g v)
      (.carryOut (.guests entry cancelled) j entry msg (.instantiate next) before.state) [] w :=
    honours_ask (fun v hv => honours_makeInstance hrelay hmaker cancelled msg (h.later hv))
      fun x v hv hx => carryOut_duty cancelled j msg (habout x) before.state
        (fun g hg => (hx g hg).2) (h.later hv)
  exact (Course.honours_ofProcess hmade).bind fun ended v hended => settle_duty j msg before hended

theorem claim_quiet (entry : WorkerEntry) : Keeps quiet (Course.claim j entry msg).run := by
  refine .bind (workerEntry_finds j).keeps fun e => ?_
  split
  · exact .bind (.lift (observe_quiet j entry msg _)) fun _ => .ok _
  · exact .ok _

theorem handle_duty [Wasm.Machine] {e : Nat} (hrelay : entry.relay = r)
    (hmaker : entry.maker = .engine e) (h : Wired k i r w) :
    (Course.handle (.guests entry cancelled) j entry msg).Honours (duty k i r) []
      (fun b v => Joined r b v) w := by
  intro v hv
  have hclaim : Quiet v ((Course.claim j entry msg).run v).2 := claim_quiet j msg entry v
  refine ⟨[], .steady rfl rfl (hclaim.steady k i r), ?_⟩
  have hwired := (h.later hv).later hclaim.later
  cases ((Course.claim j entry msg).run v).1 with
  | error f => exact fun _ _ => ⟨rfl, nofun⟩
  | ok before =>
    rw [Course.goOn]
    split
    · refine Course.Honours.bind (honours_quiet ?_ _) fun _ u _ => Course.honours_fault _
      exact .bind (workerEntry_finds j).keeps fun e => .lift (observe_quiet j entry msg _)
    · exact bringUp_duty cancelled j msg hrelay hmaker before hwired

end

theorem runWorker_duty [Wasm.Machine] {j : Nat} (hhired : Hired r j w) (cancelled : Bool)
    (inbox : Inbox Nat) (h : Wired k i r w) :
    (Course.runWorker (Conduct.guests · cancelled) j inbox).Honours (duty k i r) []
      (fun b v => Joined r b v) w := by
  obtain ⟨e, he⟩ := hhired
  refine ((hosting_duty k i r).atom (R := fun entry _ => outfit entry = (r, .engine e))
    (workerEntry_finds j).keeps h fun v entry hv hentry v' hv' => ?_).bind fun entry v hv => ?_
  · have houtfit := hv.workers _ _ he
    rw [((workerEntry_finds j).ok (Prod.ext hentry rfl)).1] at houtfit
    exact Option.some.inj houtfit
  · obtain ⟨hwired, houtfit⟩ := hv
    obtain ⟨hrelay, hmaker⟩ := Prod.mk.inj houtfit
    cases inbox with
    | message msg => exact handle_duty cancelled j msg hrelay hmaker hwired
    | closed | cancelled => exact Course.honours_fault _

/-- A thread whose end is recorded stays in its place, with the bridge that it got. -/
theorem finishThread_steady {x : Except Fault Nat} (hx : ∀ b, x = .ok b → Joined r b w) :
    Steady k i r w (finishThread k i x w).2 := by
  have hlater : Later w (finishThread k i x w).2 := by cases x <;> exact { later.refl w with }
  obtain ⟨fault, hmodules⟩ : ∃ fault, (finishThread k i x w).2.modules =
      w.modules.modify k fun m => { m with
        threads := m.threads.modify i (·.finish x), firstError := m.firstError.or fault } := by
    cases x with
    | error f => exact ⟨some f, rfl⟩
    | ok b => exact ⟨none, rfl⟩
  refine .of_modify hlater (by cases x <;> rfl) hmodules fun m hm => ?_
  refine ⟨.inl rfl, rfl, by simp, fun ρ hρ hs j t ht => ?_⟩
  rw [List.getElem?_modify] at ht
  obtain ⟨t₀, ht₀, rfl⟩ := Option.map_eq_some_iff.1 ht
  have hsited := (hs j t₀ ht₀).later hlater
  split
  · subst_vars
    exact hsited.finish fun b hb => (hx b hb).later hlater
  · exact hsited

/-- The bring-up of a thread that was entered counts and posts what its guest signals. -/
theorem serve_duty [Wasm.Machine] {t : Thread} (hid : t.id = i) (hhired : Hired r t.worker w)
    (h : Wired k i r w) (closurePtr : UInt32) (cancelled heard : Bool) :
    (Course.serve k t closurePtr cancelled heard).Honours (duty k i r) [] (fun _ _ => True) w := by
  refine (honours_quiet (loadedModule_finds k).keeps w).bind fun m v hv => ?_
  refine (honours_quiet (.lift (log_quiet _ _ _ _)) v).bind fun _ v₁ hv₁ => ?_
  have hv₁ := later.trans hv hv₁
  have hrun := runWorker_duty (hhired.later hv₁) cancelled
    (if heard then .message (Course.bootstrap m t closurePtr) else .cancelled) (h.later hv₁)
  refine (Course.honours_attempt hrun).bind fun x v₂ hx => ?_
  refine Course.Honours.bind (R := fun _ _ => True) (fun v₃ hv₃ => ⟨[], ?_, fun _ _ =>
    ⟨rfl, fun _ _ => trivial⟩⟩) fun _ v₄ _ => Course.honours_value fun _ _ => trivial
  rw [hid]
  exact .steady rfl rfl (finishThread_steady fun b hb => (hx b hb).later hv₃)

theorem shut_quiet (b : Nat) : Keeps quiet (Course.shut b) := by
  intro w
  change Quiet w (if w.bridgeClosed b then w else w.shutBridge b)
  split
  · exact quiet.refl w
  · exact ⟨{ later.refl w with bridges := .modify fun _ => rfl }, rfl, rfl⟩

/-- The contract of a thread allows for what its guest does. -/
theorem hosting_bound [Wasm.Machine] (k i r : Nat) (g : Guest) :
    Hosting (duty k i r) [] quiet (fun v => Wired k i r v ∧ Bound r g v) (some (.relay r)) where
  indifferent := quiet_indifferent
  stable hv hw := ⟨hw.1.later hv, hw.2.later hv⟩
  quiet hq hw :=
    ⟨.steady rfl rfl (hq.steady k i r), hw.1.later hq.later, hw.2.later hq.later⟩
  post s hw := (((hosting_duty k i r).post s hw.1).since Owes.later).imp fun _ _ hv =>
    ⟨hv.2, hw.2.later hv.1⟩

/-- Whatever is done through a bridge of a thread counts and posts what the guest signals. -/
theorem drive_duty [Wasm.Machine] (b : Nat) (cancelled : Bool) (hjoined : Joined r b w)
    (h : Wired k i r w) (script : Bridge.Script) :
    (Course.drive b cancelled script).Honours (duty k i r) [] (fun _ _ => True) w := by
  obtain ⟨g, hguest, hg⟩ := hjoined
  refine ((hosting_bound k i r g).atom (R := fun entry _ => entry.guest = g)
    (bridgeEntry_finds b).keeps ⟨h, hg⟩ fun v entry hv hentry v' hv' => ?_).bind
      fun entry v hv => ?_
  · have hsame := hv.bridges _ _ hguest
    rw [((bridgeEntry_finds b).ok (Prod.ext hentry rfl)).1] at hsame
    exact Option.some.inj hsame
  · obtain ⟨hbound, rfl⟩ := hv
    refine ((hosting_bound k i r _).session (fun cancelled name args w hw => ?_) b cancelled
      Owes.later shut_quiet _ script hbound).imp fun _ _ _ => trivial
    exact ((honours_callGuest hw.2 cancelled name args hw.1).since Owes.later).imp fun _ _ hv =>
      ⟨hv.2, hw.2.later hv.1⟩

end

/-! ## Closing -/

/-- How far the closing of a module has come. -/
inductive Stage where
  | entered
  /-- No more threads are spawned. -/
  | shut
  /-- The stream does not accept signals any more. -/
  | ended
  /-- The pump is told so. -/
  | rung

/-- A piece of the closing of module `k`. -/
inductive Closes (k : Nat) (w : World) : Stage → Stage → World → Prop
  | shuts : Closes k w .entered .shut (setModule k (fun m => { m with closed := true }) w).2
  | ends : Closes k w .shut .ended (w.onStream k .markClosed)
  | rings : Closes k w .ended .rung (w.onStream k .notify)
  | quiet {stage : Stage} {w' : World} (h : Quiet w w') : Closes k w stage stage w'

/-- Whether module `k` is closed. -/
def moduleClosed? (w : World) (k : Nat) : Option Bool := w.modules[k]?.map (·.closed)

/-- What the closing of module `k` may do, if no one else closes the module. -/
def closing (k : Nat) : Contract Stage where
  rely := {
    rel w w' := w'.moduleClosed? k = w.moduleClosed? k
    refl _ := rfl
    trans h g := g.trans h }
  step stage event w stage' w' := event = none ∧ Closes k w stage stage' w'

section

variable {k : Nat} {w : World}

theorem honours_closing {act : Try α} (hact : Keeps quiet act.run) (stage : Stage) (w : World) :
    (Course.atom act).Honours (closing k) stage (fun _ _ => True) w :=
  fun v _ => ⟨stage, ⟨rfl, .quiet (hact v)⟩, fun _ _ => ⟨rfl, fun _ _ => trivial⟩⟩

theorem leaveThread_closing [Wasm.Machine] (t : Thread) (w : World) :
    (Process.leaveThread t).Honours (closing k) (fun _ stage _ => stage = .shut) .shut w := by
  unfold Process.leaveThread
  cases t.bridge with
  | none => exact fun _ _ => rfl
  | some b =>
    refine Process.Honours.bind ((honours_closing (bridgeEntry_finds b).keeps .shut w).bind
      (S := fun _ _ => True) fun e v _ => ?_) fun x stage v hx _ _ => hx.1
    refine (honours_closing (.lift (shut_quiet b)) .shut v).bind fun closed v' _ => ?_
    split
    · exact Course.honours_value fun _ _ => trivial
    · exact honours_closing (guest_close_keeps quiet_indifferent e.guest) .shut v'

theorem leaveThreads_closing [Wasm.Machine] (threads : List Thread) (w : World) :
    (Process.leaveThreads threads).Honours (closing k) (fun _ stage _ => stage = .shut) .shut
      w := by
  induction threads generalizing w with
  | nil => exact fun _ _ => rfl
  | cons t threads ih =>
    refine Process.Honours.bind (leaveThread_closing t w) ?_
    rintro _ _ v rfl
    exact ih v

theorem shutModule_run {m : LoadedModule} (hm : w.modules[k]? = some m) (hopen : m.closed = false) :
    shutModule k w =
      (.ok (some m.threads), (setModule k (fun m => { m with closed := true }) w).2) := by
  refine (bind_run (loadedModule k) _ w).trans ?_
  rw [(loadedModule_finds k).run hm]
  dsimp only
  rw [hopen]
  rfl

theorem release_closing [Wasm.Machine] (w : World) :
    (Course.release k).Honours (closing k) .rung (fun _ _ => True) w := by
  refine (honours_closing (loadedModule_finds k).keeps .rung w).bind fun m v _ => ?_
  refine (honours_closing (.lift (log_quiet _ _ _ _)) .rung v).bind fun _ v' _ => ?_
  exact honours_closing (closeEngine_keeps quiet_indifferent m.engine) .rung v'

/-- A module that is open is closed in order, and its pump is told in the end. -/
theorem closeModule_closing [Wasm.Machine] (hopen : w.moduleClosed? k = some false) :
    Process.Honours (closing k) (fun _ stage _ => stage = .rung) (Course.closeModule k) .entered
      w := by
  intro v hv
  obtain ⟨m, hm, hclosed⟩ := Option.map_eq_some_iff.1 (Eq.trans hv hopen)
  have hshut : (shutModule k).run v = _ := shutModule_run hm hclosed
  rw [hshut]
  refine ⟨.shut, ⟨rfl, .shuts⟩, ?_⟩
  change Process.Honours _ _ (Course.ofProcess (.leaveThreads m.threads) >>= _ : Course Unit) _ _
  refine Process.Honours.bind (leaveThreads_closing m.threads _).ofProcess ?_
  rintro _ _ v₁ ⟨_, rfl, rfl⟩
  exact fun v₂ _ => ⟨.ended, ⟨rfl, .ends⟩, fun v₃ _ => ⟨.rung, ⟨rfl, .rings⟩,
    Process.Honours.imp (release_closing _) fun _ _ _ hend => hend.1⟩⟩

end

end GuestThreads.World
