import GuestThreads.Proofs.World.Counting.Code

/-!
# Threads of the counting guest succeed

From its entry in the books to its end a thread keeps to its contract and succeeds, whatever the
other threads do meanwhile.
-/

namespace GuestThreads.World

open Worker (Message Note)

variable {α β : Type} {σ : Site} {n : Nat} {closure : UInt32} {tally : Tally} {w : World}

/-! ## Calm pieces -/

/-- A piece that changes neither memories nor threads, and what follows it. -/
theorem honours_calmly {act : Act α} {f : α → Process β} {Q : β → Tally → World → Prop}
    (hact : Keeps (calm σ n) act)
    (h : ∀ v, (relies σ n).rel w v → Process.Honours (tallying σ n closure) Q (f (act v).1) tally
      (act v).2) :
    (Process.atom act >>= f).Honours (tallying σ n closure) Q tally w :=
  fun v hv => ⟨tally, Calm.step (hact v) rfl closure tally, h v hv⟩

theorem achieves_calmly {act : Try α} {f : α → Course β} {Q : β → Tally → World → Prop}
    (h : ∀ v, (relies σ n).rel w v → ∃ a v', act v = (.ok a, v') ∧ Calm σ n v v' ∧
      (f a).Achieves (tallying σ n closure) Q tally v') :
    (Course.atom act >>= f).Achieves (tallying σ n closure) Q tally w := by
  intro v hv
  obtain ⟨a, v', hact, hcalm, hend⟩ := h v hv
  change ∃ tally', (tallying σ n closure).step tally none v tally' (act v).2 ∧
    Process.Honours _ _ (ExceptT.bindCont f (act v).1) tally' (act v).2
  rw [hact]
  exact ⟨tally, hcalm.step rfl closure tally, hend⟩

/-- A calm piece at the end. -/
theorem achieves_calmly_last {act : Try α} {P : α → Tally → World → Prop}
    (h : ∀ v, (relies σ n).rel w v → ∃ a v', act v = (.ok a, v') ∧ Calm σ n v v' ∧
      ∀ u, (relies σ n).rel v' u → P a tally u) :
    (Course.atom act).Achieves (tallying σ n closure) P tally w := by
  refine Course.achieves_atom fun v hv => ?_
  obtain ⟨a, v', hact, hcalm, hend⟩ := h v hv
  exact ⟨a, v', tally, hact, hcalm.step rfl closure tally, hend⟩

/-- The worker turns to the guest, which does what is asked. -/
theorem honours_asking {p : Course α} {next : Except Fault α → Process β}
    {P : α → Tally → World → Prop} {Q : β → Tally → World → Prop} {effect : Worker.Effect Guest}
    (hp : p.Achieves (tallying σ n closure) P tally w)
    (hnext : ∀ a tally v, P a tally v → (next (.ok a)).Honours (tallying σ n closure) Q tally v) :
    (Process.note (.asked effect) (p.run >>= next)).Honours (tallying σ n closure) Q tally w := by
  refine fun v hv => ⟨tally, Calm.step ((calm σ n).refl v) rfl closure tally, ?_⟩
  refine (hp.later hv).bind ?_
  rintro _ tally' u ⟨a, rfl, ha⟩
  exact hnext a tally' u ha

/-! ## An instance -/

section

variable {t : Thread}

theorem boarded_calm (σ : Site) (n : Nat) (w : World) (x : Wasm.Instance) :
    Calm σ n w (σ.boarded w x) :=
  { (calm σ n).refl w with
    engines := .modify fun _ => rfl
    code := .push x }

theorem enlisted_calm (σ : Site) (n : Nat) (w : World) (k id inst : Nat) (sink : Option Sink) :
    Calm σ n w (enlisted w k id inst sink) :=
  { (calm σ n).refl w with
    instances := .push _ }

theorem link_achieves (hσ : σ.Proper) (h : Berth σ n t w) (sink : Option Sink) :
    (Course.link σ.engine σ.guest.meaning sink false).Achieves (tallying σ n closure)
      (fun inst tally' v => tally' = tally ∧ Berth σ n t v ∧
        v.store.instances[inst]?.map Wasm.Instance.fixture =
          some (Wasm.seated σ.guest.meaning σ.poster inst σ.linear)) tally w := by
  refine achieves_calmly fun v hv => ?_
  obtain ⟨e, x, hx, hinstall⟩ := (h.later (kept_of_relies hv)).holds.install hσ
  have hcalm := boarded_calm σ n v x
  refine ⟨_, _, hinstall, hcalm, achieves_calmly fun v' hv' => ?_⟩
  refine ⟨(), v', fill_ok (Wasm.interpreter_fill v'.store _), (calm σ n).refl v', ?_⟩
  refine Course.achieves_value fun u hu => ?_
  have hu := (relies σ n).trans hv' hu
  refine ⟨rfl, h.later (hcalm.kept_around hv hu), ?_⟩
  refine hu.sustains.code _ _ ?_
  change (v.store.instances.push x)[v.store.instances.size]?.map _ = _
  rw [Array.getElem?_push_size, Option.map_some, hx]

theorem instantiate_achieves (hσ : σ.Proper) (h : Berth σ n t w) :
    (Course.instantiate σ.engine σ.guest.encode (some σ.memory) (some (.relay (σ.relay n)))
      false).Achieves (tallying σ n closure)
      (fun m tally' v => tally' = tally ∧ ∃ inst, Seat σ n t m inst v) tally w := by
  refine Course.Achieves.orElse (achieves_calmly fun v hv => ?_) _
  have hv := h.later (kept_of_relies hv)
  refine ⟨_, v, hv.holds.vet hσ, (calm σ n).refl v, (link_achieves hσ hv _).bind ?_⟩
  rintro inst _ u ⟨rfl, hu, hseated⟩
  refine achieves_calmly_last fun x hx => ⟨_, _, rfl, enlisted_calm σ n x _ _ _ _, fun y hy => ?_⟩
  refine ⟨rfl, inst, hu.later ((enlisted_calm σ n x _ _ _ _).kept_around hx hy), ?_⟩
  refine Aboard.later ⟨Array.getElem?_push_size, ?_⟩ hy.sustains
  exact hx.sustains.code _ _ hseated

end

/-! ## Calls -/

section

variable {t : Thread} {m inst : Nat}

/-- Something that lasts around the pieces of thread `n`, which has an instance. -/
structure Lasting (σ : Site) (n : Nat) (t : Thread) (m inst : Nat) (S : World → Prop) : Prop where
  seat : ∀ v, S v → Seat σ n t m inst v
  later : ∀ v v', Kept σ n (· = σ.tls n) v v' → S v → S v'

theorem seat_lasting : Lasting σ n t m inst (Seat σ n t m inst) where
  seat _ := id
  later _ _ hv h := h.later hv

theorem settled_lasting {pointer : UInt32} :
    Lasting σ n t m inst (Settled σ n t m inst pointer) where
  seat _ h := h.seat
  later _ _ hv h := h.later hv

variable {S : World → Prop}

/-- The stack pointer is written, which no one else can tell. -/
theorem setGlobal_achieves (hσ : σ.Proper) (hS : Lasting σ n t m inst S) (h : S w) (v : UInt32) :
    (Course.atom (Guest.setGlobal (.live m) σ.config.exports.stackPointer v)).Achieves
      (tallying σ n closure) (fun _ tally' u => tally' = tally ∧ S u) tally w := by
  refine achieves_calmly_last fun u hu => ?_
  have hcalm : Calm σ n u { u with store := u.store.setGlobal inst 0 v.toUInt64 } :=
    { (calm σ n).refl u with
      code := .modify fun _ => rfl }
  have hset := (hS.seat u (hS.later _ _ (kept_of_relies hu) h)).aboard.setGlobal hσ v
  exact ⟨_, _, hset, hcalm, fun u' hu' => ⟨rfl, hS.later _ _ (hcalm.kept_around hu hu') h⟩⟩

/-- A call succeeds if the code of the function does. -/
theorem callGuest_achieves {Q : Tally → World → Prop} (hS : Lasting σ n t m inst S) (h : S w)
    {e : Wasm.Export} {code : List Wasm.Instr} {arg : UInt32} (hkind : e.kind = .func)
    (he : σ.guest.meaning.export? e.name = some e)
    (hcallee : #[σ.poster, .code inst 1, .code inst 2][e.index]? = some (.code inst e.index))
    (hfunc : σ.guest.meaning.funcs[e.index - 1]? = some { typeIndex := e.index, code := code })
    (htypes : σ.guest.types[e.index]? = some Wasm.pointerType)
    (htype : σ.guest.meaning.funcType? e.index = some Wasm.pointerType)
    (hQ : ∀ tally, Lasting σ n t m inst (Q tally))
    (hrun : ∀ v, S v → (Course.runGuest (some (.relay (σ.relay n))) .trap Wasm.stepLimit
      [Wasm.pointerCall inst e.index arg code []]).Achieves (tallying σ n closure)
      (fun _ tally' u => Q tally' u) tally v) :
    (Course.callGuest (.live m) false e.name [arg.toUInt64]).Achieves (tallying σ n closure)
      (fun _ tally' u => Q tally' u) tally w := by
  refine achieves_calmly fun v hv => ?_
  have hv := hS.later _ _ (kept_of_relies hv) h
  obtain ⟨engine, hfind⟩ :=
    (hS.seat v hv).aboard.findFunction (hS.seat v hv).berth.holds hkind he
  refine ⟨_, v, hfind, (calm σ n).refl v, achieves_calmly fun u hu => ?_⟩
  have hu := hS.later _ _ (kept_of_relies hu) hv
  refine ⟨_, u, (hS.seat u hu).aboard.enterCall hcallee hfunc htype htypes engine arg,
    (calm σ n).refl u, (hrun u hu).bind fun results tally' x hx => ?_⟩
  refine achieves_calmly_last fun y hy => ?_
  have hy := (hQ tally').later _ _ (kept_of_relies hy) hx
  exact ⟨results, y, ((hQ tally').seat y hy).aboard.unlessClosed results, (calm σ n).refl y,
    fun z hz => (hQ tally').later _ _ (kept_of_relies hz) hy⟩

theorem Lasting.const {p : Prop} (h : Lasting σ n t m inst S) :
    Lasting σ n t m inst (fun v => p ∧ S v) where
  seat v hv := h.seat v hv.2
  later v v' hv h' := ⟨h'.1, h.later v v' hv h'.2⟩

/-- The TLS region is initialized. -/
theorem initTls_achieves (hσ : σ.Proper) (hroom : σ.Room n) (h : Seat σ n t m inst w)
    {pointer : UInt32} (hpointer : pointer.toNat = σ.tls n) :
    (Course.callGuest (.live m) false σ.config.exports.initTls [pointer.toUInt64]).Achieves
      (tallying σ n closure)
      (fun _ tally' v => tally' = tally ∧ Settled σ n t m inst pointer v) tally w :=
  callGuest_achieves (e := ⟨_, .func, 1⟩)
    (Q := fun tally' v => tally' = tally ∧ Settled σ n t m inst pointer v) seat_lasting h rfl
    hσ.exposes.initTls rfl rfl rfl rfl (fun _ => settled_lasting.const) fun _ hv =>
      noteDown_achieves hroom hv hpointer _ tally

/-- The entrypoint is called. -/
theorem entrypoint_achieves (hσ : σ.Proper) (hroom : σ.Room n) {pointer : UInt32}
    (h : Settled σ n t m inst pointer w) :
    (Course.callGuest (.live m) false σ.config.exports.entrypoint [closure.toUInt64]).Achieves
      (tallying σ n closure)
      (fun _ tally v => (∃ old, tally = .told old) ∧ Settled σ n t m inst pointer v) .waiting w :=
  callGuest_achieves (e := ⟨_, .func, 2⟩)
    (Q := fun tally v => (∃ old, tally = .told old) ∧ Settled σ n t m inst pointer v)
    settled_lasting h rfl hσ.exposes.entrypoint rfl rfl rfl rfl (fun _ => settled_lasting.const)
    fun _ hv => addAndPost_achieves hσ hroom hv

/-! ## A bring-up -/

/-- The worker of thread `n` makes instances of the guest. -/
structure Site.Suits (σ : Site) (n : Nat) (entry : WorkerEntry) : Prop where
  maker : entry.maker = .engine σ.engine
  relay : entry.relay = σ.relay n
  exports : entry.exports = σ.config.exports

/-- The message that a thread with this region is brought up with. -/
def Site.message (σ : Site) (region : Region) (closure : UInt32) : Message Nat where
  bytes := σ.guest.encode
  memory := some σ.memory
  stackPtr := region.stackPtr
  tlsPtr := region.tlsPtr
  closurePtr := closure

variable {entry : WorkerEntry} {msg : Message Nat}

/-- How far the worker has come is taken down. -/
theorem honours_noting {Q : β → Tally → World → Prop} {p : Process β} (note : Note)
    (hS : Lasting σ n t m inst S) (h : S w)
    (hp : ∀ v, S v → p.Honours (tallying σ n closure) Q tally v) :
    (Process.atom (observe (σ.worker n) entry msg note) >>= fun _ => p).Honours
      (tallying σ n closure) Q tally w := by
  have hcalm := observe_keeps (calm_observed σ n) entry msg note
  refine honours_calmly hcalm fun v hv => hp _ ?_
  exact hS.later _ _ ((hcalm v).kept _) (hS.later _ _ (kept_of_relies hv) h)

/-- A function of the guest is looked up. -/
theorem honours_looking {Q : β → Tally → World → Prop} {f : Option (List Wasm.ValType) → Process β}
    (hS : Lasting σ n t m inst S) (h : S w) {e : Wasm.Export} (hkind : e.kind = .func)
    (he : σ.guest.meaning.export? e.name = some e)
    (htype : σ.guest.meaning.funcType? e.index = some Wasm.pointerType)
    (hf : ∀ v, S v → (f (some [.i32])).Honours (tallying σ n closure) Q tally v) :
    (Process.atom (do return Guest.params? (.live m) e.name (← get)) >>= f).Honours
      (tallying σ n closure) Q tally w := by
  refine honours_calmly (fun v => (calm σ n).refl v) fun v hv => ?_
  have hv := hS.later _ _ (kept_of_relies hv) h
  change Process.Honours _ _ (f (Guest.params? (.live m) e.name v)) tally v
  rw [(hS.seat v hv).aboard.params? hkind he htype]
  exact hf v hv

theorem makeInstance_achieves (hσ : σ.Proper) (hentry : σ.Suits n entry) (h : Berth σ n t w)
    (region : Region) :
    (Course.makeInstance entry false (σ.message region closure)).Achieves (tallying σ n closure)
      (fun g tally' v => tally' = tally ∧ ∃ m inst, g = .live m ∧ Seat σ n t m inst v) tally w := by
  rw [Course.makeInstance, hentry.maker, hentry.relay]
  refine (instantiate_achieves hσ h).bind ?_
  rintro m _ v ⟨rfl, inst, hv⟩
  exact Course.achieves_value fun u hu => ⟨rfl, m, inst, rfl, hv.later (kept_of_relies hu)⟩

/-- The thread is brought up step by step. -/
theorem steps_honours (hσ : σ.Proper) (hroom : σ.Room n) (hentry : σ.Suits n entry)
    (h : Berth σ n t w) {region : Region} (hregion : region.tlsPtr.toNat = σ.tls n) :
    (Process.carryOut (Conduct.guests entry false) (σ.worker n) entry (σ.message region closure)
      (.steps entry.exports region.stackPtr region.tlsPtr closure) .uninitialized).Honours
      (tallying σ n closure)
      (fun out tally v => ∃ m inst, out = (.ok (.live m), .running) ∧
        (∃ old, tally = .told old) ∧ Settled σ n t m inst region.tlsPtr v) .waiting w := by
  rw [hentry.exports]
  refine honours_asking (makeInstance_achieves hσ hentry h region) ?_
  rintro _ _ v ⟨rfl, m, inst, rfl, hv⟩
  refine honours_noting (.advanced .instantiated) seat_lasting hv fun v hv => ?_
  refine honours_asking (setGlobal_achieves hσ seat_lasting hv region.stackPtr) ?_
  rintro _ _ v ⟨rfl, hv⟩
  refine honours_noting (.advanced .stackSet) seat_lasting hv fun v hv => ?_
  refine honours_looking seat_lasting hv (e := ⟨_, .func, 1⟩) rfl hσ.exposes.initTls rfl
    fun v hv => ?_
  refine honours_asking (initTls_achieves hσ hroom hv hregion) ?_
  rintro _ _ v ⟨rfl, hv⟩
  refine honours_noting (.advanced .tlsInitialized) settled_lasting hv fun v hv => ?_
  refine honours_looking settled_lasting hv (e := ⟨_, .func, 2⟩) rfl hσ.exposes.entrypoint rfl
    fun v hv => ?_
  refine honours_noting (.advanced .running) settled_lasting hv fun v hv => ?_
  refine honours_asking (entrypoint_achieves hσ hroom hv) ?_
  rintro _ _ v ⟨htold, hv⟩
  exact fun u hu => ⟨m, inst, rfl, htold, hv.later (kept_of_relies hu)⟩

end

/-! ## How a thread ends -/

section

variable {t : Thread} {m inst : Nat} {entry : WorkerEntry} {msg : Message Nat} {pointer : UInt32}

/-- The worker of thread `n` has come all the way, without a failure. -/
def Brought (σ : Site) (n : Nat) (w : World) : Prop :=
  ∃ e, w.workers[σ.worker n]? = some e ∧ e.progress = { state := .running, handled := true }

theorem Brought.later {w' : World} (h : Brought σ n w) (hw : (relies σ n).rel w w') :
    Brought σ n w' := by
  obtain ⟨e, he, hprogress⟩ := h
  exact ⟨e, hw.workers _ rfl e he, hprogress⟩

theorem setProgress_brought (h : Berth σ n t w) :
    Brought σ n (setWorker (σ.worker n) (fun e => { e with
      progress := { state := .running, handled := true } }) w).2 := by
  obtain ⟨e, he, -⟩ := Option.map_eq_some_iff.1 h.hired
  exact ⟨_, getElem?_modify_self he, rfl⟩

theorem enterBridge_calm (entry : WorkerEntry) (g : Guest) :
    Keeps (calm σ n) (Course.enterBridge (σ.worker n) entry g) := fun w =>
  { (calm σ n).refl w with
    outfits := .modify fun _ => rfl
    workerCount := Array.size_modify ..
    others := fun _ hj => getElem?_modify_ne hj.symm }

theorem enterBridge_brought (h : Brought σ n w) (entry : WorkerEntry) (g : Guest) :
    Brought σ n (Course.enterBridge (σ.worker n) entry g w).2 := by
  obtain ⟨e, he, hprogress⟩ := h
  exact ⟨_, getElem?_modify_self he, hprogress⟩

theorem observe_brought (h : Brought σ n w) (entry : WorkerEntry) (msg : Message Nat)
    (note : Worker.Note) (hnote : Ending note) :
    Brought σ n (observe (σ.worker n) entry msg note w).2 := by
  obtain ⟨logs, spans, hobserve⟩ := observe_ending (σ.worker n) entry msg hnote w
  have hworld : (observe (σ.worker n) entry msg note w).2 = _ := hobserve w.workers w.bridges rfl
  rw [hworld]
  exact h

/-- A thread that was brought up gets its bridge. -/
theorem settle_achieves (h : Settled σ n t m inst pointer w) :
    (Course.settle (σ.worker n) entry msg {} (.ok (.live m), .running)).Achieves
      (tallying σ n closure)
      (fun _ tally' v => tally' = tally ∧ Settled σ n t m inst pointer v ∧ Brought σ n v)
      tally w := by
  have hreturned := observe_keeps (calm_observed σ n) entry msg .returned
  have hset : Keeps (calm σ n) (setWorker (σ.worker n) fun e => { e with
      progress := { state := .running, handled := true } }) := setWorker_calm σ n fun _ => rfl
  have henter := enterBridge_calm (σ := σ) (n := n) entry (.live m)
  refine achieves_calmly fun v hv => ⟨_, _, rfl, hset v, ?_⟩
  have hv := h.later (kept_of_relies hv)
  have hbrought := setProgress_brought hv.seat.berth
  have hv := hv.later ((hset v).kept _)
  refine achieves_calmly fun u hu => ⟨_, _, rfl, henter u, ?_⟩
  have hbrought := enterBridge_brought (hbrought.later hu) entry (.live m)
  have hu := (hv.later (kept_of_relies hu)).later ((henter u).kept _)
  refine achieves_calmly fun x hx =>
    ⟨(), (observe (σ.worker n) entry msg .returned x).2, rfl, hreturned x, ?_⟩
  have hbrought := observe_brought (hbrought.later hx) entry msg .returned trivial
  have hx := (hu.later (kept_of_relies hx)).later ((hreturned x).kept _)
  exact Course.achieves_value fun y hy =>
    ⟨rfl, hx.later (kept_of_relies hy), hbrought.later hy⟩

/-- The thread has posted, and its worker has come all the way. -/
structure Raised (σ : Site) (n : Nat) (t : Thread) (pointer : UInt32) (tally : Tally) (w : World) :
    Prop where
  told : ∃ old, tally = .told old
  berth : Berth σ n t w
  noted : Noted σ n pointer w
  brought : Brought σ n w

theorem Raised.later {w' : World} (h : Raised σ n t pointer tally w)
    (hw : (relies σ n).rel w w') : Raised σ n t pointer tally w' where
  told := h.told
  berth := h.berth.later (kept_of_relies hw)
  noted := h.noted.later (kept_of_relies hw)
  brought := h.brought.later hw

theorem bringUp_achieves (hσ : σ.Proper) (hroom : σ.Room n) (hentry : σ.Suits n entry)
    (h : Berth σ n t w) {region : Region} (hregion : region.tlsPtr.toNat = σ.tls n) :
    (Course.bringUp (Conduct.guests entry false) (σ.worker n) entry (σ.message region closure)
      {}).Achieves (tallying σ n closure)
      (fun _ tally v => Raised σ n t region.tlsPtr tally v) .waiting w := by
  refine (Course.achieves_ofProcess (steps_honours hσ hroom hentry h hregion)).bind ?_
  rintro _ _ v ⟨m, inst, rfl, htold, hv⟩
  refine (settle_achieves hv).imp ?_
  rintro _ _ u ⟨rfl, hu, hbrought⟩
  exact ⟨htold, hu.seat.berth, hu.noted, hbrought⟩

end

/-! ## A thread as a whole -/

section

variable {region : Region}

/-- The entry of thread `n` while the thread runs. -/
def Site.thread (σ : Site) (n : Nat) (region : Region) : Thread where
  id := n
  region := region
  worker := σ.worker n

/-- Thread `n` was entered, and its worker has not begun. -/
structure Enrolled (σ : Site) (n : Nat) (region : Region) (w : World) : Prop where
  berth : Berth σ n (σ.thread n region) w
  entry : ∃ e, w.workers[σ.worker n]? = some e ∧ σ.Suits n e ∧ e.progress = {}

theorem Enrolled.later {w' : World} (h : Enrolled σ n region w) (hw : (relies σ n).rel w w') :
    Enrolled σ n region w' := by
  obtain ⟨e, he, hsuits⟩ := h.entry
  exact ⟨h.berth.later (kept_of_relies hw), e, hw.workers _ rfl e he, hsuits⟩

/-- Thread `n` has ended well. -/
structure Served (σ : Site) (n : Nat) (region : Region) (tally : Tally) (w : World) : Prop where
  told : ∃ old, tally = .told old
  thread : ∃ b, w.thread? σ.module n =
    some { σ.thread n region with done := true, bridge := some b }
  noted : Noted σ n region.tlsPtr w
  brought : Brought σ n w

theorem Served.later {w' : World} (h : Served σ n region tally w) (hw : (relies σ n).rel w w') :
    Served σ n region tally w' := by
  obtain ⟨b, hb⟩ := h.thread
  exact ⟨h.told, ⟨b, hw.threads n rfl _ hb⟩, h.noted.later (kept_of_relies hw), h.brought.later hw⟩

theorem Raised.finish (h : Raised σ n (σ.thread n region) region.tlsPtr tally w) (b : Nat) :
    Served σ n region tally (finishThread σ.module n (.ok b) w).2 := by
  refine ⟨h.told, ⟨b, ?_⟩, h.noted, h.brought⟩
  rw [thread?_finish, if_pos rfl, h.berth.thread]
  rfl

/-- The worker acts on its first message. -/
theorem handle_achieves (hσ : σ.Proper) (hroom : σ.Room n) (h : Enrolled σ n region w)
    (hregion : region.tlsPtr.toNat = σ.tls n) {entry : WorkerEntry} (hentry : σ.Suits n entry) :
    (Course.handle (Conduct.guests entry false) (σ.worker n) entry (σ.message region closure)
      ).Achieves (tallying σ n closure)
      (fun _ tally v => Raised σ n (σ.thread n region) region.tlsPtr tally v) .waiting w := by
  intro v hv
  have hv := h.later hv
  obtain ⟨e, he, -, hprogress⟩ := hv.entry
  have hclaim := claim_run he entry (σ.message region closure)
  rw [hprogress] at hclaim
  have hstarted := observe_keeps (calm_observed σ n) entry (σ.message region closure) .started v
  change ∃ tally', (tallying σ n closure).step .waiting (some .delivered) v tally'
    (Course.claim _ _ _ v).2 ∧ Process.Honours _ _ (Course.goOn _ _ _ _ (Course.claim _ _ _ v).1)
      tally' (Course.claim _ _ _ v).2
  rw [hclaim]
  exact ⟨.waiting, Calm.step hstarted rfl closure _,
    bringUp_achieves hσ hroom hentry (hv.berth.later (hstarted.kept (· = σ.tls n))) hregion⟩

theorem runWorker_achieves (hσ : σ.Proper) (hroom : σ.Room n) (h : Enrolled σ n region w)
    (hregion : region.tlsPtr.toNat = σ.tls n) :
    (Course.runWorker (Conduct.guests · false) (σ.worker n)
      (.message (σ.message region closure))).Achieves (tallying σ n closure)
      (fun _ tally v => Raised σ n (σ.thread n region) region.tlsPtr tally v) .waiting w := by
  refine achieves_calmly fun v hv => ?_
  have hv := h.later hv
  obtain ⟨e, he, hsuits, -⟩ := hv.entry
  exact ⟨e, v, (workerEntry_finds (σ.worker n)).run he, (calm σ n).refl v,
    handle_achieves hσ hroom hv hregion hsuits⟩

/-- A thread that was entered runs to its end without a failure. -/
theorem serve_achieves (hσ : σ.Proper) (hroom : σ.Room n) (h : Enrolled σ n region w)
    (hregion : region.tlsPtr.toNat = σ.tls n) :
    (Course.serve σ.module (σ.thread n region) closure false true).Achieves (tallying σ n closure)
      (fun _ tally v => Served σ n region tally v) .waiting w := by
  refine achieves_calmly fun v hv => ?_
  have hv := h.later hv
  obtain ⟨m, hm, -, hmemory, hbytes, -⟩ := hv.berth.holds.loaded
  have hmessage : Course.bootstrap m (σ.thread n region) closure = σ.message region closure := by
    rw [Course.bootstrap, hmemory, hbytes]
    rfl
  refine ⟨m, v, (loadedModule_finds σ.module).run hm, (calm σ n).refl v, ?_⟩
  rw [hmessage]
  refine achieves_calmly fun u hu => ⟨_, _, rfl, (calm_observed σ n).logs u _, ?_⟩
  have hu := hv.later hu
  have hlogged (logs : Array Log.Record) : Enrolled σ n region { u with logs := logs } :=
    ⟨hu.berth.later (((calm_observed σ n).logs u logs).kept (· = σ.tls n)), hu.entry⟩
  refine (Course.achieves_attempt (runWorker_achieves hσ hroom (hlogged _) hregion)).bind ?_
  rintro _ tally x ⟨b, rfl, hx⟩
  refine Course.Achieves.bind (P := fun _ tally v => Served σ n region tally v)
    (Course.achieves_atom fun y hy => ?_) fun _ _ z hz =>
      Course.achieves_value fun z' hz' => hz.later hz'
  exact ⟨_, _, tally, rfl, finishThread_step b closure tally y,
    fun z hz => ((hx.later hy).finish b).later hz⟩

end

end GuestThreads.World
