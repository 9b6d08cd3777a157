import GuestThreads.Wasm.Assembly
import GuestThreads.Proofs.World.Sharing

/-!
# Instances leave each other alone

Whatever is asked of an instance, all others stay as they are, and only its own sink gets signals:
just those that its code passes to the signal import, in order. Memory is what instances share: what
one of them writes is what all others find there, and so do views from outside.
-/

namespace GuestThreads.World

/-! ## Mail -/

/-- Signals have come just as far: inboxes, relays and streams are as they were. -/
structure SameMail (w w' : World) : Prop where
  inboxes : w'.inboxes = w.inboxes
  relays : w'.relays = w.relays
  modules : w'.modules = w.modules

theorem SameMail.refl (w : World) : SameMail w w := ⟨rfl, rfl, rfl⟩

theorem SameMail.trans {w w' w'' : World} (h : SameMail w w') (g : SameMail w' w'') :
    SameMail w w'' :=
  ⟨g.inboxes.trans h.inboxes, g.relays.trans h.relays, g.modules.trans h.modules⟩

section

variable {w w' : World}

theorem SameMail.deliver (h : SameMail w w') (outbox : Outbox) (s : Signal) :
    SameMail (World.deliver outbox s w).2 (World.deliver outbox s w').2 := by
  cases outbox with
  | none => exact h
  | inbox b =>
    exact ⟨congrArg (fun xs => xs.modify b (· ++ [s])) h.inboxes, h.relays, h.modules⟩
  | stream m t =>
    let arrive (loaded : LoadedModule) : LoadedModule :=
      { loaded with stream := loaded.stream.post { thread := t, signal := s } }
    exact ⟨h.inboxes, h.relays, congrArg (fun xs => xs.modify m arrive) h.modules⟩

/-- Posting depends on the mail alone. -/
theorem SameMail.postSignal (h : SameMail w w') (sink : Option Sink) (s : Signal) :
    SameMail (World.postSignal sink s w).2 (World.postSignal sink s w').2 := by
  rcases sink with - | b | k
  · exact ⟨h.inboxes, h.relays, h.modules⟩
  · exact h.deliver (.inbox b) s
  · change SameMail (relaySignal k s w).2 (relaySignal k s w').2
    cases hk : w.relays[k]? with
    | none =>
      rw [relaySignal_none hk, relaySignal_none (h.relays ▸ hk)]
      exact h
    | some entry =>
      obtain ⟨relay, outbox⟩ := entry
      rw [relaySignal_some hk, relaySignal_some (h.relays ▸ hk)]
      let counted (w : World) : World := { w with
        relays := w.relays.setIfInBounds k ({ relay with count := relay.count + 1 }, outbox) }
      have hcounted : SameMail (counted w) (counted w') := by
        refine ⟨h.inboxes, ?_, h.modules⟩
        dsimp only [counted]
        rw [h.relays]
      change SameMail ((if relay.hasOutbox then World.deliver outbox s else pure ()) (counted w)).2
        ((if relay.hasOutbox then World.deliver outbox s else pure ()) (counted w')).2
      cases relay.hasOutbox with
      | false => exact hcounted
      | true => exact hcounted.deliver outbox s

theorem SameMail.afterPosts (h : SameMail w w') (sink : Option Sink) (signals : List Signal) :
    SameMail (World.afterPosts sink signals w) (World.afterPosts sink signals w') := by
  induction signals generalizing w w' with
  | nil => exact h
  | cons s signals ih => exact ih (h.postSignal sink s)

end

/-! ## Closing -/

theorem close_memories (s : Wasm.Store) (owner : Wasm.Owner) (why : Wasm.Closing) :
    (s.close owner why).memories = s.memories := by
  cases owner with
  | «instance» inst => rfl
  | host home =>
    change (s.closeHost home why).memories = _
    rw [Wasm.Store.closeHost]
    split <;> rfl

theorem close_others {s : Wasm.Store} {owner : Wasm.Owner} {why : Wasm.Closing} {k : Nat}
    (h : owner ≠ .instance k) : (s.close owner why).instances[k]? = s.instances[k]? := by
  cases owner with
  | «instance» inst =>
    have hne : inst ≠ k := by
      rintro rfl
      exact h rfl
    exact getElem?_modify_ne hne
  | host home =>
    change (s.closeHost home why).instances[k]? = _
    rw [Wasm.Store.closeHost]
    split <;> rfl

/-- An instance shows the globals that it has in the store. -/
theorem instanceGlobal_congr {w w' : World} {j : Nat} {i : LiveInstance}
    (hi : w.instances[j]? = some i) (hi' : w'.instances[j]? = some i)
    (hstore : w'.store.instances[i.inst]? = w.store.instances[i.inst]?) (name : String) :
    w'.instanceGlobal j name = w.instanceGlobal j name := by
  have hexport : w'.export? i .global name = w.export? i .global name := by
    rw [World.export?, World.export?, hstore]
  have hglobal (index : Nat) : w'.store.global i.inst index = w.store.global i.inst index := by
    rw [Wasm.Store.global, Wasm.Store.global, hstore]
  simp only [instanceGlobal, hi, hi', hexport, hglobal]

theorem closeInstance_spares (w : World) (j : Nat) :
    let w' := (World.closeInstance j w).2
    SameMail w w' ∧ w'.memories = w.memories ∧ w'.store.memories = w.store.memories ∧
      ∀ k : Nat, (w.instances[j]?).map (·.inst) ≠ some k →
        w'.store.instances[k]? = w.store.instances[k]? := by
  rw [World.closeInstance, bind_run]
  cases hi : w.instances[j]? with
  | none =>
    rw [(liveInstance_finds j).miss hi]
    exact ⟨.refl w, rfl, rfl, fun _ _ => rfl⟩
  | some i =>
    rw [(liveInstance_finds j).run hi]
    exact ⟨⟨rfl, rfl, rfl⟩, rfl, rfl,
      fun k hk => getElem?_modify_ne fun heq => hk (congrArg some heq)⟩

theorem setInstanceGlobal_cases (w : World) (j : Nat) (name : String) (v : UInt32) :
    (∃ f, setInstanceGlobal j name v w = (.error f, w)) ∨
    ∃ i x f, w.instances[j]? = some i ∧ w.export? i .global name = some (x, f) ∧
      setInstanceGlobal j name v w =
        (.ok (), { w with store := w.store.setGlobal i.inst f.index v.toUInt64 }) := by
  rw [setInstanceGlobal, bind_run]
  cases hi : w.instances[j]? with
  | none =>
    rw [(liveInstance_finds j).miss hi]
    exact .inl ⟨_, rfl⟩
  | some i =>
    rw [(liveInstance_finds j).run hi]
    dsimp only
    cases hopen : i.isOpen with
    | false => exact .inl ⟨_, rfl⟩
    | true =>
      rw [if_neg (by decide), read_run]
      cases hf : w.export? i .global name with
      | none => exact .inl ⟨_, rfl⟩
      | some found =>
        obtain ⟨x, f⟩ := found
        dsimp only
        cases x.module.globalType? f.index with
        | none => exact .inl ⟨_, rfl⟩
        | some t =>
          dsimp only
          split
          · exact .inl ⟨_, rfl⟩
          · split
            · exact .inl ⟨_, rfl⟩
            · exact .inr ⟨i, x, f, rfl, hf, rfl⟩

section Machines

variable [Wasm.Machine]

/-! ## Code that runs -/

/-- A call of a function of a guest on a store. -/
structure Activation where
  store : Wasm.Store
  inst : Nat
  index : Nat
  args : List UInt64
  entry : Entry

namespace Activation

def noted (a : Activation) : List Wasm.Mark := callMarks a.store a.inst a.index a.args a.entry

/-- The signals that the code passes to its import, in order, be it that it traps later. -/
def signals (a : Activation) : List Signal := Wasm.passed a.noted

/-- The store that the code leaves. -/
def left (a : Activation) : Wasm.Store := (a.entry.run a.store).2.2

/-- The code comes to an end before it is given up. -/
def Ends (a : Activation) : Prop := .givenUp ∉ a.noted

end Activation

/-- The code that a call makes run, unless it is refused or given up. -/
def activated? (s : Wasm.Store) (c : Config) (cancelled : Bool) (inst index : Nat)
    (args : List UInt64) : Option Activation := do
  let x ← s.instances[inst]?
  let t ← x.module.funcType? index
  let callee ← x.callees[index]?
  if args.length = t.params.length ∧ gaveUp c cancelled = false then
    let entry ← entering? s args callee
    return { store := s, inst := inst, index := index, args := args, entry := entry }
  else none

/-- A new instance that the machine has set up, unless it refused to. -/
structure SetUp where
  config : Config
  module : Wasm.Module
  inst : Nat
  refusal : Option String
  store : Wasm.Store

/-- The start function of a new instance. -/
def SetUp.activation? (u : SetUp) (cancelled : Bool) : Option Activation := do
  let start ← u.module.start
  if u.refusal = none then activated? u.store u.config cancelled u.inst start [] else none

namespace Request

/-- The instance that a request is about, a new one apart. -/
def subject? : Request → Option Nat
  | call i _ _ _ | global i _ | setGlobal i _ _ | close i => some i
  | _ => none

/-- Where the signals go that a request makes guest code post. -/
def sink? (w : World) : Request → Option Sink
  | call i _ _ _ => (w.instances[i]?).bind (·.sink)
  | instantiate _ _ _ sink _ => sink
  | _ => none

/-- The instance that a request adds to the store. -/
def setUp? (w : World) : Request → Option SetUp
  | instantiate k bytes shared _ _ => do
    let (_, m) ← (vetting w k bytes shared).toOption
    let e ← w.engines[k]?
    let (inst, store) ← (w.store.instantiate e.modules e.pageLimit m).toOption
    let (refusal, store) := store.fill inst
    return { config := e.config, module := m, inst := inst, refusal := refusal, store := store }
  | _ => none

/-- The guest code that a request makes run. -/
def activation? (w : World) : Request → Option Activation
  | call i name args cancelled => do
    let i ← w.instances[i]?
    let (_, f) ← w.export? i .func name
    let e ← w.engines[i.engine]?
    activated? w.store e.config cancelled i.inst f.index args
  | instantiate k bytes shared sink cancelled =>
    ((instantiate k bytes shared sink cancelled).setUp? w).bind (·.activation? cancelled)
  | _ => none

/-- The signals that guest code passes to its import on behalf of a request. -/
def passed (w : World) (r : Request) : List Signal :=
  ((r.activation? w).map Activation.signals).getD []

/-- The guest code that a request makes run comes to an end. -/
def Ends (w : World) (r : Request) : Prop := ∀ a, r.activation? w = some a → a.Ends

/-- The store that guest code leaves on behalf of a request, or the machine that has set up a new
instance of it. -/
def left (w : World) (r : Request) : Wasm.Store :=
  ((r.activation? w).map Activation.left).getD (((r.setUp? w).map SetUp.store).getD w.store)

/-- A request that concerns an instance. -/
def AboutGuest : Request → Prop
  | instantiate _ _ _ _ _ | call _ _ _ _ | global _ _ | setGlobal _ _ _ | close _ => True
  | _ => False

end Request

/-! ## What a call does -/

/-- What guest code leaves behind, if any runs: signals at its sink, and a store in which other
guests are as they were. -/
structure Effect (s : Wasm.Store) (inst env : Nat) (a : Option Activation) (posted : List Signal)
    (store : Wasm.Store) : Prop where
  posts : (∀ x, a = some x → x.Ends) → posted = (a.map Activation.signals).getD []
  within : ∀ x, a = some x → Wasm.Within x.inst x.store x.left
  memories : store.memories = ((a.map Activation.left).getD s).memories
  others : ∀ k : Nat, k ≠ inst → k ≠ env → store.instances[k]? = s.instances[k]?

theorem Effect.of_none {s : Wasm.Store} {inst env : Nat} : Effect s inst env none [] s :=
  ⟨fun _ => rfl, fun _ hx => (by cases hx), rfl, fun _ _ _ => rfl⟩

section

variable {w : World} {env inst : Nat} {m : Wasm.Module} {callees : List Wasm.Callee}

theorem activated?_of_type (h : Wasm.Resident w.store env inst m callees) {index : Nat}
    {t : Wasm.FuncType} {callee : Wasm.Callee} (ht : m.funcType? index = some t)
    (hcallee : callees[index]? = some callee) (c : Config) (cancelled : Bool)
    (args : List UInt64) : activated? w.store c cancelled inst index args =
      if args.length = t.params.length ∧ gaveUp c cancelled = false then
        (entering? w.store args callee).map fun entry =>
          { store := w.store, inst := inst, index := index, args := args, entry := entry }
      else none := by
  obtain ⟨x, hx, rfl, rfl⟩ := h.found
  rw [Array.getElem?_toList] at hcallee
  simp [activated?, hx, ht, hcallee, Option.map_eq_bind]

theorem activated?_of_refused (h : Wasm.Resident w.store env inst m callees) {index : Nat}
    {args : List UInt64} {f : Fault} (hf : refusal? args (m.funcType? index) = some f) (c : Config)
    (cancelled : Bool) : activated? w.store c cancelled inst index args = none := by
  cases ht : m.funcType? index with
  | none =>
    obtain ⟨x, hx, rfl, -⟩ := h.found
    simp [activated?, hx, ht]
  | some t =>
    obtain ⟨callee, hcallee, -⟩ := h.callee ht
    rw [activated?_of_type h ht hcallee, if_neg]
    rintro ⟨hargs, -⟩
    rw [ht, refusal?, if_pos hargs] at hf
    cases hf

theorem callFunction_effect [Wasm.Machine.RunsTrampolines]
    (h : Wasm.Resident w.store env inst m callees) (e : Engine) (sink : Option Sink)
    (cancelled : Bool) (index : Nat) (args : List UInt64)
    (trap : Wasm.Trap → List Wasm.Call → Cause) :
    ∃ r posted store, callFunction e sink cancelled inst index args trap w =
        (r, afterPosts sink posted { w with store := store }) ∧
      Effect w.store inst env (activated? w.store e.config cancelled inst index args) posted
        store := by
  cases hrefusal : refusal? args (m.funcType? index) with
  | some f =>
    rw [activated?_of_refused h hrefusal]
    exact ⟨_, [], w.store, callFunction_of_error e cancelled sink trap
      (enterCall_refused e cancelled h hrefusal), .of_none⟩
  | none =>
  obtain ⟨t, ht, hargs⟩ := type_of_unrefused hrefusal
  obtain ⟨callee, hcallee, hcase⟩ := h.callee ht
  rw [activated?_of_type h ht hcallee]
  cases hgaveUp : gaveUp e.config cancelled with
  | true =>
    rw [if_neg (by simp)]
    refine ⟨_, [], w.store.close callee.owner .cancelled,
      callFunction_of_error e cancelled sink trap
        (enterCall_gaveUp e cancelled h ht hargs hcallee hgaveUp),
      fun _ => rfl, fun _ hx => (by cases hx), close_memories _ _ _, ?_⟩
    intro k hinst henv
    refine close_others fun howner => ?_
    rcases hcase with ⟨-, -, hposts⟩ | ⟨-, rfl⟩
    · cases hposts with
      | host function => cases howner
      | forwarder => exact henv (Wasm.Owner.instance.inj howner).symm
    · exact hinst (Wasm.Owner.instance.inj howner).symm
  | false =>
    have hrun := callFunction_run e cancelled sink trap h ht hargs hcallee hgaveUp
    rw [if_pos ⟨hargs, rfl⟩]
    cases hentry : entering? w.store args callee with
    | none =>
      rw [hentry] at hrun
      exact ⟨_, [], w.store, hrun, .of_none⟩
    | some entry =>
      rw [hentry] at hrun
      have haccounts := accounts_of_entry h ht hargs hcallee hentry
      refine ⟨_, _, _, hrun, fun hends => ?_, ?_, rfl, fun k hinst _ => ?_⟩
      · exact haccounts.posts (hends _ rfl)
      · rintro _ ⟨⟩
        exact haccounts.within
      · exact haccounts.within.others k hinst

end

/-! ## What requests do -/

/-- What a request leaves behind: all other instances are as they were, the sink of the request has
got what guest code passed to the signal import, and guest code has changed memories and nothing
else has. -/
structure Confined (w : World) (r : Request) (w' : World) : Prop where
  others : ∀ (j : Nat) (i : LiveInstance), w.instances[j]? = some i → r.subject? ≠ some j →
    w'.instances[j]? = some i ∧ w'.store.instances[i.inst]? = w.store.instances[i.inst]?
  mail : ∃ posted, SameMail (afterPosts (r.sink? w) posted w) w' ∧
    (r.Ends w → posted = r.passed w)
  code : ∀ a, r.activation? w = some a → Wasm.Within a.inst a.store a.left
  memory : ∀ l < w.store.memories.size, w'.store.memories[l]? = (r.left w).memories[l]?

section

variable {w : World} {j : Nat} {name : String}

/-- No guest code runs, and no mail is sent. -/
theorem Confined.of_quiet {r : Request} {w' : World} (hactivation : r.activation? w = none)
    (hsetUp : r.setUp? w = none)
    (hothers : ∀ (j : Nat) (i : LiveInstance), w.instances[j]? = some i → r.subject? ≠ some j →
      w'.instances[j]? = some i ∧ w'.store.instances[i.inst]? = w.store.instances[i.inst]?)
    (hmail : SameMail w w') (hmemories : w'.store.memories = w.store.memories) :
    Confined w r w' where
  others := hothers
  mail := ⟨[], hmail, fun _ => by rw [Request.passed, hactivation]; rfl⟩
  code a ha := by cases hactivation.symm.trans ha
  memory l _ := by
    rw [Request.left, hactivation, hsetUp, hmemories]
    rfl

theorem Confined.of_unchanged {r : Request} (h : r.activation? w = none)
    (hsetUp : r.setUp? w = none) : Confined w r w :=
  .of_quiet h hsetUp (fun _ _ hi _ => ⟨hi, rfl⟩) (.refl w) rfl

theorem callInstance_cases (w : World) (j : Nat) (name : String) (args : List UInt64)
    (cancelled : Bool) :
    ((∃ f, callInstance j name args cancelled w = (.error f, w)) ∧
      (Request.call j name args cancelled).activation? w = none) ∨
    ∃ i e x f, w.instances[j]? = some i ∧ w.export? i .func name = some (x, f) ∧
      w.engines[i.engine]? = some e ∧ callInstance j name args cancelled w =
        callFunction e i.sink cancelled i.inst f.index args .trap w := by
  rw [callInstance, bind_run, findFunction, bind_run]
  cases hi : w.instances[j]? with
  | none =>
    rw [(liveInstance_finds j).miss hi]
    exact .inl ⟨⟨_, rfl⟩, by simp [Request.activation?, hi]⟩
  | some i =>
    rw [(liveInstance_finds j).run hi]
    dsimp only
    rw [read_run]
    cases hf : w.export? i .func name with
    | none => exact .inl ⟨⟨_, rfl⟩, by simp [Request.activation?, hi, hf]⟩
    | some found =>
      obtain ⟨x, f⟩ := found
      dsimp only
      rw [bind_run]
      cases he : w.engines[i.engine]? with
      | none =>
        rw [(engine_finds _).miss he]
        exact .inl ⟨⟨_, rfl⟩, by simp [Request.activation?, hi, hf, he]⟩
      | some e =>
        rw [(engine_finds _).run he]
        exact .inr ⟨i, e, x, f, rfl, hf, he, rfl⟩

theorem Populated.call_confined [Wasm.Machine.RunsTrampolines] (h : Populated w)
    (args : List UInt64) (cancelled : Bool) :
    Confined w (.call j name args cancelled) (callInstance j name args cancelled w).2 := by
  rcases callInstance_cases w j name args cancelled with
    ⟨⟨f, hf⟩, hnone⟩ | ⟨i, e, x, f, hi, hf, he, hrun⟩
  · rw [hf]
    exact .of_unchanged hnone rfl
  obtain ⟨m, hm, module, callees, hresident, -⟩ := h.lodged j i hi
  obtain ⟨r, posted, store, hcall, heffect⟩ :=
    callFunction_effect hresident e i.sink cancelled f.index args .trap
  have hactivation : (Request.call j name args cancelled).activation? w =
      activated? w.store e.config cancelled i.inst f.index args := by
    simp [Request.activation?, hi, hf, he]
  rw [← hactivation] at heffect
  rw [hrun, hcall]
  have hbeside := afterPosts_besideSignals i.sink posted { w with store := store }
  refine ⟨fun j' i' hi' hj => ⟨?_, ?_⟩, ⟨posted, ?_, heffect.posts⟩, heffect.within, fun l _ => ?_⟩
  · exact (congrArg (·[j']?) hbeside.instances).trans hi'
  · have hne : j' ≠ j := fun hjj => hj (congrArg some hjj.symm)
    refine (congrArg (·.instances[i'.inst]?) hbeside.store).trans (heffect.others i'.inst ?_ ?_)
    · exact h.distinct j' j i' i hi' hi hne
    · exact h.apart j' i.memory i' m hi' hm
  · have hsink : (Request.call j name args cancelled).sink? w = i.sink := by
      simp [Request.sink?, hi]
    rw [hsink]
    exact (SameMail.mk rfl rfl rfl : SameMail w { w with store := store }).afterPosts _ _
  · exact congrArg (·[l]?) ((congrArg (·.memories) hbeside.store).trans heffect.memories)

theorem Populated.setGlobal_confined (h : Populated w) (v : UInt32) :
    Confined w (.setGlobal j name v) (setInstanceGlobal j name v w).2 := by
  rcases setInstanceGlobal_cases w j name v with ⟨f, hf⟩ | ⟨i, x, f, hi, -, hset⟩
  · rw [hf]
    exact .of_unchanged rfl rfl
  · rw [hset]
    refine .of_quiet rfl rfl (fun j' i' hi' hj => ⟨hi', ?_⟩) ⟨rfl, rfl, rfl⟩ rfl
    have hne : j ≠ j' := fun hjj => hj (congrArg some hjj)
    exact getElem?_modify_ne (h.distinct j j' i i' hi hi' hne)

theorem Populated.close_confined (h : Populated w) :
    Confined w (.close j) (World.closeInstance j w).2 := by
  cases hi : w.instances[j]? with
  | none =>
    rw [World.closeInstance, bind_run, (liveInstance_finds j).miss hi]
    exact .of_unchanged rfl rfl
  | some i =>
    rw [World.closeInstance, bind_run, (liveInstance_finds j).run hi]
    refine .of_quiet rfl rfl (fun j' i' hi' hj => ?_) ⟨rfl, rfl, rfl⟩ rfl
    have hne : j ≠ j' := fun hjj => hj (congrArg some hjj)
    exact ⟨(getElem?_modify_ne hne).trans hi',
      getElem?_modify_ne (h.distinct j j' i i' hi hi' hne)⟩

/-! ### New instances -/

/-- What was compiled before does not matter to what a request does. -/
theorem Confined.of_stocked {w₁ w' : World} {r : Request} (h : Confined w₁ r w')
    (hw : Stocked w w₁) (hsetUp : r.setUp? w₁ = r.setUp? w)
    (hactivation : r.activation? w₁ = r.activation? w)
    (hsink : r.sink? w₁ = r.sink? w) : Confined w r w' where
  others j i hi hj := by
    rw [← hw.store]
    exact h.others j i (hw.instances ▸ hi) hj
  mail := by
    have hmail : SameMail w w₁ := ⟨hw.inboxes, hw.relays, hw.modules⟩
    obtain ⟨posted, hposted, hpassed⟩ := h.mail
    rw [Request.Ends, Request.passed, hactivation] at hpassed
    exact ⟨posted, hsink ▸ (hmail.afterPosts _ _).trans hposted, hpassed⟩
  code := hactivation ▸ h.code
  memory l hl := by
    rw [h.memory l (hw.store ▸ hl), Request.left, Request.left, hactivation, hsetUp, hw.store]

theorem setUp?_instantiate {k id : Nat} {bytes : Bytes} {shared : Option Nat} {e : Engine}
    {m : Wasm.Module} (hvetting : vetting w k bytes shared = .ok (id, m))
    (he : w.engines[k]? = some e) (sink : Option Sink) (cancelled : Bool) :
    (Request.instantiate k bytes shared sink cancelled).setUp? w =
      ((w.store.instantiate e.modules e.pageLimit m).toOption).map fun made =>
        { config := e.config, module := m, inst := made.1, refusal := (made.2.fill made.1).1,
          store := (made.2.fill made.1).2 } := by
  simp [Request.setUp?, hvetting, Except.toOption, he, Option.map_eq_bind]

theorem setUp?_of_error {k : Nat} {bytes : Bytes} {shared : Option Nat} {f : Fault}
    (h : vetting w k bytes shared = .error f) (sink : Option Sink) (cancelled : Bool) :
    (Request.instantiate k bytes shared sink cancelled).setUp? w = none := by
  simp [Request.setUp?, h, Except.toOption]

theorem Stocked.setUp?_eq {w₁ : World} (hw : Stocked w w₁) (k : Nat) (bytes : Bytes)
    (shared : Option Nat) (sink : Option Sink) (cancelled : Bool) :
    (Request.instantiate k bytes shared sink cancelled).setUp? w₁ =
      (Request.instantiate k bytes shared sink cancelled).setUp? w := by
  have hsame := hw.vetting_eq k bytes shared
  cases hvetting : vetting w k bytes shared with
  | error f => rw [setUp?_of_error hvetting, setUp?_of_error (hsame.trans hvetting)]
  | ok vetted =>
    obtain ⟨e, mem, hv⟩ := vetted_of_vetting hvetting
    obtain ⟨e₁, he₁, hessence⟩ := getElem?_of_map_eq hw.engines.symm hv.engine
    obtain ⟨hconfig, -, hmodules, -⟩ := essence_inj hessence
    have hlimit : e.pageLimit = e₁.pageLimit := by rw [Engine.pageLimit, Engine.pageLimit, hconfig]
    rw [setUp?_instantiate hvetting hv.engine, setUp?_instantiate (hsame.trans hvetting) he₁,
      hw.store, hmodules, hlimit, hconfig]

variable {k id inst : Nat} {e : Engine} {mem : SharedMemory} {m : Wasm.Module} {bytes : Bytes}
  {store : Wasm.Store}

/-- The new instance of a guest that is linked. -/
def newcomer (e : Engine) (m : Wasm.Module) (inst : Nat) (store : Wasm.Store) : SetUp where
  config := e.config
  module := m
  inst := inst
  refusal := (store.fill inst).1
  store := (store.fill inst).2

/-- What linking a guest and starting it leave behind. -/
theorem Populated.link_effect [Wasm.Machine.RunsTrampolines] (h : Populated w)
    (sink : Option Sink) (cancelled : Bool) (hv : Vetted w k bytes e id mem m)
    (hinst : w.store.instantiate e.modules e.pageLimit m = .ok (inst, store)) :
    ∃ r posted store', link k m sink cancelled w =
        (r, afterPosts sink posted (installed w k inst store')) ∧
      Effect (store.fill inst).2 inst mem.env ((newcomer e m inst store).activation? cancelled)
        posted store' := by
  rw [SetUp.activation?, newcomer]
  rcases hfill : store.fill inst with ⟨refusal, filled⟩
  cases refusal with
  | some reason =>
    refine ⟨_, [], filled, link_unfilled hv.engine hinst hfill, ?_⟩
    cases m.start <;> exact .of_none
  | none =>
    cases hstart : m.start with
    | none => exact ⟨_, [], filled, link_plain hv.engine hinst hfill hstart, .of_none⟩
    | some start =>
      obtain ⟨-, m', callees, hresident, -⟩ := h.lodges hv hinst
      obtain ⟨r, posted, store', hcall, heffect⟩ := callFunction_effect
        (w := installed w k inst filled) (hresident.later (fill_evolves hfill)) e sink cancelled
        start [] (.startTrap (startName m start))
      exact ⟨_, posted, store', link_start hv.engine hinst hfill hstart hcall, heffect⟩

/-- All that may be left to do, once the guest is linked, is to enter the instance. -/
theorem Populated.link_confined [Wasm.Machine.RunsTrampolines] (h : Populated w)
    {shared : Option Nat} {sink : Option Sink} {cancelled : Bool} {r : Except Fault Nat}
    {w₂ w' : World} (hvetting : vetting w k bytes shared = .ok (id, m))
    (hv : Vetted w k bytes e id mem m)
    (hinst : w.store.instantiate e.modules e.pageLimit m = .ok (inst, store))
    (hlink : link k m sink cancelled w = (r, w₂))
    (hinstances : ∀ (j : Nat) (i : LiveInstance), w₂.instances[j]? = some i →
      w'.instances[j]? = some i) (hstore : w'.store = w₂.store) (hmail : SameMail w₂ w') :
    Confined w (.instantiate k bytes shared sink cancelled) w' := by
  have hmade : (Request.instantiate k bytes shared sink cancelled).setUp? w =
      some (newcomer e m inst store) := by
    rw [setUp?_instantiate hvetting hv.engine, hinst]
    rfl
  have hactivation : (Request.instantiate k bytes shared sink cancelled).activation? w =
      (newcomer e m inst store).activation? cancelled := congrArg (Option.bind · _) hmade
  obtain ⟨r', posted, store', hlink', heffect⟩ := h.link_effect sink cancelled hv hinst
  cases hlink'.symm.trans hlink
  rw [← hactivation] at heffect
  have hbeside := afterPosts_besideSignals sink posted (installed w k inst store')
  refine ⟨fun j i hi _ => ⟨hinstances j i (hbeside.instances ▸ hi), ?_⟩,
    ⟨posted, ?_, heffect.posts⟩, heffect.within, fun l _ => ?_⟩
  · have hlt : i.inst < w.store.instances.size := by
      obtain ⟨mem', -, hlodged⟩ := h.lodged j i hi
      exact hlodged.lt_size
    have hfresh := (h.lodges hv hinst).1
    have hother : i.inst ≠ inst := by omega
    rw [hstore, hbeside.store, ← (Wasm.instantiate_stored hinst).1 i.inst hlt]
    exact (heffect.others i.inst hother (h.apart j id i mem hi hv.memory)).trans
      (Wasm.leave_others hother)
  · have hbooked : SameMail w (installed w k inst store') := ⟨rfl, rfl, rfl⟩
    exact (hbooked.afterPosts sink _).trans hmail
  · rw [hstore, hbeside.store, Request.left, hmade]
    exact congrArg (·[l]?) heffect.memories

theorem Populated.instantiate_confined [Wasm.Machine.RunsTrampolines] (h : Populated w) (k : Nat)
    (bytes : Bytes) (shared : Option Nat) (sink : Option Sink) (cancelled : Bool) :
    Confined w (.instantiate k bytes shared sink cancelled)
      (World.instantiate k bytes shared sink cancelled w).2 := by
  obtain ⟨w₁, hstocked, hvet, hattempt⟩ :=
    instantiate_attempt h.cached k bytes shared sink cancelled
  have h₁ : Populated w₁ := Keeps.of_run (vet_keeps populating_passive k bytes shared) hvet h
  have hsetUp := hstocked.setUp?_eq k bytes shared sink cancelled
  refine Confined.of_stocked ?_ hstocked hsetUp (congrArg (Option.bind · _) hsetUp) rfl
  generalize World.instantiate k bytes shared sink cancelled w = out at hattempt
  cases hattempt with
  | rejected hvetting =>
    have hnone := setUp?_of_error hvetting sink cancelled
    exact .of_unchanged (congrArg (Option.bind · _) hnone) hnone
  | @failed e id mem m f w₂ hvetting hv hlink =>
    have hmade := setUp?_instantiate hvetting hv.engine sink cancelled
    cases hinst : w₁.store.instantiate e.modules e.pageLimit m with
    | error reason =>
      cases (link_refused hv.engine hinst).symm.trans hlink
      rw [hinst] at hmade
      exact .of_unchanged (congrArg (Option.bind · _) hmade) hmade
    | ok made => exact h₁.link_confined hvetting hv hinst hlink (fun _ _ hi => hi) rfl (.refl _)
  | @entered e id inst mem m w₂ hvetting hv hlink =>
    obtain ⟨store, hinst, -⟩ := link_ok hv.engine hlink
    exact h₁.link_confined hvetting hv hinst hlink (fun _ _ hi => getElem?_push_of_some _ hi) rfl
      ⟨rfl, rfl, rfl⟩

/-! ## Isolation -/

theorem Populated.confined [Wasm.Machine.RunsTrampolines] (h : Populated w) {r : Request}
    (hr : r.AboutGuest) : Confined w r (r.after w) := by
  cases r with
  | instantiate k bytes shared sink cancelled =>
    exact Request.after_instantiate w k bytes shared sink cancelled ▸
      h.instantiate_confined k bytes shared sink cancelled
  | call j name args cancelled =>
    exact Request.after_call w j name args cancelled ▸ h.call_confined args cancelled
  | setGlobal j name v => exact Request.after_setGlobal w j name v ▸ h.setGlobal_confined v
  | close j => exact Request.after_close w j ▸ h.close_confined
  | global j name =>
    rw [Request.after, Request.perform_global]
    exact .of_unchanged rfl rfl
  | _ => cases hr

/-- A request to an instance leaves all others alone. -/
structure Isolated (w : World) (r : Request) : Prop where
  others : ∀ (j : Nat) (i : LiveInstance), w.instances[j]? = some i → r.subject? ≠ some j →
    (r.after w).instances[j]? = some i ∧
      (r.after w).store.instances[i.inst]? = w.store.instances[i.inst]?
  globals : ∀ j < w.instances.size, r.subject? ≠ some j → ∀ name,
    (r.after w).instanceGlobal j name = w.instanceGlobal j name
  /-- Signals go to the sink of the request alone. If the guest code comes to an end, they are those
  that it passes to the import. -/
  mail : ∃ posted, SameMail (afterPosts (r.sink? w) posted w) (r.after w) ∧
    (r.Ends w → posted = r.passed w)
  inboxes : ∀ b, r.sink? w = some (.inbox b) →
    ∃ posted, (r.after w).inboxes = w.inboxes.modify b (· ++ posted) ∧
      (r.Ends w → posted = r.passed w)
  /-- Guest code keeps to its own globals and its memory. -/
  code : ∀ a, r.activation? w = some a → Wasm.Within a.inst a.store a.left
  /-- Memory changes by guest code alone, and by the machine that sets up an instance. -/
  memory : ∀ l < w.store.memories.size,
    (r.after w).store.memories[l]? = (r.left w).memories[l]?
  close : ∀ j, r = .close j → SameMail w (r.after w) ∧ (r.after w).memories = w.memories ∧
    (r.after w).store.memories = w.store.memories ∧
    ∀ k : Nat, (w.instances[j]?).map (·.inst) ≠ some k →
      (r.after w).store.instances[k]? = w.store.instances[k]?

theorem Populated.isolated [Wasm.Machine.RunsTrampolines] (h : Populated w) {r : Request}
    (hr : r.AboutGuest) : Isolated w r := by
  have hconfined := h.confined hr
  refine ⟨hconfined.others, ?_, hconfined.mail, ?_, hconfined.code, hconfined.memory, ?_⟩
  · intro j hj hsubject name
    have hi := Array.getElem?_eq_getElem hj
    obtain ⟨hi', hstore⟩ := hconfined.others j _ hi hsubject
    exact instanceGlobal_congr hi hi' hstore name
  · intro b hb
    obtain ⟨posted, hmail, hposted⟩ := hconfined.mail
    exact ⟨posted, by rw [hmail.inboxes, hb, afterPosts_inbox], hposted⟩
  · rintro j rfl
    exact Request.after_close w j ▸ closeInstance_spares w j

/-- On any machine that runs trampolines, after any history, whatever is asked of an instance leaves
all other instances as they are and posts to the sink of that instance just what its code passes to
the signal import, while all that share a memory see what is written to it. -/
theorem guests_are_isolated [Wasm.Machine.RunsTrampolines] (h : Blank w)
    (history : List Request) :
    (∀ r : Request, r.AboutGuest → Isolated (afterAll history w) r) ∧
      ∀ id, Coherent (afterAll history w) id :=
  ⟨fun _ hr => (populated_afterAll h history).isolated hr,
    (populated_afterAll h history).coherent⟩

end

end Machines

/-- A guest that keeps a word in a global and in memory, posts it and traps. -/
def teller : Wasm.Assembly where
  imports := [{ module := "env", name := "_post_signal", type := { params := [.i32, .i32] } }]
  memory := some { module := "env", name := "memory", min := 1, max := 2, shared := true }
  globals := [{ type := .i32, mutable := true, init := 0 }]
  funcs := [{ type := { params := [.i32] }, code := [.localGet 0, .globalSet 0, .i32Const 64,
    .localGet 0, .i32Store 0, .i32Const 7, .localGet 0, .call 0, .unreachable] }]
  exports := [
    { kind := .global, name := "kept", index := 0 },
    { kind := .func, name := "tell", index := 1 }]

/-- Two instances share a memory, and one of them has been called. -/
def neighbours : List Request :=
  [.newEngine none, .newMemory 0 1 2,
    .instantiate 0 teller.encode (some 0) (some (.inbox 0)) false,
    .instantiate 0 teller.encode (some 0) (some (.inbox 1)) false, .call 1 "tell" [3] false]

/-- A call of the other one traps after it has posted a signal. -/
theorem neighbours_are_isolated :
    let w := afterAll neighbours { inboxes := #[[], []] }
    let r := Request.call 0 "tell" [5] false
    (w.instanceGlobal 1 "kept").toOption = some 3 ∧ w.inboxes = #[[], [⟨7, 3⟩]] ∧
      r.passed w = [⟨7, 5⟩] ∧ r.Ends w ∧ r.sink? w = some (.inbox 0) ∧ Isolated w r ∧
      Coherent w 0 := by
  intro w r
  have hall := guests_are_isolated (w := { inboxes := #[[], []] }) ⟨rfl, rfl, rfl, rfl⟩ neighbours
  have hsink : r.sink? w = some (.inbox 0) := by decide +kernel
  have hnoted : (r.activation? w).map (·.noted) = some [.passed ⟨7, 5⟩] := by decide +kernel
  have hpassed : r.passed w = [⟨7, 5⟩] := by decide +kernel
  have hends : r.Ends w := by
    intro a ha
    have hnoted : a.noted = [.passed ⟨7, 5⟩] := by
      rw [ha] at hnoted
      exact Option.some.inj hnoted
    rw [Activation.Ends, hnoted]
    decide
  have hglobal : (w.instanceGlobal 1 "kept").toOption = some 3 := by decide +kernel
  have hinboxes : w.inboxes = #[[], [⟨7, 3⟩]] := by decide +kernel
  exact ⟨hglobal, hinboxes, hpassed, hends, hsink, hall.1 r trivial, hall.2 0⟩

end GuestThreads.World
