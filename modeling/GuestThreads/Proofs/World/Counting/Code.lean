import GuestThreads.Proofs.World.Counting.Contract

/-!
# The code of the counting guest

Guest code runs instruction by instruction among the other threads. The guest's two functions
succeed all the same: one notes down the TLS pointer, and the other adds the closure to the counter
and posts what the counter was before.
-/

namespace GuestThreads.World

variable {σ : Site} {n : Nat} {w w' : World}

/-! ## What a thread has -/

/-- What is there stays, and so do the entry of thread `n` and these words. -/
def Kept (σ : Site) (n : Nat) (words : Nat → Prop) : World → World → Prop :=
  Spares σ (fun _ => False) (· = n) words

theorem Calm.kept (h : Calm σ n w w') (words : Nat → Prop) : Kept σ n words w w' where
  sustains := h.sustains
  workers _ hj := hj.elim
  threads i _ _ ht := (h.thread? _ i).trans ht
  words a _ _ hv := (h.word? _ a).trans hv

theorem kept_of_relies (h : (relies σ n).rel w w') : Kept σ n (· = σ.tls n) w w' :=
  h.mono (fun _ hj => hj.elim) (fun _ => id) fun _ => id

/-- What a thread has to expect around a piece of its own. -/
theorem Calm.kept_around {u v v' : World} (h : Calm σ n v v') (hv : (relies σ n).rel w v)
    (hu : (relies σ n).rel v' u) : Kept σ n (· = σ.tls n) w u :=
  (kept_of_relies hv).trans ((h.kept _).trans (kept_of_relies hu))

theorem kept_setWord {words : Nat → Prop} {a : Nat} (ha : ∀ b, words b → Apart b a) (v : UInt32)
    (w : World) : Kept σ n words w { w with store := w.store.setWord σ.linear a v } where
  sustains := { Sustains.refl w with
    extents := .modify fun _ => by simp [extent] }
  workers _ hj := hj.elim
  threads _ _ _ := id
  words b hb v' hv' := by rw [Wasm.Store.word?_setWord_beside (.inr (ha b hb)), hv']

/-- Thread `n` was entered, with a worker and a relay of its own. -/
structure Berth (σ : Site) (n : Nat) (t : Thread) (w : World) : Prop where
  holds : σ.Holds w
  wired : Wired σ.module n (σ.relay n) w
  hired : w.workers[σ.worker n]?.map outfit = some (σ.relay n, .engine σ.engine)
  thread : w.thread? σ.module n = some t

theorem Berth.later {t : Thread} {words : Nat → Prop} (h : Berth σ n t w)
    (hw : Kept σ n words w w') : Berth σ n t w' where
  holds := h.holds.later hw.sustains
  wired := hw.sustains.relays _ _ h.wired
  hired := hw.sustains.outfits _ _ h.hired
  thread := hw.threads n rfl t h.thread

/-- Thread `n` has an instance of the guest. -/
structure Seat (σ : Site) (n : Nat) (t : Thread) (m inst : Nat) (w : World) : Prop where
  berth : Berth σ n t w
  aboard : Aboard σ (σ.relay n) m inst w

theorem Seat.later {t : Thread} {m inst : Nat} {words : Nat → Prop} (h : Seat σ n t m inst w)
    (hw : Kept σ n words w w') : Seat σ n t m inst w' :=
  ⟨h.berth.later hw, h.aboard.later hw.sustains⟩

/-- The TLS region of thread `n` starts with this pointer. -/
def Noted (σ : Site) (n : Nat) (pointer : UInt32) (w : World) : Prop :=
  w.store.word? σ.linear (σ.tls n) = some pointer

theorem Noted.later {pointer : UInt32} (h : Noted σ n pointer w)
    (hw : Kept σ n (· = σ.tls n) w w') : Noted σ n pointer w' :=
  hw.words _ rfl pointer h

/-- Thread `n` has an instance of the guest, and its TLS pointer is noted down. -/
structure Settled (σ : Site) (n : Nat) (t : Thread) (m inst : Nat) (pointer : UInt32) (w : World) :
    Prop where
  seat : Seat σ n t m inst w
  noted : Noted σ n pointer w

theorem Settled.later {t : Thread} {m inst : Nat} {pointer : UInt32}
    (h : Settled σ n t m inst pointer w) (hw : Kept σ n (· = σ.tls n) w w') :
    Settled σ n t m inst pointer w' :=
  ⟨h.seat.later hw, h.noted.later hw⟩

/-! ## Guest code -/

/-- The addresses that thread `n` uses lie inside the memory and apart from each other. -/
structure Site.Room (σ : Site) (n : Nat) : Prop where
  tls : σ.tls n + 4 ≤ σ.config.memory.minPages.toNat * Wasm.pageSize
  cell : σ.cell.toNat + 4 ≤ σ.config.memory.minPages.toNat * Wasm.pageSize
  apart : Apart σ.cell.toNat (σ.tls n)
  aligned : σ.cell.toNat % 4 = 0

theorem Site.Holds.word (h : σ.Holds w) {a : Nat}
    (ha : a + 4 ≤ σ.config.memory.minPages.toNat * Wasm.pageSize) :
    ∃ v, w.store.word? σ.linear a = some v := by
  obtain ⟨memory, hmemory, hpages, -⟩ := h.memory_now
  have hsize : a + 4 ≤ memory.size := by rwa [Wasm.Memory.size, hpages]
  rw [Wasm.Store.word?, hmemory, Option.bind_some]
  exact Option.isSome_iff_exists.1 (Wasm.Memory.word?_isSome_iff.2 hsize)

section

variable {closure : UInt32} {tally : Tally} {sink : Option Sink}
  {trap : Wasm.Trap → List Wasm.Call → Cause} {steps : Nat} {frames frames' : List Wasm.Frame}
  {R : List UInt64 → Tally → World → Prop}

/-- An instruction that leaves the store alone. -/
theorem achieves_still
    (h : ∀ v, (relies σ n).rel w v → Wasm.step v.store frames = .running v.store frames')
    (hrest : (Course.runGuest sink trap steps frames').Achieves (tallying σ n closure) R tally w) :
    (Course.runGuest sink trap (steps + 1) frames).Achieves (tallying σ n closure) R tally w :=
  Course.achieves_running fun v hv =>
    ⟨v.store, frames', tally, h v hv, Calm.step ((calm σ n).refl v) rfl closure tally,
      hrest.later hv⟩

/-- The outermost call returns. -/
theorem achieves_return {f : Wasm.Frame} (hcode : f.code = []) (hresults : f.type.results = [])
    (hend : ∀ v, (relies σ n).rel w v → R [] tally v) :
    (Course.runGuest sink trap (steps + 1) [f]).Achieves (tallying σ n closure) R tally w := by
  have hstep (s : Wasm.Store) : Wasm.step s [f] = .finished [] := by
    rw [Wasm.step_return (Wasm.move_end hcode), hresults]
    rfl
  exact Course.achieves_finished fun v hv =>
    ⟨hstep v.store, Calm.step ((calm σ n).refl v) rfl closure tally, fun u hu =>
      hend u ((relies σ n).trans hv hu)⟩

end

section

variable {t : Thread} {m inst : Nat} {closure : UInt32} {trap : Wasm.Trap → List Wasm.Call → Cause}

/-- The TLS pointer is noted down. -/
theorem noteDown_achieves (hroom : σ.Room n) (h : Seat σ n t m inst w) {pointer : UInt32}
    (hpointer : pointer.toNat = σ.tls n) (sink : Option Sink) (tally : Tally) :
    (Course.runGuest sink trap Wasm.stepLimit
      [Wasm.pointerCall inst 1 pointer Wasm.noteDown []]).Achieves (tallying σ n closure)
      (fun _ tally' v => tally' = tally ∧ Settled σ n t m inst pointer v) tally w := by
  obtain ⟨steps, hsteps⟩ : ∃ steps, Wasm.stepLimit = steps + 4 :=
    Nat.exists_eq_add_of_le' (Wasm.le_stepLimit (by decide))
  rw [hsteps]
  refine achieves_still (fun _ _ => Wasm.step_pointerCall_localGet) ?_
  refine achieves_still (fun _ _ => Wasm.step_pointerCall_localGet) ?_
  refine Course.achieves_running fun v hv => ?_
  have hv := h.later (kept_of_relies hv)
  obtain ⟨old, hold⟩ := hv.berth.holds.word hroom.tls
  have hkept : Kept σ n (fun _ => False) v
      { v with store := v.store.setWord σ.linear (σ.tls n) pointer } :=
    kept_setWord (fun _ hb => hb.elim) pointer v
  have hnoted : Noted σ n pointer
      { v with store := v.store.setWord σ.linear (σ.tls n) pointer } :=
    Wasm.Store.word?_setWord_self hold pointer
  refine ⟨_, _, tally, Wasm.step_pointerCall_i32Store hv.aboard.linear (hpointer ▸ hold), ?_⟩
  rw [hpointer]
  refine ⟨note_step hroom.apart pointer closure tally v, ?_⟩
  have hsettled : Settled σ n t m inst pointer
      { v with store := v.store.setWord σ.linear (σ.tls n) pointer } := ⟨hv.later hkept, hnoted⟩
  exact achieves_return rfl rfl fun u hu => ⟨rfl, hsettled.later (kept_of_relies hu)⟩

/-! ## Posting -/

/-- The closure is posted with the former value of the counter. -/
theorem post_tells {pointer : UInt32} (h : Settled σ n t m inst pointer w) (old : UInt32) :
    (Process.post (some (.relay (σ.relay n))) { hi := closure, lo := old }).Honours
      (tallying σ n closure)
      (fun _ tally v => tally = .told old ∧ Settled σ n t m inst pointer v) (.added old) w := by
  intro v hv
  have hv := h.later (kept_of_relies hv)
  rw [tally_wired hv.seat.berth.wired]
  have hcounted := counted_calm σ n v (σ.relay n)
  have htells : (tallying σ n closure).step (.added old)
      (some (.signalled { hi := closure, lo := old })) v (.told old) (v.counted (σ.relay n)) :=
    ⟨hcounted.minds, .tells old _⟩
  have hcalm (u : World) (f : Mailbox ThreadSignal → Mailbox ThreadSignal) :=
    onStream_calm σ n u σ.module f
  refine ⟨.told old, htells, fun v₁ hv₁ => ?_⟩
  have hleft := hcalm v₁ (·.enqueue { thread := n, signal := { hi := closure, lo := old } })
  refine ⟨.told old, hleft.step rfl closure _, ?_⟩
  have hv₁ := ((hv.later (hcounted.kept _)).later (kept_of_relies hv₁)).later (hleft.kept _)
  cases hrung : (leave (.stream σ.module n) { hi := closure, lo := old } v₁).1 with
  | none => exact fun v₂ hv₂ => ⟨rfl, hv₁.later (kept_of_relies hv₂)⟩
  | some k =>
    obtain rfl : k = σ.module := by
      obtain ⟨loaded, -, hk⟩ := Option.bind_eq_some_iff.1 hrung
      split at hk <;> cases hk
      rfl
    refine fun v₂ hv₂ => ⟨.told old, (hcalm v₂ .notify).step rfl closure _, fun v₃ hv₃ => ⟨rfl, ?_⟩⟩
    exact ((hv₁.later (kept_of_relies hv₂)).later ((hcalm v₂ .notify).kept _)).later
      (kept_of_relies hv₃)

section

variable {pointer old : UInt32} {steps : Nat}

/-- The host is asked to post, and then guest code goes on. -/
theorem asks_achieves {frames : List Wasm.Frame} {R : List UInt64 → Tally → World → Prop}
    (frames' : List Wasm.Frame) (h : Settled σ n t m inst pointer w)
    (hasks : ∀ v, Settled σ n t m inst pointer v → ∃ function,
      Wasm.step v.store frames = .asked function [closure.toUInt64, old.toUInt64] frames')
    (hrest : ∀ v, Settled σ n t m inst pointer v →
      (Course.runGuest (some (.relay (σ.relay n))) trap steps (Wasm.handBack [] frames')).Achieves
        (tallying σ n closure) R (.told old) v) :
    (Course.runGuest (some (.relay (σ.relay n))) trap (steps + 1) frames).Achieves
      (tallying σ n closure) R (.added old) w := by
  have hs : Wasm.signalOf? [closure.toUInt64, old.toUInt64] =
      some { hi := closure, lo := old } := by
    simp [Wasm.signalOf?]
  refine Course.achieves_asked frames' hs (fun v hv => ?_)
    (S := fun tally v => tally = .told old ∧ Settled σ n t m inst pointer v) ?_
  · have hv := h.later (kept_of_relies hv)
    exact ⟨hasks v hv, Calm.step ((calm σ n).refl v) rfl closure _, post_tells hv old⟩
  · rintro _ v ⟨rfl, hv⟩
    exact hrest v hv

/-- The guest calls the host itself. -/
theorem callHost_achieves (hmerged : ¬merged σ.config) (h : Settled σ n t m inst pointer w) :
    (Course.runGuest (some (.relay (σ.relay n))) trap (steps + 2) [Wasm.pointerCall inst 2 closure
      [.call 0] [old.toUInt64, closure.toUInt64]]).Achieves (tallying σ n closure)
      (fun _ tally v => tally = .told old ∧ Settled σ n t m inst pointer v) (.added old) w := by
  refine asks_achieves [Wasm.pointerCall inst 2 closure [] []] h (fun v hv => ?_) fun v hv =>
    achieves_return rfl rfl fun u hu => ⟨rfl, hv.later (kept_of_relies hu)⟩
  obtain ⟨x, hx, hmodule, hcallees, -⟩ := hv.seat.aboard.found
  have hcallee : x.callees[(0 : UInt32).toNat]? = some (.host (hostFunc σ.config σ.memory)) := by
    rw [hcallees, Site.poster, poster, if_neg hmerged]
    rfl
  have htype : x.module.funcType? (0 : UInt32).toNat = some Wasm.signalType := by
    rw [hmodule]
    rfl
  exact ⟨_, Wasm.step_call_host [] rfl hx hcallee htype (Nat.le_refl 2)⟩

/-- The trampoline's call on behalf of the guest. -/
def forwarding (σ : Site) (closure old : UInt32) : Wasm.Frame :=
  (trampoline σ.config σ.config.memory.minPages σ.config.memory.maxPages).callOf σ.env 0
    { importName := hostFunction, exportName := σ.config.signal.name, type := Wasm.signalType }
    [closure.toUInt64, old.toUInt64]

theorem step_enters_trampoline (hσ : σ.Proper) (hmerged : merged σ.config)
    (h : Seat σ n t m inst w) :
    Wasm.step w.store [Wasm.pointerCall inst 2 closure [.call 0]
      [old.toUInt64, closure.toUInt64]] =
      .running w.store [forwarding σ closure old, Wasm.pointerCall inst 2 closure [] []] := by
  obtain ⟨x, hx, hmodule, hcallees, -⟩ := h.aboard.found
  have hcallee : x.callees[(0 : UInt32).toNat]? = some (.code σ.env 1) := by
    rw [hcallees, Site.poster, poster, if_pos hmerged]
    rfl
  have htype : x.module.funcType? (0 : UInt32).toNat = some Wasm.signalType := by
    rw [hmodule]
    rfl
  have hfuncs := trampoline_funcs_merged hmerged σ.config.memory.minPages σ.config.memory.maxPages
  have henter := Wasm.Trampoline.enter?_clips (h.berth.holds.supplies hσ).stands hσ.env
    (congrArg (·[0]?) hfuncs) [closure.toUInt64, old.toUInt64]
  have hclip : List.zipWith Wasm.ValType.clip Wasm.signalType.params
      [closure.toUInt64, old.toUInt64] = [closure.toUInt64, old.toUInt64] := by
    simp [Wasm.signalType, Wasm.ValType.clip]
  rw [hfuncs, hclip] at henter
  rw [Wasm.step_instr_call [] rfl hx htype]
  exact (Wasm.startCall_code [] hx hcallee htype rfl henter).trans (if_pos rfl)

theorem step_trampoline_asks (hσ : σ.Proper) (hmerged : merged σ.config) (h : σ.Holds w)
    (rest : List Wasm.Frame) :
    Wasm.step w.store ((forwarding σ closure old).reach [.call 0]
        [old.toUInt64, closure.toUInt64] :: rest) =
      .asked (hostFunc σ.config σ.memory) [closure.toUInt64, old.toUInt64]
        ((forwarding σ closure old).reach [] [] :: rest) := by
  have hfuncs := trampoline_funcs_merged hmerged σ.config.memory.minPages σ.config.memory.maxPages
  have hforwarded : (forwarded σ.config σ.memory)[0]? = some (hostFunc σ.config σ.memory) := by
    rw [forwarded, if_pos hmerged]
    rfl
  exact Wasm.Trampoline.step_forwarder_call (h.supplies hσ).stands hσ.env
    (congrArg (·[0]?) hfuncs) hforwarded rfl rest

/-- The trampoline calls the host on behalf of the guest. -/
theorem callTrampoline_achieves (hσ : σ.Proper) (hmerged : merged σ.config)
    (h : Settled σ n t m inst pointer w) :
    (Course.runGuest (some (.relay (σ.relay n))) trap (steps + 6) [Wasm.pointerCall inst 2 closure
      [.call 0] [old.toUInt64, closure.toUInt64]]).Achieves (tallying σ n closure)
      (fun _ tally v => tally = .told old ∧ Settled σ n t m inst pointer v) (.added old) w := by
  refine achieves_still (fun v hv =>
    step_enters_trampoline hσ hmerged (h.later (kept_of_relies hv)).seat) ?_
  refine achieves_still (fun _ _ => Wasm.step_localGet rfl rfl) ?_
  refine achieves_still (fun _ _ => Wasm.step_localGet rfl rfl) ?_
  refine asks_achieves _ h (fun v hv =>
    ⟨_, step_trampoline_asks hσ hmerged hv.seat.berth.holds _⟩) fun v hv => ?_
  refine achieves_still (fun _ _ => Wasm.step_handBack (Wasm.move_end rfl)) ?_
  exact achieves_return rfl rfl fun u hu => ⟨rfl, hv.later (kept_of_relies hu)⟩

/-- The guest posts, whichever way the signal takes. -/
theorem call_achieves (hσ : σ.Proper) (h : Settled σ n t m inst pointer w) :
    (Course.runGuest (some (.relay (σ.relay n))) trap (steps + 6) [Wasm.pointerCall inst 2 closure
      [.call 0] [old.toUInt64, closure.toUInt64]]).Achieves (tallying σ n closure)
      (fun _ tally v => tally = .told old ∧ Settled σ n t m inst pointer v) (.added old) w := by
  by_cases hmerged : merged σ.config
  · exact callTrampoline_achieves hσ hmerged h
  · exact callHost_achieves hmerged h

end

/-- The closure is added to the counter in one step, and posted with what was there before. -/
theorem addAndPost_achieves (hσ : σ.Proper) (hroom : σ.Room n) {pointer : UInt32}
    (h : Settled σ n t m inst pointer w) :
    (Course.runGuest (some (.relay (σ.relay n))) trap Wasm.stepLimit
      [Wasm.pointerCall inst 2 closure (Wasm.addAndPost σ.cell) []]).Achieves
      (tallying σ n closure)
      (fun _ tally v => (∃ old, tally = .told old) ∧ Settled σ n t m inst pointer v)
      .waiting w := by
  obtain ⟨steps, hsteps⟩ : ∃ steps, Wasm.stepLimit = steps + 10 :=
    Nat.exists_eq_add_of_le' (Wasm.le_stepLimit (by decide))
  rw [hsteps]
  refine achieves_still (fun _ _ => Wasm.step_pointerCall_localGet) ?_
  refine achieves_still (fun _ _ => Wasm.step_pointerCall_i32Const σ.cell) ?_
  refine achieves_still (fun _ _ => Wasm.step_pointerCall_localGet) ?_
  refine Course.achieves_running fun v hv => ?_
  have hv := h.later (kept_of_relies hv)
  -- What the counter is by now is known in this step only.
  obtain ⟨old, hold⟩ := hv.seat.berth.holds.word hroom.cell
  have hkept : Kept σ n (· = σ.tls n) v
      { v with store := v.store.setWord σ.linear σ.cell.toNat (old + closure) } :=
    kept_setWord (by rintro _ rfl; exact hroom.apart.symm) (old + closure) v
  refine ⟨_, _, .added old, Wasm.step_pointerCall_i32AtomicRmwAdd hv.seat.aboard.linear hold
    hroom.aligned, add_step hold n closure, ?_⟩
  refine (call_achieves hσ (hv.later hkept)).imp ?_
  rintro _ _ u ⟨rfl, hu⟩
  exact ⟨⟨old, rfl⟩, hu⟩

end

end GuestThreads.World
