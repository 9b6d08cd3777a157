import GuestThreads.Proofs.World.Hosting

/-!
# How signals are wired

An instance hands its signals to the relay of a thread, and the relay leaves them in the stream of
the module on behalf of that thread. Once this wiring is laid it stays, whatever anyone does. The
code of a thread is its bring-up and all that is done later through its bridge. It counts each of
its signals once and then leaves it in the stream once, and does nothing else to counters and
streams.
-/

namespace GuestThreads.World

open Worker (BringUp Inbox Message Note Progress State)

variable {α β : Type}

/-! ## Wiring -/

/-- The entries stay, and `f` shows the same of them. -/
def Persists (f : α → β) (xs ys : Array α) : Prop :=
  ∀ (i : Nat) (b : β), xs[i]?.map f = some b → ys[i]?.map f = some b

namespace Persists

variable {f : α → β} {xs ys zs : Array α}

theorem refl (f : α → β) (xs : Array α) : Persists f xs xs := fun _ _ => id

theorem trans (h : Persists f xs ys) (h' : Persists f ys zs) : Persists f xs zs :=
  fun i b hb => h' i b (h i b hb)

theorem push (a : α) : Persists f xs (xs.push a) := by
  intro i b hb
  obtain ⟨x, hx, -⟩ := Option.map_eq_some_iff.1 hb
  have hi : i ≠ xs.size := Nat.ne_of_lt (Array.getElem?_eq_some_iff.1 hx).1
  rwa [Array.getElem?_push, if_neg hi]

theorem modify {g : α → α} {k : Nat} (h : ∀ a, f (g a) = f a) : Persists f xs (xs.modify k g) := by
  intro i b hb
  rwa [← Array.getElem?_map, map_modify h, Array.getElem?_map]

end Persists

/-- What a relay does with a signal. -/
def wire (entry : Relay × Outbox) : Bool × Outbox := (entry.1.hasOutbox, entry.2)

/-- Who makes the instance of a worker, and where its signals go. -/
def outfit (e : WorkerEntry) : Nat × Maker := (e.relay, e.maker)

/-- The wiring of the earlier world is still there. -/
structure Later (w w' : World) : Prop where
  relays : Persists wire w.relays w'.relays
  instances : Persists LiveInstance.sink w.instances w'.instances
  bridges : Persists BridgeEntry.guest w.bridges w'.bridges
  workers : Persists outfit w.workers w'.workers

def later : Frame where
  rel := Later
  refl _ := ⟨.refl _ _, .refl _ _, .refl _ _, .refl _ _⟩
  trans h g := ⟨h.1.trans g.1, h.2.trans g.2, h.3.trans g.3, h.4.trans g.4⟩

section

variable {k i r : Nat} {w w' : World}

/-- Relay `r` leaves its signals in the stream of module `k` on behalf of thread `i`. -/
def Wired (k i r : Nat) (w : World) : Prop := w.relays[r]?.map wire = some (true, .stream k i)

/-- The guest is an instance that hands its signals to relay `r`. -/
def Bound (r : Nat) (g : Guest) (w : World) : Prop :=
  ∃ n, g = .live n ∧ w.instances[n]?.map LiveInstance.sink = some (some (.relay r))

/-- Bridge `b` leads to an instance that hands its signals to relay `r`. -/
def Joined (r b : Nat) (w : World) : Prop :=
  ∃ g, w.bridges[b]?.map BridgeEntry.guest = some g ∧ Bound r g w

/-- Worker `j` makes an instance that hands its signals to relay `r`. -/
def Hired (r j : Nat) (w : World) : Prop := ∃ e, w.workers[j]?.map outfit = some (r, .engine e)

theorem Wired.later (h : Wired k i r w) (hw : Later w w') : Wired k i r w' := hw.relays _ _ h

theorem Bound.later {g : Guest} (h : Bound r g w) (hw : Later w w') : Bound r g w' := by
  obtain ⟨n, rfl, hn⟩ := h
  exact ⟨n, rfl, hw.instances _ _ hn⟩

theorem Joined.later {b : Nat} (h : Joined r b w) (hw : Later w w') : Joined r b w' := by
  obtain ⟨g, hg, hbound⟩ := h
  exact ⟨g, hw.bridges _ _ hg, hbound.later hw⟩

theorem Hired.later {j : Nat} (h : Hired r j w) (hw : Later w w') : Hired r j w' := by
  obtain ⟨e, he⟩ := h
  exact ⟨e, hw.workers _ _ he⟩

/-- The thread in place `j` of module `k` has relay `ρ j` from its worker on to its bridge. -/
structure Sited (k : Nat) (ρ : Nat → Nat) (w : World) (j : Nat) (t : Thread) : Prop where
  id : t.id = j
  wired : Wired k j (ρ j) w
  hired : Hired (ρ j) t.worker w
  joined : ∀ b, t.bridge = some b → Joined (ρ j) b w

theorem Sited.later {ρ : Nat → Nat} {j : Nat} {t : Thread} (h : Sited k ρ w j t)
    (hw : Later w w') : Sited k ρ w' j t :=
  ⟨h.id, h.wired.later hw, h.hired.later hw, fun b hb => (h.joined b hb).later hw⟩

theorem Sited.congr {ρ ρ' : Nat → Nat} {j : Nat} {t : Thread} (h : Sited k ρ w j t)
    (hρ : ρ' j = ρ j) : Sited k ρ' w j t := by
  obtain ⟨hid, hwired, hhired, hjoined⟩ := h
  rw [← hρ] at hwired hhired hjoined
  exact ⟨hid, hwired, hhired, hjoined⟩

theorem Sited.finish {ρ : Nat → Nat} {j : Nat} {t : Thread} {x : Except Fault Nat}
    (h : Sited k ρ w j t) (hx : ∀ b, x = .ok b → Joined (ρ j) b w) :
    Sited k ρ w j (t.finish x) := by
  unfold Thread.finish
  split
  · exact h
  · cases x with
    | error f => exact ⟨h.id, h.wired, h.hired, h.joined⟩
    | ok b => exact ⟨h.id, h.wired, h.hired, fun _ hb => Option.some.inj hb ▸ hx b rfl⟩

def AllSited (k : Nat) (ρ : Nat → Nat) (w : World) (threads : List Thread) : Prop :=
  ∀ j t, threads[j]? = some t → Sited k ρ w j t

theorem AllSited.later {ρ : Nat → Nat} {threads : List Thread} (h : AllSited k ρ w threads)
    (hw : Later w w') : AllSited k ρ w' threads :=
  fun j t ht => (h j t ht).later hw

/-! ## What leaves counters and streams alone -/

/-- The stream is left alone or its bell is rung, and the threads stay in their places with their
relays, if `r` is the relay of thread `i`. -/
structure Goes (k i r : Nat) (w w' : World) (m m' : LoadedModule) : Prop where
  stream : m'.stream = m.stream ∨ m'.stream = m.stream.notify
  closed : m'.closed = m.closed
  length : m'.threads.length = m.threads.length
  sited : ∀ ρ : Nat → Nat, ρ i = r → AllSited k ρ w m.threads → AllSited k ρ w' m'.threads

/-- No counter changes, and the stream of module `k` is left alone but for its bell. -/
structure Steady (k i r : Nat) (w w' : World) : Prop where
  later : Later w w'
  relays : w'.relays = w.relays
  goes : ∀ m, w.modules[k]? = some m → ∃ m', w'.modules[k]? = some m' ∧ Goes k i r w w' m m'

/-- Neither counters nor modules change. -/
structure Quiet (w w' : World) : Prop where
  later : Later w w'
  relays : w'.relays = w.relays
  modules : w'.modules = w.modules

theorem Quiet.steady (h : Quiet w w') (k i r : Nat) : Steady k i r w w' where
  later := h.later
  relays := h.relays
  goes m hm := ⟨m, h.modules ▸ hm, .inl rfl, rfl, rfl, fun _ _ hs => hs.later h.later⟩

end

def quiet : Frame where
  rel := Quiet
  refl w := ⟨later.refl w, rfl, rfl⟩
  trans h g := ⟨later.trans h.1 g.1, g.2.trans h.2, g.3.trans h.3⟩

theorem quiet_indifferent [Wasm.Machine] : quiet.Indifferent where
  store w _ _ := ⟨{ later.refl w with }, rfl, rfl⟩
  engines w _ := ⟨{ later.refl w with }, rfl, rfl⟩
  memories w _ := ⟨{ later.refl w with }, rfl, rfl⟩
  scripted w _ := ⟨{ later.refl w with }, rfl, rfl⟩
  enlisted w i := ⟨{ later.refl w with instances := .push i }, rfl, rfl⟩
  closed w _ := ⟨{ later.refl w with instances := .modify fun _ => rfl }, rfl, rfl⟩
  recorded w _ _ := ⟨{ later.refl w with }, rfl, rfl⟩

theorem log_quiet (source : Log.Source) (level : Log.Level) (message : String)
    (fields : List (String × Log.Value)) : Keeps quiet (log source level message fields) :=
  .change fun w => ⟨{ later.refl w with }, rfl, rfl⟩

theorem setWorker_quiet (k : Nat) {f : WorkerEntry → WorkerEntry}
    (hf : ∀ e, outfit (f e) = outfit e) : Keeps quiet (setWorker k f) :=
  .change fun w => ⟨{ later.refl w with workers := .modify hf }, rfl, rfl⟩

theorem quiet_observed (k : Nat) : quiet.Observed k where
  logs w _ := ⟨{ later.refl w with }, rfl, rfl⟩
  spans w _ := ⟨{ later.refl w with }, rfl, rfl⟩
  started w _ := ⟨{ later.refl w with workers := .modify fun _ => rfl }, rfl, rfl⟩
  advanced w _ := ⟨{ later.refl w with workers := .modify fun _ => rfl }, rfl, rfl⟩

theorem observe_quiet (k : Nat) (entry : WorkerEntry) (msg : Message Nat) (n : Note) :
    Keeps quiet (observe k entry msg n) :=
  observe_keeps (quiet_observed k) entry msg n

/-! ## What the code of a thread owes -/

/-- Relay `r` has counted a signal. -/
def counted (w : World) (r : Nat) : World :=
  { w with relays := w.relays.modify r fun x => ({ x.1 with count := x.1.count + 1 }, x.2) }

def Event.signalled? : Event → Option Signal
  | .signalled s => some s
  | _ => none

def Event.posted? : Event → Option Signal
  | .posted s => some s
  | _ => none

/-- A piece of the code of thread `i`, by the signals that it has counted and owes to the stream
before the piece and after it. -/
inductive Owes (k i r : Nat) (owed : List Signal) (w : World) :
    Option Event → List Signal → World → Prop
  | counts (s : Signal) : Owes k i r owed w (some (.signalled s)) (owed ++ [s]) (w.counted r)
  | posts {s : Signal} {rest : List Signal} (h : owed = s :: rest) :
      Owes k i r owed w (some (.posted s)) rest
        (w.onStream k (·.enqueue { thread := i, signal := s }))
  | steady {event : Option Event} {w' : World} (hsignalled : event.bind Event.signalled? = none)
      (hposted : event.bind Event.posted? = none) (h : Steady k i r w w') :
      Owes k i r owed w event owed w'

/-- What the code of thread `i` may do. -/
def duty (k i r : Nat) : Contract (List Signal) where
  rely := later
  step owed event w owed' w' := Owes k i r owed w event owed' w'

section

variable {k i r : Nat} {w w' : World}

theorem tally_wired (h : Wired k i r w) (s : Signal) :
    tally (some (.relay r)) s w = (some (.stream k i, s), w.counted r) := by
  obtain ⟨⟨relay, outbox⟩, hr, hwire⟩ := Option.map_eq_some_iff.1 h
  obtain ⟨hout, rfl⟩ : relay.hasOutbox = true ∧ outbox = .stream k i := by simpa [wire] using hwire
  rw [tally_some hr, if_pos hout]
  have hsame : w.relays.setIfInBounds r ({ relay with count := relay.count + 1 }, .stream k i) =
      (w.counted r).relays := by
    refine Array.ext_getElem? fun j => ?_
    rw [Array.getElem?_setIfInBounds, counted, Array.getElem?_modify]
    split
    · subst_vars
      rw [if_pos (Array.getElem?_eq_some_iff.1 hr).1, hr]
      rfl
    · rfl
  rw [hsame]
  rfl

/-- A change of module `k` by which its stream and its threads go on. -/
theorem Steady.of_modify {f : LoadedModule → LoadedModule} (hlater : Later w w')
    (hrelays : w'.relays = w.relays) (hmodules : w'.modules = w.modules.modify k f)
    (hf : ∀ m, w.modules[k]? = some m → Goes k i r w w' m (f m)) : Steady k i r w w' := by
  refine ⟨hlater, hrelays, fun m hm => ⟨f m, ?_, hf m hm⟩⟩
  rw [hmodules]
  exact getElem?_modify_self hm

theorem onStream_later (w : World) (m : Nat) (f : Mailbox ThreadSignal → Mailbox ThreadSignal) :
    Later w (w.onStream m f) :=
  { later.refl w with }

theorem ring_steady (k i r : Nat) (w : World) : Steady k i r w (ring k w).2 :=
  .of_modify (f := fun m => { m with stream := m.stream.notify }) (onStream_later w k _) rfl rfl
    fun _ _ => ⟨.inr rfl, rfl, rfl, fun _ _ hs => hs.later (onStream_later w k _)⟩

theorem counted_later (w : World) (r : Nat) : Later w (w.counted r) :=
  { later.refl w with relays := .modify fun _ => rfl }

/-- A signal is counted, then left in the stream, and then the bell is rung. -/
theorem honours_post (h : Wired k i r w) (s : Signal) :
    (Process.post (some (.relay r)) s).Honours (duty k i r)
      (fun _ owed v => owed = [] ∧ Wired k i r v) [] w := by
  intro v hv
  rw [tally_wired (h.later hv) s]
  refine ⟨[s], .counts s, fun v₁ hv₁ => ⟨[], .posts rfl, ?_⟩⟩
  have hwired : Wired k i r (v₁.onStream k (·.enqueue { thread := i, signal := s })) :=
    (((h.later hv).later (counted_later v r)).later hv₁).later (onStream_later v₁ k _)
  cases hrung : (leave (.stream k i) s v₁).1 with
  | none => exact fun v₂ hv₂ => ⟨rfl, hwired.later hv₂⟩
  | some m =>
    obtain rfl : m = k := by
      obtain ⟨loaded, -, hm⟩ := Option.bind_eq_some_iff.1 hrung
      split at hm <;> cases hm
      rfl
    exact fun v₂ hv₂ => ⟨[], .steady rfl rfl (ring_steady m i r v₂), fun v₃ hv₃ =>
      ⟨rfl, ((hwired.later hv₂).later (ring_steady m i r v₂).later).later hv₃⟩⟩

theorem Owes.later {owed owed' : List Signal} {event : Option Event}
    (h : Owes k i r owed w event owed' w') : Later w w' := by
  cases h with
  | counts s => exact counted_later w r
  | posts h => exact onStream_later w k _
  | steady _ _ h => exact h.later

theorem hosting_duty [Wasm.Machine] (k i r : Nat) :
    Hosting (duty k i r) [] quiet (Wired k i r) (some (.relay r)) where
  indifferent := quiet_indifferent
  stable hv hw := hw.later hv
  quiet hq hw := ⟨.steady rfl rfl (hq.steady k i r), hw.later hq.later⟩
  post s hw := Course.honours_ofProcess (honours_post hw s)

end

end GuestThreads.World
