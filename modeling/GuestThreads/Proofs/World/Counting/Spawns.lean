import GuestThreads.Proofs.World.Counting.Threads

/-!
# Spawning threads of the counting guest

As long as there is room, a spawn enters one more thread, with a worker, a relay and a TLS region of
its own. The threads that are there already do not notice.
-/

namespace GuestThreads.World

variable {σ : Site} {w w' : World}

/-! ## Addresses -/

namespace Site

/-- The size of the memory. -/
def size (σ : Site) : UInt32 := (σ.config.memory.minPages.toNat * Wasm.pageSize).toUInt32

theorem Proper.size_toNat (h : σ.Proper) :
    σ.size.toNat = σ.config.memory.minPages.toNat * Wasm.pageSize := by
  have hsmall := h.small
  unfold Wasm.maxPages at hsmall
  simp only [size, Wasm.pageSize, Nat.toUInt32, UInt32.toNat_ofNat']
  omega

theorem Holds.moduleSize (h : σ.Holds w) : w.moduleSize σ.module = σ.size := by
  obtain ⟨m, hm, -, hmemory, -⟩ := h.loaded
  obtain ⟨memory, hlinear, hpages, -⟩ := h.memory_now
  rw [moduleSize_eq hm, hmemory, memorySize, h.linear_now, hlinear, size, ← hpages]
  rfl

/-- TLS regions have room for a pointer, and the counter is aligned and lies below all regions. -/
structure Spacious (σ : Site) : Prop where
  made : σ.layout.Made
  tls : 4 ≤ σ.layout.tlsSize.toNat
  aligned : σ.cell.toNat % 4 = 0
  below : σ.cell.toNat + 4 ≤ σ.layout.base.toNat

theorem layout_rounds (σ : Site) : σ.layout.Rounds σ.config.regions.base
    σ.config.regions.stackSize σ.config.regions.tlsSize :=
  Layout.ofSizes_rounds ..

/-- An aligned counter that starts below the regions lies below them as a whole. -/
theorem spacious_of_valid (hvalid : σ.config.validate = .ok ())
    (htls : 4 ≤ σ.config.regions.tlsSize) (haligned : σ.cell.toNat % 4 = 0)
    (hbelow : σ.cell.toNat < σ.layout.base.toNat) : σ.Spacious := by
  have hmade := σ.layout_rounds.made (stackSize_ne_zero hvalid)
  have hbase := hmade.base_dvd
  refine ⟨hmade, ?_, haligned, by omega⟩
  exact (UInt32.le_iff_toNat_le.1 htls).trans (σ.layout_rounds.tlsSize ▸ Layout.le_roundUp _)

namespace Spacious

theorem tls_add_le (h : σ.Spacious) (n : Nat) : σ.tls n + 4 ≤ σ.layout.start (n + 1) := by
  have htls := h.tls
  rw [Site.tls, Layout.start_succ, Layout.span]
  omega

theorem base_le_tls (σ : Site) (n : Nat) : σ.layout.base.toNat ≤ σ.tls n := by
  rw [Site.tls, Layout.start]
  omega

theorem room (h : σ.Spacious) (hσ : σ.Proper) {n : Nat} (hn : n < σ.layout.capacity σ.size) :
    σ.Room n := by
  have htls := h.tls_add_le n
  have hbase := base_le_tls σ n
  have hcell := h.below
  have hfits := h.made.lt_capacity_iff.1 hn
  rw [hσ.size_toNat] at hfits
  exact ⟨htls.trans hfits, by omega, .inl (hcell.trans hbase), h.aligned⟩

theorem tls_apart (h : σ.Spacious) {n m : Nat} (hne : n ≠ m) : Apart (σ.tls n) (σ.tls m) := by
  have hlt {i j : Nat} (hij : i < j) : σ.tls i + 4 ≤ σ.tls j := by
    have hmono := σ.layout.start_mono (Nat.succ_le_of_lt hij)
    exact (h.tls_add_le i).trans (hmono.trans (Nat.le_add_right _ _))
  exact (Nat.lt_or_gt_of_ne hne).imp hlt hlt

/-- What one thread leaves alone is what all others count on. -/
theorem others (h : σ.Spacious) {n m : Nat} (hw : Minds σ n w w') (hne : n ≠ m) :
    (relies σ m).rel w w' :=
  hw.relies hne (h.tls_apart hne.symm) (.inr (h.below.trans (base_le_tls σ m)))

end Spacious

end Site

/-! ## What no thread notices -/

/-- Nothing happens to the workers, the threads and the words that are there. -/
def Undisturbed (σ : Site) : World → World → Prop :=
  Spares σ (fun _ => True) (fun _ => True) (fun _ => True)

theorem Undisturbed.relies (h : Undisturbed σ w w') (n : Nat) : (relies σ n).rel w w' :=
  h.mono (fun _ _ => trivial) (fun _ _ => trivial) fun _ _ => trivial

theorem onStream_undisturbed (σ : Site) (w : World) (k : Nat)
    (f : Mailbox ThreadSignal → Mailbox ThreadSignal) : Undisturbed σ w (w.onStream k f) where
  sustains := (onStream_calm σ 0 w k f).sustains
  workers _ _ _ := id
  threads i _ _ ht := ((onStream_calm σ 0 w k f).thread? _ i).trans ht
  words _ _ _ := id

/-! ## A new thread -/

theorem thread?_admitted {k : Nat} {m : LoadedModule} (hm : w.modules[k]? = some m)
    (layout : Layout) (e : WorkerEntry) (t : Thread) (i : Nat) :
    (admitted w k layout e t).thread? k i = (m.threads ++ [t])[i]? := by
  rw [thread?, module_admitted hm]
  rfl

theorem admitted_undisturbed {m : LoadedModule} (hm : w.modules[σ.module]? = some m)
    (layout : Layout) (e : WorkerEntry) (t : Thread) :
    Undisturbed σ w (admitted w σ.module layout e t) where
  sustains := { Sustains.refl w with
    relays := .push _
    outfits := .push e
    modules := .modify fun _ => rfl }
  workers j _ e' he' := by
    have hj := Nat.ne_of_lt (Array.getElem?_eq_some_iff.1 he').1
    exact (Array.getElem?_push.trans (if_neg hj)).trans he'
  threads i _ t' ht' := by
    rw [thread?, hm, Option.bind_some] at ht'
    rw [thread?_admitted hm, List.getElem?_append_left (List.getElem?_eq_some_iff.1 ht').1, ht']
  words _ _ _ := id

/-- So far `n` threads were spawned on the site. -/
structure Crewed (σ : Site) (rk n : Nat) (w : World) : Prop where
  holds : σ.Holds w
  runtime : w.runtimes[rk]?.map Runtime.config = some σ.config
  housed : ∃ mem gs, Housed σ.module σ.layout rk mem gs w ∧ gs.length = n
  workers : w.workers.size = σ.worker n
  relays : w.relays.size = σ.relay n

theorem Crewed.later {rk n : Nat} (h : Crewed σ rk n w) (hw : Sustains w w')
    (huntouched : (untouched σ.module).rel w w') (hworkers : w'.workers.size = w.workers.size)
    (hrelays : w'.relays.size = w.relays.size) : Crewed σ rk n w' := by
  obtain ⟨mem, gs, hhoused, hlength⟩ := h.housed
  exact ⟨h.holds.later hw, hw.runtimes _ _ h.runtime,
    ⟨mem, gs, hhoused.between huntouched, hlength⟩, hworkers.trans h.workers,
    hrelays.trans h.relays⟩

/-- Thread `n` is entered, and nothing else changes for the threads that are there. -/
structure Joins (σ : Site) (n : Nat) (region : Region) (w w' : World) : Prop where
  tls : region.tlsPtr.toNat = σ.tls n
  enrolled : Enrolled σ n region w'
  undisturbed : Undisturbed σ w w'
  counter : σ.counter? w' = σ.counter? w

/-- The next thread is ready to begin once it is entered. -/
theorem Crewed.enrolled {rk n : Nat} (h : Crewed σ rk n w) {m : LoadedModule}
    (hm : w.modules[σ.module]? = some m) (hthreads : m.threads.length = n) (layout : Layout)
    {e : WorkerEntry} (hsuits : σ.Suits n e) (hprogress : e.progress = {}) (region : Region) :
    Enrolled σ n region (admitted w σ.module layout e (σ.thread n region)) := by
  have hholds := h.holds.later (admitted_undisturbed hm layout e (σ.thread n region)).sustains
  have hworker : (w.workers.push e)[σ.worker n]? = some e := by
    rw [← h.workers, Array.getElem?_push_size]
  refine ⟨⟨hholds, ?_, ?_, ?_⟩, e, hworker, hsuits, hprogress⟩
  · change (w.relays.push _)[σ.relay n]?.map wire = _
    rw [← h.relays, Array.getElem?_push_size]
    rfl
  · change (w.workers.push e)[σ.worker n]?.map outfit = _
    rw [hworker, Option.map_some, outfit, hsuits.relay, hsuits.maker]
  · rw [thread?_admitted hm, ← hthreads, List.getElem?_concat_length]

/-- As long as there is room, a thread is entered. -/
theorem Crewed.admit {rk n : Nat} (h : Crewed σ rk n w) (hspace : σ.Spacious)
    (hn : n < σ.layout.capacity σ.size) (ops : List (String × Bridge.Op)) :
    ∃ region w', newThread σ.module ops w = (.ok (σ.thread n region), w') ∧
      Crewed σ rk (n + 1) w' ∧ Joins σ n region w w' := by
  obtain ⟨m, hm, hengine, -, -, -, hopen⟩ := h.holds.loaded
  obtain ⟨r, hr, hconfig⟩ := Option.map_eq_some_iff.1 h.runtime
  obtain ⟨mem, gs, hhoused, hlength⟩ := h.housed
  obtain ⟨hrk, -, hlayout, -⟩ := Housing.mk.inj (hhoused.housing_eq hm)
  have hthreads := (hhoused.threads_length hm).trans hlength
  rw [← hlength, ← h.holds.moduleSize] at hn
  obtain ⟨t, w', ht, -, hhoused'⟩ := hhoused.grant hspace.made hm hopen hn ops
  obtain ⟨region, hreserve, hplaced, -⟩ := hspace.made.reserve_ok hn
  let e := recruit m r.config ops w.relays.size
  let layout := { σ.layout with next := gs.length + 1 }
  have hnew : newThread σ.module ops w = (.ok (σ.thread n region),
      admitted w σ.module layout e (σ.thread n region)) := by
    rw [newThread_run hm hopen, hlayout, ← moduleSize_eq hm, hreserve]
    refine (enterThread_admitted (hrk ▸ hr) region layout ops).trans ?_
    rw [hthreads, h.workers]
    rfl
  cases ht.symm.trans hnew
  have hsuits : σ.Suits n e :=
    ⟨congrArg Maker.engine hengine, h.relays, congrArg Config.exports hconfig⟩
  have hundisturbed := admitted_undisturbed hm layout e (σ.thread n region)
  have htls : region.tlsPtr.toNat = σ.tls n := by
    rw [hplaced.tlsPtr, hplaced.stackPtr, hlength]
    rfl
  refine ⟨region, _, hnew, ⟨h.holds.later hundisturbed.sustains, h.runtime,
    ⟨mem, _, hhoused', by simp [hlength]⟩, ?_, ?_⟩,
    ⟨htls, h.enrolled hm hthreads layout hsuits rfl region, hundisturbed, rfl⟩⟩
  · exact (Array.size_push ..).trans (congrArg (· + 1) h.workers)
  · exact (Array.size_push ..).trans (congrArg (· + 1) h.relays)

end GuestThreads.World
