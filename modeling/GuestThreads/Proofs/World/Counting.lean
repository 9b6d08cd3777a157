import GuestThreads.Proofs.World.Counting.Spawns
import GuestThreads.Proofs.World.Signals

/-!
# The counter under every schedule

Threads of the counting guest are spawned and run in turns. Whatever the turns are, the additions
happen one after the other, each in a single turn of its thread, and a thread posts the sum of what
was added before.
-/

namespace GuestThreads.World

/-! ## Sums -/

/-- The sum modulo 2³². -/
def total (cs : List UInt32) : UInt32 := .ofNat (cs.map (·.toNat)).sum

theorem total_concat (cs : List UInt32) (c : UInt32) : total (cs ++ [c]) = total cs + c := by
  simp [total, UInt32.ofNat_add]

theorem total_perm {cs cs' : List UInt32} (h : cs.Perm cs') : total cs = total cs' := by
  rw [total, total, (h.map _).sum_nat]

/-- What these threads add, where thread `i` adds `cs[i]`. -/
def addends (cs : List UInt32) (threads : List Nat) : List UInt32 := threads.filterMap (cs[·]?)

/-- What was added before thread `n`, if the threads add in this order. -/
def before (cs : List UInt32) (order : List Nat) (n : Nat) : UInt32 :=
  total (addends cs (order.takeWhile (· ≠ n)))

/-- What was added before thread `n`, if the thread has added by now. -/
def before? (cs : List UInt32) (order : List Nat) (n : Nat) : Option UInt32 :=
  if n ∈ order then some (before cs order n) else none

section

variable {cs : List UInt32} {order : List Nat} {n m : Nat} {c : UInt32}

theorem addends_concat (hc : cs[n]? = some c) :
    addends cs (order ++ [n]) = addends cs order ++ [c] := by
  simp [addends, hc]

/-- Threads that are spawned later make no difference. -/
theorem addends_append (cs' : List UInt32) (h : ∀ i ∈ order, i < cs.length) :
    addends (cs ++ cs') order = addends cs order := by
  refine List.filterMap_congr fun i hi => ?_
  rw [List.getElem?_append_left (h i hi)]

theorem addends_range (cs : List UInt32) : addends cs (List.range cs.length) = cs := by
  induction cs using List.reverseRecOn with
  | nil => rfl
  | append_singleton cs c ih =>
    rw [List.length_append, List.length_singleton, List.range_succ,
      addends_concat List.getElem?_concat_length, addends_append _ (by simp), ih]

theorem addends_perm (h : order.Perm (List.range cs.length)) : (addends cs order).Perm cs :=
  (h.filterMap _).trans (.of_eq (addends_range cs))

theorem before?_concat_self (h : n ∉ order) :
    before? cs (order ++ [n]) n = some (total (addends cs order)) := by
  have htake : (order ++ [n]).takeWhile (· ≠ n) = order := by
    rw [List.takeWhile_append_of_pos (by grind)]
    simp
  rw [before?, if_pos (by simp), before, htake]

theorem before?_concat_ne (h : m ≠ n) : before? cs (order ++ [n]) m = before? cs order m := by
  by_cases hm : m ∈ order
  · have htake : (order ++ [n]).takeWhile (· ≠ m) = order.takeWhile (· ≠ m) := by
      rw [List.takeWhile_append, if_neg]
      intro hall
      have hself : order.takeWhile (· ≠ m) = order := (List.takeWhile_prefix _).eq_of_length hall
      have hmem : m ∈ order.takeWhile (· ≠ m) := by rwa [hself]
      simpa using List.all_eq_true.1 List.all_takeWhile m hmem
    rw [before?, before?, if_pos (by simp [hm]), if_pos hm, before, before, htake]
  · rw [before?, before?, if_neg (by simp [hm, h]), if_neg hm]

theorem before?_append (cs' : List UInt32) (h : ∀ i ∈ order, i < cs.length) (n : Nat) :
    before? (cs ++ cs') order n = before? cs order n := by
  have hbefore : before (cs ++ cs') order n = before cs order n :=
    congrArg total (addends_append cs' fun i hi => h i ((List.takeWhile_sublist _).mem hi))
  rw [before?, before?, hbefore]

end

/-- The memory as it is read from outside. -/
theorem Site.Holds.readU32 {σ : Site} {w : World} (h : σ.Holds w) {a v : UInt32}
    (hv : w.store.word? σ.linear a.toNat = some v) :
    MemoryView.readU32 (w.linear? σ.memory) a = .ok v := by
  obtain ⟨memory, hmemory, hword⟩ := Wasm.Store.word?_eq_some hv
  obtain ⟨word, hread, rfl⟩ := Option.map_eq_some_iff.1 hword
  obtain ⟨bytes, hbytes, rfl⟩ := Option.map_eq_some_iff.1 hread
  have hread : MemoryView.read (some memory) a 4 = .ok bytes := by
    simp only [MemoryView.read, Option.bind_some, UInt32.reduceToNat, hbytes]
  rw [MemoryView.readU32, h.linear_now, hmemory, hread]
  rfl

/-! ## Turns -/

namespace Traffic

/-- Threads are spawned and run, without anyone who cancels them, and a reader may listen. -/
def Turn.Orderly : Turn → Prop
  | .spawn _ _ cancelled heard => cancelled = false ∧ heard = true
  | .go _ | .pump | .receive => True
  | _ => False

instance : DecidablePred Turn.Orderly
  | .spawn _ _ cancelled heard =>
    inferInstanceAs (Decidable (cancelled = false ∧ heard = true))
  | .go _ | .pump | .receive => .isTrue trivial
  | .use .. | .cancel _ | .close | .shut | .other _ => .isFalse id

/-- The closure of the thread that is spawned in a turn. -/
def Turn.closure? : Turn → Option UInt32
  | .spawn closurePtr _ _ _ => some closurePtr
  | _ => none

/-- The closures of the threads that are spawned, in order. -/
def closures (turns : List Turn) : List UInt32 := turns.filterMap Turn.closure?

/-- The turns in which the threads of `order` add what is theirs to the counter. In all other turns
the counter stays as it is. -/
inductive Adding (k : Nat) (counter : World → Except Fault UInt32) (cs : List UInt32) :
    Traffic → List Turn → List Nat → Traffic → Prop
  | done (s : Traffic) : Adding k counter cs s [] [] s
  | adds {s s' s'' : Traffic} {turns : List Turn} {order : List Nat} {n : Nat} {c old : UInt32}
      (hstep : s.step k (.go n) = some s') (hc : cs[n]? = some c)
      (hbefore : counter s.world = .ok old) (hafter : counter s'.world = .ok (old + c))
      (hrest : Adding k counter cs s' turns order s'') :
      Adding k counter cs s (.go n :: turns) (n :: order) s''
  | stays {s s' s'' : Traffic} {turn : Turn} {turns : List Turn} {order : List Nat}
      (hstep : s.step k turn = some s') (hsame : counter s'.world = counter s.world)
      (hrest : Adding k counter cs s' turns order s'') :
      Adding k counter cs s (turn :: turns) order s''

end Traffic

/-! ## What holds at any time -/

/-- What the counter was before the thread added to it. -/
def Tally.old? : Tally → Option UInt32
  | .waiting => none
  | .added old | .told old => some old

/-- What thread `n` has posted by now. -/
def Tally.postings (n : Nat) (c : UInt32) : Tally → List Posting
  | .told old => [{ party := n, thread := n, signal := { hi := c, lo := old } }]
  | _ => []

/-- Party `n` runs thread `n` with closure `c`, and has come this far. -/
structure Engaged (σ : Site) (cs : List UInt32) (order : List Nat) (s : Traffic) (n : Nat)
    (p : Party) (c : UInt32) (region : Region) (tally : Tally) : Prop where
  thread : p.thread = n
  closure : cs[n]? = some c
  tls : region.tlsPtr.toNat = σ.tls n
  runs : p.rest.Honours (tallying σ n c) (fun _ tally v => Served σ n region tally v) tally s.world
  adds : tally.old? = before? cs order n
  posts : s.signalled.filter (·.party = n) = tally.postings n c

/-- The threads with closures `cs` have been spawned, and those of `order` have added what is
theirs. -/
structure Counted (σ : Site) (rk : Nat) (cs : List UInt32) (order : List Nat) (s : Traffic) :
    Prop where
  crewed : Crewed σ rk cs.length s.world
  closer : s.closer = none
  parties : s.parties.length = cs.length
  counter : σ.counter? s.world = some (total (addends cs order))
  nodup : order.Nodup
  bound : ∀ i ∈ order, i < cs.length
  own : ∀ x ∈ s.signalled, x.party < cs.length
  each : ∀ n p, s.parties[n]? = some p → ∃ c region tally, Engaged σ cs order s n p c region tally

namespace Counted

variable {σ : Site} {rk : Nat} {cs : List UInt32} {order : List Nat} {s s' : Traffic} {w : World}

/-- The pump or the reader makes a step. -/
theorem onStream (h : Counted σ rk cs order s) (f : Mailbox ThreadSignal → Mailbox ThreadSignal)
    (received : List ThreadSignal) :
    Counted σ rk cs order
      { s with world := s.world.onStream σ.module f, received := received } := by
  have hcalm := onStream_calm σ 0 s.world σ.module f
  have hundisturbed := onStream_undisturbed σ s.world σ.module f
  refine { h with
    crewed := h.crewed.later hcalm.sustains hcalm.minds.untouched rfl rfl
    each := fun n p hp => ?_ }
  obtain ⟨c, region, tally, hengaged⟩ := h.each n p hp
  exact ⟨c, region, tally, { hengaged with runs := hengaged.runs.later (hundisturbed.relies n) }⟩

/-- A thread is spawned. -/
theorem spawn (h : Counted σ rk cs order s) (hσ : σ.Proper) (hspace : σ.Spacious)
    (hroom : cs.length < σ.layout.capacity σ.size) (c : UInt32)
    (ops : List (String × Bridge.Op)) :
    Counted σ rk (cs ++ [c]) order
      (s.spawned σ.module c false true (newThread σ.module ops s.world)) := by
  obtain ⟨region, w', hnew, hcrewed, hjoins⟩ := h.crewed.admit hspace hroom ops
  rw [hnew]
  have hruns : (Process.forget (Course.serve σ.module (σ.thread cs.length region) c false
      true)).Honours (tallying σ cs.length c)
      (fun _ tally v => Served σ cs.length region tally v) .waiting w' := by
    refine Process.Honours.bind
      (serve_achieves hσ (hspace.room hσ hroom) hjoins.enrolled hjoins.tls) ?_
    rintro _ tally v ⟨-, -, hserved⟩ u hu
    exact hserved.later hu
  refine ⟨?_, h.closer, by simp [Traffic.spawned, Traffic.enter, h.parties], ?_, h.nodup, ?_, ?_,
    ?_⟩
  · rw [List.length_append]
    exact hcrewed
  · rw [addends_append _ h.bound]
    exact hjoins.counter.trans h.counter
  · exact fun i hi => (h.bound i hi).trans (by simp)
  · exact fun x hx => (h.own x hx).trans (by simp)
  · intro n p hp
    obtain hold | ⟨rfl, rfl⟩ := getElem?_concat_eq_some hp
    · obtain ⟨c', region', tally, hengaged⟩ := h.each n p hold
      refine ⟨c', region', tally, hengaged.thread, ?_, hengaged.tls,
        hengaged.runs.later (hjoins.undisturbed.relies n), ?_, hengaged.posts⟩
      · exact (List.getElem?_append_left (List.getElem?_eq_some_iff.1 hengaged.closure).1).trans
          hengaged.closure
      · rw [hengaged.adds, before?_append _ h.bound]
    · have hnone : s.signalled.filter (·.party = s.parties.length) = [] := by
        refine List.filter_eq_nil_iff.2 fun x hx => ?_
        have hlt := h.own x hx
        simp only [decide_eq_true_eq, h.parties]
        omega
      have hnew : s.parties.length ∉ order := fun hmem => by
        have hlt := h.bound _ hmem
        rw [h.parties] at hlt
        omega
      rw [h.parties] at hnone hnew ⊢
      refine ⟨c, region, .waiting, rfl, List.getElem?_concat_length, hjoins.tls, hruns, ?_, hnone⟩
      rw [before?, if_neg hnew]
      rfl

section

variable {n : Nat} {p : Party} {event : Option Event} {rest : Process Unit} {c : UInt32}
  {region : Region} {tally : Tally}

/-- Party `n` goes on by a piece, with the rest of what holds checked for it alone. -/
theorem gone {order' : List Nat} (h : Counted σ rk cs order s) (hspace : σ.Spacious)
    (hp : s.parties[n]? = some p) (hminds : Minds σ n s.world w)
    (hengaged : Engaged σ cs order' (s.gone n p event rest w) n { p with rest := rest } c region
      tally)
    (hcounter : σ.counter? w = some (total (addends cs order')))
    (hnodup : order'.Nodup) (hbound : ∀ i ∈ order', i < cs.length)
    (hothers : ∀ m ≠ n, before? cs order' m = before? cs order m) :
    Counted σ rk cs order' (s.gone n p event rest w) where
  crewed := h.crewed.later hminds.spares.sustains hminds.untouched hminds.workers hminds.relays
  closer := h.closer
  parties := (List.length_set ..).trans h.parties
  counter := hcounter
  nodup := hnodup
  bound := hbound
  own x hx := by
    obtain hold | hnew := List.mem_append.1 hx
    · exact h.own x hold
    · obtain ⟨signal, -, rfl⟩ := List.mem_map.1 hnew
      exact (List.getElem?_eq_some_iff.1 hengaged.closure).1
  each m q hq := by
    by_cases hm : n = m
    · subst hm
      rw [s.parties_gone_self hp] at hq
      cases hq
      exact ⟨c, region, tally, hengaged⟩
    · rw [s.parties_gone_ne hm] at hq
      obtain ⟨c', region', tally', hother⟩ := h.each m q hq
      refine ⟨c', region', tally', hother.thread, hother.closure, hother.tls,
        hother.runs.later (hspace.others hminds hm), ?_, ?_⟩
      · rw [hother.adds, hothers m (Ne.symm hm)]
      · simpa [Traffic.gone, Traffic.filter_party, hm] using hother.posts

/-- A piece of a thread adds to the counter or leaves it as it is. -/
theorem go (h : Counted σ rk cs order s) (hspace : σ.Spacious) (hp : s.parties[n]? = some p)
    (hturn : p.rest.turn s.world = some (event, rest, w)) :
    Counted σ rk cs (order ++ [n]) (s.gone n p event rest w) ∨
      Counted σ rk cs order (s.gone n p event rest w) := by
  obtain ⟨c, region, tally, hengaged⟩ := h.each n p hp
  obtain ⟨tally', ⟨hminds, htallies⟩, hrest⟩ := hengaged.runs.turn hturn
  have hposts := hengaged.posts
  generalize hbefore : σ.counter? s.world = counter at htallies
  generalize hafter : σ.counter? w = counter' at htallies
  cases htallies with
  | adds old =>
    obtain rfl : total (addends cs order) = old := Option.some.inj (h.counter.symm.trans hbefore)
    have hnew : n ∉ order := fun hmem => by
      have hadds := hengaged.adds
      rw [before?, if_pos hmem] at hadds
      cases hadds
    refine .inl (h.gone hspace hp hminds (c := c)
      { hengaged with
        runs := hrest
        adds := (before?_concat_self hnew).symm
        posts := by simpa [Traffic.gone, Tally.postings] using hposts } ?_ ?_ ?_
      fun m hm => before?_concat_ne hm)
    · rw [hafter, addends_concat hengaged.closure, total_concat]
    · simpa using h.nodup.concat hnew
    · have hlt := (List.getElem?_eq_some_iff.1 hengaged.closure).1
      simpa [or_imp, forall_and, hlt] using h.bound
  | tells old =>
    refine .inr (h.gone hspace hp hminds (c := c)
      { hengaged with
        runs := hrest
        posts := ?_ } (hafter.trans (hbefore.symm.trans h.counter)) h.nodup h.bound fun _ _ => rfl)
    simp [Traffic.gone, Tally.postings, Event.signalled?, hengaged.thread, hposts]
  | stays hevent =>
    refine .inr (h.gone hspace hp hminds (c := c)
      { hengaged with
        runs := hrest
        posts := ?_ } (hafter.trans (hbefore.symm.trans h.counter)) h.nodup h.bound fun _ _ => rfl)
    simpa [Traffic.gone, hevent] using hposts

end

variable {turn : Traffic.Turn} {turns : List Traffic.Turn}

/-- In a turn a thread adds to the counter, or the counter stays as it is. -/
theorem step (h : Counted σ rk cs order s) (hσ : σ.Proper) (hspace : σ.Spacious)
    (hturn : turn.Orderly)
    (hroom : (cs ++ turn.closure?.toList).length ≤ σ.layout.capacity σ.size)
    (hstep : s.step σ.module turn = some s') :
    (∃ n, turn = .go n ∧ Counted σ rk cs (order ++ [n]) s') ∨
      Counted σ rk (cs ++ turn.closure?.toList) order s' := by
  cases turn with
  | spawn closurePtr ops cancelled heard =>
    obtain ⟨rfl, rfl⟩ := hturn
    simp only [Traffic.step, h.closer, Option.isSome_none, Bool.false_eq_true, if_false,
      Option.some.injEq] at hstep
    subst hstep
    have hlt : cs.length < σ.layout.capacity σ.size :=
      Nat.lt_of_succ_le (by simpa [Traffic.Turn.closure?] using hroom)
    exact .inr (h.spawn hσ hspace hlt closurePtr ops)
  | go n =>
    obtain ⟨p, hp, hrest⟩ := Option.bind_eq_some_iff.1 hstep
    obtain ⟨⟨event, rest, w⟩, hturn, hs⟩ := Option.bind_eq_some_iff.1 hrest
    cases hs
    obtain hadds | hstays := h.go hspace hp hturn
    · exact .inl ⟨n, rfl, hadds⟩
    · exact .inr (by simpa [Traffic.Turn.closure?] using hstays)
  | pump =>
    obtain ⟨box, -, rfl⟩ := Option.map_eq_some_iff.1 hstep
    exact .inr (by simpa [Traffic.Turn.closure?] using h.onStream (fun _ => box) s.received)
  | receive =>
    obtain ⟨taken, -, rfl⟩ := Option.map_eq_some_iff.1 hstep
    exact .inr (by simpa [Traffic.Turn.closure?] using h.onStream (fun _ => taken.2) _)
  | use | cancel | close | shut | other => exact hturn.elim

theorem read (h : Counted σ rk cs order s) :
    MemoryView.readU32 (s.world.linear? σ.memory) σ.cell = .ok (total (addends cs order)) :=
  h.crewed.holds.readU32 h.counter

/-- However the turns are taken, the threads add one after the other. -/
theorem run (h : Counted σ rk cs order s) (hσ : σ.Proper) (hspace : σ.Spacious)
    (hturns : ∀ turn ∈ turns, turn.Orderly)
    (hroom : (cs ++ Traffic.closures turns).length ≤ σ.layout.capacity σ.size)
    (hrun : s.run σ.module turns = some s') :
    ∃ order', Counted σ rk (cs ++ Traffic.closures turns) (order ++ order') s' ∧
      Traffic.Adding σ.module (fun w => MemoryView.readU32 (w.linear? σ.memory) σ.cell)
        (cs ++ Traffic.closures turns) s turns order' s' := by
  induction turns generalizing cs order s with
  | nil =>
    cases hrun
    exact ⟨[], by simpa [Traffic.closures] using h, .done _⟩
  | cons turn turns ih =>
    obtain ⟨s₁, hstep, hrest⟩ := Option.bind_eq_some_iff.1 hrun
    have hsplit : Traffic.closures (turn :: turns) =
        turn.closure?.toList ++ Traffic.closures turns := by
      rw [Traffic.closures, List.filterMap_cons]
      cases turn.closure? <;> rfl
    rw [hsplit, ← List.append_assoc] at hroom ⊢
    have hturns' : ∀ turn ∈ turns, turn.Orderly := fun u hu => hturns u (.tail _ hu)
    obtain ⟨n, rfl, hadds⟩ | hstays := h.step hσ hspace (hturns turn (.head _))
      (Nat.le_trans (by simp) hroom) hstep
    · have hnone : (Traffic.Turn.go n).closure?.toList = [] := rfl
      rw [hnone, List.append_nil] at hroom ⊢
      obtain ⟨order', hcounted, hadding⟩ := ih hadds hturns' hroom hrest
      have hn := hadds.bound n (by simp)
      have hc : cs[n]? = some cs[n] := List.getElem?_eq_getElem hn
      have hafter := hadds.read
      rw [addends_concat hc, total_concat] at hafter
      refine ⟨n :: order', by simpa using hcounted, .adds hstep ?_ h.read hafter hadding⟩
      rw [List.getElem?_append_left hn, hc]
    · obtain ⟨order', hcounted, hadding⟩ := ih hstays hturns' hroom hrest
      refine ⟨order', hcounted, .stays hstep ?_ hadding⟩
      rw [hstays.read, h.read, addends_append _ h.bound]

end Counted

/-! ## From the load on -/

section

variable {rk k : Nat} {r : Runtime} {bounds : Wasm.Assembly.MemoryImport} {cell : UInt32}
  {w₀ w₁ : World} {m : LoadedModule}

/-- Once the guest is loaded, its threads can be counted on. -/
theorem counted_of_load (hr : w₀.runtimes[rk]? = some r) (hvalid : r.config.validate = .ok ())
    (htls : 4 ≤ r.config.regions.tlsSize)
    (hsatisfied : bounds.SatisfiedBy r.config.memory.importName r.config.memory.minPages
      r.config.memory.maxPages)
    (hfits : (Wasm.accumulator r.config bounds cell).Fits) (haligned : cell.toNat % 4 = 0)
    (hload : load rk (Wasm.accumulator r.config bounds cell).encode w₀ = (.ok k, w₁))
    (hm : w₁.modules[k]? = some m) (hbelow : cell.toNat < m.layout.base.toNat) :
    ∃ σ : Site, σ.module = k ∧ σ.memory = m.memory ∧ σ.cell = cell ∧ σ.Proper ∧ σ.Spacious ∧
      Counted σ rk [] [] { world := w₁ } ∧
      m.layout.capacity (w₁.moduleSize k) = σ.layout.capacity σ.size := by
  obtain ⟨σ, hconfig, rfl, rfl, hworkers, hrelays, hσ, hholds, hruntime, hblank⟩ :=
    site_of_load hr hvalid hsatisfied hfits hload
  obtain ⟨mem, hhoused, -, hfirst⟩ := load_ok hr hload
  obtain ⟨m', hm', -, hmemory, -⟩ := hholds.loaded
  cases hm.symm.trans hm'
  obtain ⟨-, -, hlayout, -⟩ := Housing.mk.inj (hhoused.housing_eq hm)
  have hmade : m.layout = σ.layout := by
    rw [hlayout, Site.layout, hconfig]
    rfl
  rw [← hconfig] at hvalid htls hhoused hfirst
  rw [hmade] at hbelow ⊢
  have hspace := Site.spacious_of_valid hvalid htls haligned hbelow
  have hcrewed : Crewed σ rk 0 w₁ :=
    ⟨hholds, hruntime, ⟨mem, [], hhoused, rfl⟩, hworkers.symm, hrelays.symm⟩
  refine ⟨σ, rfl, hmemory.symm, rfl, hσ, hspace, ⟨hcrewed, rfl, rfl, ?_, .nil, by simp, by simp,
    by simp⟩, by rw [hholds.moduleSize]⟩
  have hroom := hspace.room hσ (hholds.moduleSize ▸ hfirst)
  change w₁.store.word? σ.linear σ.cell.toNat = some 0
  rw [Wasm.Store.word?, hblank, Option.bind_some]
  exact Wasm.Memory.word?_blank rfl hroom.cell

end

/-! ## Once all threads are done -/

/-- A thread ran to its end without a failure, and has posted one signal. -/
structure Succeeded (w : World) (t : Thread) : Prop where
  done : t.done = true
  error : t.error = none
  bridge : t.bridge.isSome = true
  status : w.threadStatus t = { state := .running, failed := false, signals := 1 }

/-- What has become of the threads with closures `cs`, which have added in this order. -/
structure Summed (k : Nat) (cell : UInt32) (cs : List UInt32) (order : List Nat) (s : Traffic)
    (m : LoadedModule) : Prop where
  module : s.world.modules[k]? = some m
  threads : m.threads.length = cs.length
  succeeded : ∀ t ∈ m.threads, Succeeded s.world t
  wait : wait k s.world = (.ok (), s.world)
  /-- Every thread adds once. -/
  once : order.Perm (List.range cs.length)
  counter : MemoryView.readU32 (s.world.linear? m.memory) cell = .ok (total cs)
  /-- Every thread posts one signal, with its closure and the sum of what was added before. -/
  posted : ∀ i c, cs[i]? = some c →
    (s.posted.filter (·.thread = i)).map Posting.signal = [{ hi := c, lo := before cs order i }]
  tls : ∀ t ∈ m.threads,
    MemoryView.readU32 (s.world.linear? m.memory) t.region.tlsPtr = .ok t.region.tlsPtr

namespace Counted

variable {σ : Site} {rk : Nat} {cs : List UInt32} {order : List Nat} {s : Traffic}

/-- What has become of a thread that is done. -/
theorem served (h : Counted σ rk cs order s) (hfinished : s.Finished) {n : Nat} {c : UInt32}
    (hc : cs[n]? = some c) :
    n ∈ order ∧ (∃ region, region.tlsPtr.toNat = σ.tls n ∧
      Served σ n region (.told (before cs order n)) s.world) ∧
    s.signalled.filter (·.party = n) =
      [{ party := n, thread := n, signal := { hi := c, lo := before cs order n } }] := by
  obtain ⟨p, hp⟩ : ∃ p, s.parties[n]? = some p :=
    ⟨_, List.getElem?_eq_getElem (h.parties ▸ (List.getElem?_eq_some_iff.1 hc).1)⟩
  obtain ⟨c', region, tally, hengaged⟩ := h.each n p hp
  cases hc.symm.trans hengaged.closure
  have hended := hfinished p (List.mem_of_getElem? hp)
  have hserved : Served σ n region tally s.world := by
    have hruns := hengaged.runs
    cases hrest : p.rest with
    | done a =>
      rw [hrest] at hruns
      exact hruns s.world ((relies σ n).refl _)
    | piece =>
      rw [hrest] at hended
      cases hended
  obtain ⟨old, rfl⟩ := hserved.told
  have hadds : some old = before? cs order n := hengaged.adds
  rw [before?] at hadds
  split at hadds <;> cases hadds
  exact ⟨‹_›, ⟨region, hengaged.tls, hserved⟩, hengaged.posts⟩

/-- Every thread has added once. -/
theorem once (h : Counted σ rk cs order s) (hfinished : s.Finished) :
    order.Perm (List.range cs.length) := by
  refine (List.perm_ext_iff_of_nodup h.nodup List.nodup_range).2 fun n => ?_
  rw [List.mem_range]
  exact ⟨h.bound n, fun hn => (h.served hfinished (List.getElem?_eq_getElem hn)).1⟩

/-- Postings of a thread are those of its party. -/
theorem filter_thread (h : Counted σ rk cs order s) {ρ : Nat → Nat} {m : LoadedModule}
    (hsound : Traffic.Sound σ.module ρ m s) {xs : List Posting} (hxs : ∀ x ∈ xs, x ∈ s.signalled)
    (i : Nat) : xs.filter (·.thread = i) = xs.filter (·.party = i) := by
  refine List.filter_congr fun x hx => ?_
  obtain ⟨p, hp, hthread⟩ := hsound.own x (hxs x hx)
  obtain ⟨c, region, tally, hengaged⟩ := h.each _ p hp
  rw [← hthread, hengaged.thread]

theorem threads_length (h : Counted σ rk cs order s) {m : LoadedModule}
    (hm : s.world.modules[σ.module]? = some m) : m.threads.length = cs.length := by
  obtain ⟨mem, gs, hhoused, hlength⟩ := h.crewed.housed
  exact (hhoused.threads_length hm).trans hlength

/-- The entry of a thread that is done. -/
theorem served_thread (h : Counted σ rk cs order s) (hfinished : s.Finished) {m : LoadedModule}
    (hm : s.world.modules[σ.module]? = some m) {i : Nat} {t : Thread}
    (ht : m.threads[i]? = some t) :
    ∃ c region b, t = { σ.thread i region with done := true, bridge := some b } ∧
      region.tlsPtr.toNat = σ.tls i ∧ Noted σ i region.tlsPtr s.world ∧ Brought σ i s.world ∧
      s.signalled.filter (·.party = i) =
        [{ party := i, thread := i, signal := { hi := c, lo := before cs order i } }] := by
  have hi := h.threads_length hm ▸ (List.getElem?_eq_some_iff.1 ht).1
  obtain ⟨-, ⟨region, htls, hserved⟩, hposts⟩ := h.served hfinished (List.getElem?_eq_getElem hi)
  obtain ⟨b, hb⟩ := hserved.thread
  rw [thread?, hm, Option.bind_some, ht] at hb
  exact ⟨cs[i], region, b, Option.some.inj hb, htls, hserved.noted, hserved.brought, hposts⟩

theorem succeeded (h : Counted σ rk cs order s) (hfinished : s.Finished) {ρ : Nat → Nat}
    {m : LoadedModule} (hsound : Traffic.Sound σ.module ρ m s) {i : Nat} {t : Thread}
    (ht : m.threads[i]? = some t) : Succeeded s.world t := by
  have hsignals := hsound.signals ht
  obtain ⟨c, region, b, rfl, -, -, ⟨e, he, hprogress⟩, hposts⟩ :=
    h.served_thread hfinished hsound.module ht
  rw [h.filter_thread hsound fun _ => id, hposts] at hsignals
  refine ⟨rfl, rfl, rfl, ?_⟩
  have he' : s.world.workers[(σ.thread i region).worker]? = some e := he
  simp only [threadStatus, he', hprogress] at hsignals ⊢
  rw [hsignals]
  rfl

theorem summed (h : Counted σ rk cs order s) (hfinished : s.Finished)
    (hvalid : Traffic.Valid σ.module s) : ∃ m, Summed σ.module σ.cell cs order s m := by
  obtain ⟨ρ, m, hsound, -⟩ := hvalid
  obtain ⟨m', hm', -, hmemory, -, herror, -⟩ := h.crewed.holds.loaded
  cases hm'.symm.trans hsound.module
  refine ⟨m, hm', h.threads_length hm', fun t ht => ?_, ?_, h.once hfinished, ?_, fun i c hc => ?_,
    fun t ht => ?_⟩
  · obtain ⟨i, ht⟩ := List.mem_iff_getElem?.1 ht
    exact h.succeeded hfinished hsound ht
  · rw [World.wait, bind_run, (loadedModule_finds σ.module).run hm']
    dsimp only
    rw [herror]
    rfl
  · rw [hmemory, h.read, total_perm (addends_perm (h.once hfinished))]
  · rw [h.filter_thread hsound hsound.kept, hsound.each hfinished, (h.served hfinished hc).2.2]
    rfl
  · obtain ⟨i, ht⟩ := List.mem_iff_getElem?.1 ht
    obtain ⟨c, region, b, rfl, htls, hnoted, -⟩ := h.served_thread hfinished hm' ht
    rw [hmemory]
    refine h.crewed.holds.readU32 ?_
    change s.world.store.word? σ.linear region.tlsPtr.toNat = some region.tlsPtr
    rw [htls]
    exact hnoted

end Counted

/-! ## Every schedule -/

theorem Traffic.Turn.Orderly.elsewhere {turn : Traffic.Turn} (h : turn.Orderly) (k : Nat) :
    turn.Elsewhere k := by
  cases turn with
  | other => exact h.elim
  | _ => trivial

/-- The counter does not depend on the schedule. Under a valid configuration with room for a pointer
in the TLS regions, and with a memory that satisfies the guest's import, let threads of the counting
guest be spawned as far as there is room, with the counter in an aligned cell below their regions,
and let their bring-ups take turns in any way. Then the threads come to their ends, and add one
after the other, each in a turn of its own. Once all are done every one of them has succeeded, the
counter is the sum of all closures, each thread has posted its closure with the sum of what was
added before, and its TLS region starts with its own TLS pointer. -/
theorem counter_is_schedule_independent {rk k : Nat} {r : Runtime}
    {bounds : Wasm.Assembly.MemoryImport} {cell : UInt32} {w₀ w₁ : World} {m : LoadedModule}
    {turns : List Traffic.Turn} {s : Traffic} (hr : w₀.runtimes[rk]? = some r)
    (hvalid : r.config.validate = .ok ()) (htls : 4 ≤ r.config.regions.tlsSize)
    (hsatisfied : bounds.SatisfiedBy r.config.memory.importName r.config.memory.minPages
      r.config.memory.maxPages)
    (hfits : (Wasm.accumulator r.config bounds cell).Fits) (haligned : cell.toNat % 4 = 0)
    (hload : load rk (Wasm.accumulator r.config bounds cell).encode w₀ = (.ok k, w₁))
    (hm : w₁.modules[k]? = some m) (hbelow : cell.toNat < m.layout.base.toNat)
    (hturns : ∀ turn ∈ turns, turn.Orderly)
    (hcapacity : (Traffic.closures turns).length ≤ m.layout.capacity (w₁.moduleSize k))
    (hrun : Traffic.run k { world := w₁ } turns = some s) :
    (∃ gos s', (∀ turn ∈ gos, ∃ n, turn = .go n) ∧ s.run k gos = some s' ∧ s'.Finished) ∧
      ∃ order, Traffic.Adding k (fun w => MemoryView.readU32 (w.linear? m.memory) cell)
          (Traffic.closures turns) { world := w₁ } turns order s ∧
        (s.Finished → ∃ m', Summed k cell (Traffic.closures turns) order s m') := by
  obtain ⟨σ, rfl, hmemory, rfl, hσ, hspace, hcounted, hsize⟩ :=
    counted_of_load hr hvalid htls hsatisfied hfits haligned hload hm hbelow
  obtain ⟨order, hend, hadding⟩ := hcounted.run hσ hspace hturns (hsize ▸ hcapacity) hrun
  have htraffic := (Traffic.valid_of_load hload).run
    (fun turn hturn => (hturns turn hturn).elsewhere σ.module) hrun
  rw [hmemory] at hadding
  exact ⟨s.completes σ.module, order, hadding, fun hfinished => hend.summed hfinished htraffic⟩

/-- The guest under the default configuration. -/
def tallyman : Wasm.Assembly :=
  Wasm.accumulator {} { module := "env", name := "memory", min := 64, max := 16384, shared := true }
    16

/-- Two threads take turns for a while and then go on to their ends. The sum of their closures wraps
around. -/
theorem two_threads_count :
    let w := (load 0 tallyman.encode fresh).2
    let turns : List Traffic.Turn :=
      [.spawn 5 [] false true, .spawn 4294967295 [] false true] ++
        (List.replicate 20 [.go 1, .go 0]).flatten
    ∃ gos s order m, load 0 tallyman.encode fresh = (.ok 0, w) ∧
      (∀ turn ∈ gos, ∃ n, turn = .go n) ∧
      Traffic.run 0 { world := w } (turns ++ gos) = some s ∧ s.Finished ∧
      Summed 0 16 [5, 4294967295] order s m ∧
      MemoryView.readU32 (s.world.linear? m.memory) 16 = .ok 4 := by
  intro w turns
  have hanswer : (load 0 tallyman.encode fresh).1.toOption = some 0 := by decide +kernel
  have hload : load 0 tallyman.encode fresh = (.ok 0, w) := by
    refine Prod.ext ?_ rfl
    cases hrun : (load 0 tallyman.encode fresh).1 <;> rw [hrun] at hanswer <;> cases hanswer
    rfl
  have hseen : w.modules[0]?.map (fun m => (m.layout.base, m.layout.capacity (w.moduleSize 0))) =
      some (0x100000, 47) := by decide +kernel
  obtain ⟨m, hm, hlayout⟩ := Option.map_eq_some_iff.1 hseen
  obtain ⟨hbase, hcapacity⟩ := Prod.mk.inj hlayout
  have hfits : tallyman.Fits := by constructor <;> decide +kernel
  have hcounts (turns : List Traffic.Turn) (s : Traffic) (hturns : ∀ turn ∈ turns, turn.Orderly)
      (hclosures : Traffic.closures turns = [5, 4294967295])
      (hrun : Traffic.run 0 { world := w } turns = some s) :=
    counter_is_schedule_independent (r := { config := {} }) rfl rfl (by decide)
      (by constructor <;> decide) hfits (by decide) hload hm (by rw [hbase]; decide) hturns
      (by rw [hclosures, hcapacity]; decide) hrun
  have hturns : ∀ turn ∈ turns, turn.Orderly := by decide
  have hruns : (Traffic.run 0 { world := w } turns).isSome = true := by decide +kernel
  obtain ⟨s, hrun⟩ := Option.isSome_iff_exists.1 hruns
  obtain ⟨⟨gos, s', hgos, hrun', hfinished⟩, -⟩ := hcounts turns s hturns rfl hrun
  have hall : ∀ turn ∈ turns ++ gos, turn.Orderly := by
    intro turn hturn
    obtain hturn | hturn := List.mem_append.1 hturn
    · exact hturns turn hturn
    · obtain ⟨n, rfl⟩ := hgos turn hturn
      trivial
  have hnone : Traffic.closures gos = [] := by
    refine List.filterMap_eq_nil_iff.2 fun turn hturn => ?_
    obtain ⟨n, rfl⟩ := hgos turn hturn
    rfl
  have hclosures : Traffic.closures (turns ++ gos) = [5, 4294967295] := by
    rw [Traffic.closures, List.filterMap_append]
    exact congrArg _ hnone
  have hwhole : Traffic.run 0 { world := w } (turns ++ gos) = some s' := by
    rw [Traffic.run_append, hrun]
    exact hrun'
  obtain ⟨-, order, -, hsums⟩ := hcounts _ s' hall hclosures hwhole
  obtain ⟨m', hsummed⟩ := hsums hfinished
  rw [hclosures] at hsummed
  exact ⟨gos, s', order, m', hload, hgos, hwhole, hfinished, hsummed, hsummed.counter⟩

end GuestThreads.World
