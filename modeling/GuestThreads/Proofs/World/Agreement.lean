import GuestThreads.Proofs.Wasm.Assembly
import GuestThreads.Proofs.World.Matched

/-!
# The two wirings agree

Of two engines whose settings differ in the module of the signal function alone, one puts a
trampoline in front of the host and the other does not. A guest and the same guest with its import
renamed cannot tell them apart, and neither can those who use them.
-/

namespace GuestThreads.World

/-! ## Answers -/

/-- Answers agree, but for the words in which the engine refuses to link a guest. -/
inductive SameAnswer {α : Type} : Except Fault α → Except Fault α → Prop
  | same (answer : Except Fault α) : SameAnswer answer answer
  | refused (reason reason' : String) :
    SameAnswer (.error (.instantiation (some (.external (.refused reason)))))
      (.error (.instantiation (some (.external (.refused reason')))))

theorem SameAnswer.map {α β : Type} {x x' : Except Fault α} (h : SameAnswer x x') (f : α → β) :
    SameAnswer (x.map f) (x'.map f) := by
  cases h with
  | same answer => exact .same _
  | refused reason reason' => exact .refused reason reason'

section Machines

variable [Wasm.Machine]

/-! ## Requests -/

/-- The guest code that a request makes run finds room for the calls of its imports, and comes to
its end. -/
def Request.Unhindered (w : World) (r : Request) : Prop :=
  ∀ a, r.activation? w = some a → Wasm.Unhindered a.noted

/-- Two worlds with one engine each, whose settings differ in the module of the signal function.
Signals go directly to the host in the second one. -/
structure Twins (c : Config) (n : String) (min max : UInt32) (w w' : World) : Prop where
  direct : ¬merged (c.withSignalModule n)
  left : Equipped c min max w
  right : Equipped (c.withSignalModule n) min max w'
  matched : Matched (signalCallee c).owner (signalCallee (c.withSignalModule n)).owner w w'

section

variable {c : Config} {n : String} {min max : UInt32} {w w' : World} {o o' : Wasm.Owner}

theorem Equipped.known (h : Equipped c min max w) : Known w.store (signalCallee c).owner := by
  rw [signalCallee]
  split
  · obtain ⟨x, hx, -, -⟩ := h.stands.instance
    exact (Array.getElem?_eq_some_iff.1 hx).1
  · trivial

theorem Equipped.memory (h : Equipped c min max w) :
    w.memories[0]? = some (memoryEntry 0 c min max 0 0) := by
  rw [h.memories]
  rfl

theorem Equipped.memory_eq (h : Equipped c min max w) {id : Nat} {mem : SharedMemory}
    (hmem : w.memories[id]? = some mem) : mem = memoryEntry 0 c min max 0 0 := by
  rw [h.memories] at hmem
  simpa using Array.mem_of_getElem? hmem

/-- A guest of an equipped engine. -/
theorem Equipped.guest (h : Equipped c min max w) {j : Nat} {i : LiveInstance}
    (hi : w.instances[j]? = some i) : i.inst ≠ 0 ∧ Posted (signalCallee c) w i.inst ∧
      ∃ m callees, Wasm.Resident w.store 0 i.inst m callees := by
  refine ⟨h.populated.apart j 0 i _ hi h.memory,
    ⟨signalCallee_outside c, h.known, h.bound j i hi⟩, ?_⟩
  obtain ⟨mem, hmem, m, callees, hresident, -⟩ := h.populated.lodged j i hi
  rw [h.memory_eq hmem] at hresident
  exact ⟨m, callees, hresident⟩

theorem Equipped.engine_or_none (h : Equipped c min max w)
    (h' : Equipped (c.withSignalModule n) min max w') (k : Nat) :
    (w.engines[k]? = none ∧ w'.engines[k]? = none) ∨ ∃ e e', w.engines[k]? = some e ∧
      w'.engines[k]? = some e' ∧ e.config = c ∧ e'.config = c.withSignalModule n ∧
      e.closed = false ∧ e'.closed = false ∧ e.modules = offered c 0 0 ∧
      e'.modules = offered (c.withSignalModule n) 0 0 := by
  by_cases hk : k = 0
  · subst hk
    obtain ⟨e, he, hconfig, hclosed, hmodules⟩ := h.engine
    obtain ⟨e', he', hconfig', hclosed', hmodules'⟩ := h'.engine
    exact .inr ⟨e, e', he, he', hconfig, hconfig', hclosed, hclosed', hmodules, hmodules'⟩
  · exact .inl ⟨h.no_other_engine hk, h'.no_other_engine hk⟩

omit [Wasm.Machine] in
/-- The setting in which the two engines differ matters to neither of these. -/
theorem engine_withSignalModule {e e' : Engine} (h : e.config = c)
    (h' : e'.config = c.withSignalModule n) :
    e'.config.engine = e.config.engine ∧ e'.pageLimit = e.pageLimit := by
  rw [Engine.pageLimit, Engine.pageLimit, h, h']
  exact ⟨rfl, rfl⟩

theorem Twins.host (h : Twins c n min max w w') :
    ∃ function, signalCallee (c.withSignalModule n) = .host function :=
  ⟨_, if_neg h.direct⟩

theorem Twins.call [Wasm.Machine.RunsTrampolines] [Wasm.Machine.IgnoresNames]
    (h : Twins c n min max w w') (j : Nat) (name : String) (args : List UInt64) (cancelled : Bool)
    (hnoted : (Request.call j name args cancelled).Unhindered w) :
    Agrees (signalCallee c).owner (signalCallee (c.withSignalModule n)).owner
      (callInstance j name args cancelled w) (callInstance j name args cancelled w') := by
  rw [callInstance, findFunction, bind_assoc]
  refine h.matched.with_instance fun i hi hi' => ?_
  obtain ⟨hinst, hposted, m, callees, hres⟩ := h.left.guest hi
  obtain ⟨-, hposted', m', callees', hres'⟩ := h.right.guest hi'
  rw [bind_assoc, read_run, read_run]
  rcases h.matched.export? hinst .func name with ⟨hf, hf'⟩ | ⟨x, x', f, hf, hf', -⟩
  · rw [hf, hf']
    exact ⟨rfl, h.matched⟩
  · rw [hf, hf']
    dsimp only
    rw [bind_assoc, bind_run, bind_run]
    rcases h.left.engine_or_none h.right i.engine with ⟨he, he'⟩ |
      ⟨e, e', he, he', hconfig, hconfig', -⟩
    · rw [(engine_finds _).miss he, (engine_finds _).miss he']
      exact ⟨rfl, h.matched⟩
    · rw [(engine_finds _).run he, (engine_finds _).run he']
      refine h.matched.callFunction hinst hres hposted hres' hposted' h.host
        (engine_withSignalModule hconfig hconfig').1 i.sink cancelled f.index args .trap
        fun a ha => hnoted a ?_
      simp [Request.activation?, hi, hf, he, ha]

theorem Twins.instanceGlobal (h : Twins c n min max w w') (j : Nat) (name : String) :
    w'.instanceGlobal j name = w.instanceGlobal j name := by
  rw [World.instanceGlobal, World.instanceGlobal, h.matched.instances]
  cases hi : w.instances[j]? with
  | none => rfl
  | some i =>
    obtain ⟨hinst, -, -⟩ := h.left.guest hi
    dsimp only
    rcases h.matched.export? hinst .global name with ⟨hf, hf'⟩ | ⟨x, x', f, hf, hf', -⟩
    · rw [hf, hf']
    · rw [hf, hf']
      dsimp only
      rw [h.matched.store.global hinst]

theorem Twins.setGlobal (h : Twins c n min max w w') (j : Nat) (name : String) (v : UInt32) :
    Agrees (signalCallee c).owner (signalCallee (c.withSignalModule n)).owner
      (setInstanceGlobal j name v w) (setInstanceGlobal j name v w') := by
  rw [setInstanceGlobal]
  refine h.matched.with_instance fun i hi hi' => ?_
  obtain ⟨hinst, hposted, -⟩ := h.left.guest hi
  obtain ⟨-, hposted', -⟩ := h.right.guest hi'
  dsimp only
  cases hopen : i.isOpen with
  | false => exact ⟨rfl, h.matched⟩
  | true =>
    rw [if_neg (by decide), read_run, read_run]
    rcases h.matched.export? hinst .global name with ⟨hf, hf'⟩ | ⟨x, x', f, hf, hf', hbare⟩
    · rw [hf, hf']
      exact ⟨rfl, h.matched⟩
    · have htype : x'.module.globalType? f.index = x.module.globalType? f.index := by
        rw [← x'.module.globalType?_bare, ← x.module.globalType?_bare]
        exact congrArg (·.module.globalType? f.index) hbare
      rw [hf, hf']
      dsimp only
      rw [htype]
      cases x.module.globalType? f.index with
      | none => exact ⟨rfl, h.matched⟩
      | some t =>
        dsimp only
        split
        · exact ⟨rfl, h.matched⟩
        · split
          · exact ⟨rfl, h.matched⟩
          · refine ⟨rfl, h.matched.restore (h.matched.store.setGlobal i.inst f.index _) ?_⟩
            rw [setGlobal_closing?, setGlobal_closing?, h.matched.closing]

theorem Twins.close (h : Twins c n min max w w') (j : Nat) :
    Agrees (signalCallee c).owner (signalCallee (c.withSignalModule n)).owner
      (closeInstance j w) (closeInstance j w') := by
  rw [closeInstance]
  refine h.matched.with_instance fun i hi hi' => ?_
  obtain ⟨hinst, hposted, -⟩ := h.left.guest hi
  obtain ⟨-, hposted', -⟩ := h.right.guest hi'
  have hclosed := h.matched.close hinst hposted.outside hposted'.outside hposted.known
    hposted'.known .guest .released
  exact ⟨rfl, hclosed.store, hclosed.closing,
    congrArg (·.modify j fun i => { i with isOpen := false }) h.matched.instances,
    hclosed.mail.inboxes, hclosed.mail.relays, hclosed.mail.modules⟩

/-! ### Views -/

theorem Twins.view_linear (h : Twins c n min max w w') (view : View) :
    view.linear? w' = view.linear? w := by
  cases view with
  | memory k =>
    rw [View.linear?, View.linear?, h.left.memories, h.right.memories]
    rcases k with - | k <;> rfl
  | «instance» j =>
    rw [View.linear?, View.linear?, instanceMemory?, instanceMemory?, h.matched.instances]
    cases hi : w.instances[j]? with
    | none => rfl
    | some i =>
      obtain ⟨hinst, -, -⟩ := h.left.guest hi
      have hmemory := h.matched.store.bind (g := Wasm.Instance.memory) hinst fun _ => rfl
      simp only [Option.bind_eq_bind, Option.bind_some, hmemory]

theorem Twins.view_memory (h : Twins c n min max w w') (view : View) :
    view.memory? w' = view.memory? w := by
  rw [View.memory?, View.memory?, h.view_linear, h.matched.store.memories]

theorem Twins.alterMemory (h : Twins c n min max w w') (k : Option Nat)
    (f : Option Wasm.Memory → Except Fault Wasm.Memory) :
    Agrees (signalCallee c).owner (signalCallee (c.withSignalModule n)).owner
      (World.alterMemory k f w) (World.alterMemory k f w') := by
  rw [World.alterMemory, read_run, read_run, h.matched.store.memories]
  cases f (k.bind (w.store.memories[·]?)) with
  | error fault => exact ⟨rfl, h.matched⟩
  | ok memory =>
    refine ⟨rfl, h.matched.restore (h.matched.store.setMemory _ memory) ?_⟩
    have hclosing (s : Wasm.Store) (o : Wasm.Owner) :
        (s.setMemory (k.getD 0) memory).closing? o = s.closing? o := by
      cases o <;> rfl
    rw [hclosing, hclosing, h.matched.closing]

/-! ### New instances -/

/-- The binary of a guest that imports nothing else. -/
def PlainBinary (c : Config) (bytes : Bytes) : Prop :=
  ∀ pageLimit m, Wasm.Machine.compile? pageLimit bytes = some m → Plain c m

theorem Renames.plain {bytes bytes' : Bytes} (h : Renames c.signal n bytes bytes')
    (hplain : PlainBinary c bytes) (hname : c.memory.importName.name ≠ c.signal.name) :
    PlainBinary (c.withSignalModule n) bytes' := by
  intro pageLimit m' hm'
  rw [h.compiled] at hm'
  obtain ⟨m, hm, rfl⟩ := Option.map_eq_some_iff.1 hm'
  exact (hplain pageLimit m hm).renamed hname n

/-- Vetting depends on the wiring in the names of imports alone. -/
theorem Twins.vetting (h : Twins c n min max w w') {bytes bytes' : Bytes}
    (hrenames : Renames c.signal n bytes bytes') (hold : c.memory.importName ≠ c.signal)
    (hnew : c.memory.importName.module ≠ n) (k : Nat) (shared : Option Nat) :
    World.vetting w' k bytes' shared =
      (World.vetting w k bytes shared).map fun v => (v.1, v.2.renamed c.signal n) := by
  rw [World.vetting, World.vetting]
  rcases h.left.engine_or_none h.right k with ⟨he, he'⟩ |
    ⟨e, e', he, he', hconfig, hconfig', hclosed, hclosed', -⟩
  · rw [he, he']
    rfl
  obtain ⟨rfl, -⟩ := h.left.engine_eq he
  rw [he, he']
  cases shared with
  | none => rfl
  | some id =>
    dsimp only
    have hpages : w'.memoryPages id = w.memoryPages id := by
      have hview (w : World) : w.linear? id = (View.memory id).memory? w := by
        rw [linear?, View.memory?, View.linear?]
        cases w.memories[id]? <;> rfl
      rw [memoryPages, memoryPages, memorySize, memorySize, hview, hview, h.view_memory]
    have hlimit := (engine_withSignalModule hconfig hconfig').2
    have hcheck := hrenames.checkMemoryImport hold hnew (w.memoryPages id) max
    have haccepting : accepting e' bytes' = (accepting e bytes).map (·.renamed c.signal n) := by
      rw [accepting, accepting, hrenames.accept? (hclosed'.trans hclosed.symm) hlimit]
      cases e.accept? bytes <;> rfl
    rw [h.left.memories, h.right.memories, hpages, hconfig, hconfig', haccepting]
    cases id with
    | succ id => rfl
    | zero =>
      change (checkMemoryImport c.memory.importName (w.memoryPages 0) max bytes' >>= _) =
        (checkMemoryImport c.memory.importName (w.memoryPages 0) max bytes >>= _).map _
      rw [hcheck]
      cases checkMemoryImport c.memory.importName (w.memoryPages 0) max bytes with
      | error f => rfl
      | ok => cases accepting e bytes <;> rfl

section Link

variable {k id id' : Nat} {e e' : Engine} {mem mem' : SharedMemory} {m : Wasm.Module}
  {bytes bytes' : Bytes}

/-- The worlds once a guest that can be linked is in the store. -/
theorem Twins.withGuest (h : Twins c n min max w w') (k : Nat) (m : Wasm.Module) (pageLimit : Nat) :
    let callee := signalCallee c
    let callee' := signalCallee (c.withSignalModule n)
    Matched callee.owner callee'.owner
      (installed w k w.store.instances.size (World.withGuest w.store m pageLimit callee))
      (installed w' k w'.store.instances.size
        (World.withGuest w'.store (m.renamed c.signal n) pageLimit callee')) := by
  intro callee callee'
  refine ⟨withGuest_alike h.matched.store m pageLimit c.signal n callee callee', ?_,
    h.matched.instances, h.matched.mail.inboxes, h.matched.mail.relays, h.matched.mail.modules⟩
  change (World.withGuest w'.store _ _ _).closing? _ = (World.withGuest w.store _ _ _).closing? _
  rw [withGuest_closing? h.left.known, withGuest_closing? h.right.known, h.matched.closing]

theorem Equipped.posted_withGuest (h : Equipped c min max w) (k : Nat) (m : Wasm.Module)
    (pageLimit : Nat) : Posted (signalCallee c) (installed w k w.store.instances.size
      (World.withGuest w.store m pageLimit (signalCallee c))) w.store.instances.size where
  outside := signalCallee_outside c
  known := h.known.later (by
    change w.store.instances.size ≤ (w.store.instances.push _).size
    rw [Array.size_push]
    omega)
  bound := withGuest_boundTo w.store m pageLimit (signalCallee c)

/-- Setting up the guest closes nothing. -/
theorem fill_closing? {s : Wasm.Store} {inst : Nat} (hinst : inst < s.instances.size) :
    (s.fill inst).2.closing? o = s.closing? o :=
  closing?_within (Wasm.Within.leave s inst _) hinst

/-- The machine sets up both instances in the same way. -/
theorem Matched.fill [Wasm.Machine.IgnoresNames] {inst : Nat} {store store' : Wasm.Store}
    (h : Matched o o' (installed w k inst store) (installed w' k inst store'))
    (hpositive : inst ≠ 0) (hlt : inst < store.instances.size)
    (hlt' : inst < store'.instances.size) :
    ∃ refusal filled filled', store.fill inst = (refusal, filled) ∧
      store'.fill inst = (refusal, filled') ∧
      Matched o o' (installed w k inst filled) (installed w' k inst filled') := by
  have hstore : Wasm.Alike 0 store store' := h.store
  obtain ⟨hrefusal, halike⟩ := hstore.fill hpositive
  refine ⟨(store.fill inst).1, (store.fill inst).2, (store'.fill inst).2, rfl,
    Prod.ext hrefusal rfl, h.restore halike ?_⟩
  rw [fill_closing? hlt, fill_closing? hlt']
  exact h.closing

/-- What can be linked in the one world can be linked in the other. -/
theorem Twins.suits (h : Twins c n min max w w') (m : Wasm.Module) (pageLimit : Nat) :
    (∀ i ∈ (m.renamed c.signal n).imports,
      Suits w'.store pageLimit (m.renamed c.signal n).types i.desc) ↔
      ∀ i ∈ m.imports, Suits w.store pageLimit m.types i.desc := by
  have hentry (d : Wasm.Import.Desc) : Suits w'.store pageLimit m.types d ↔
      Suits w.store pageLimit m.types d := by
    cases d with
    | memory l => rw [Suits, Suits, h.matched.store.memories]
    | _ => rfl
  simp only [Wasm.Module.renamed, List.forall_mem_map, Wasm.Import.renamed_desc, hentry]

/-- Linking is a matter of the start function, once the machine has set up both instances. -/
theorem Matched.link [Wasm.Machine.RunsTrampolines] [Wasm.Machine.IgnoresNames]
    {callee callee' : Wasm.Callee} {old : Config.ImportName} {inst : Nat}
    {store store' filled filled' : Wasm.Store} {refusal : Option String}
    {m₁ m₁' : Wasm.Module} {callees callees' : List Wasm.Callee}
    (h : Matched callee.owner callee'.owner (installed w k inst filled)
      (installed w' k inst filled'))
    (he : w.engines[k]? = some e) (he' : w'.engines[k]? = some e')
    (hengine : e'.config.engine = e.config.engine)
    (hinst : w.store.instantiate e.modules e.pageLimit m = .ok (inst, store))
    (hinst' : w'.store.instantiate e'.modules e'.pageLimit (m.renamed old n) = .ok (inst, store'))
    (hfill : store.fill inst = (refusal, filled)) (hfill' : store'.fill inst = (refusal, filled'))
    (hpositive : inst ≠ 0) (hres : Wasm.Resident filled 0 inst m₁ callees)
    (hposted : Posted callee (installed w k inst filled) inst)
    (hres' : Wasm.Resident filled' 0 inst m₁' callees')
    (hposted' : Posted callee' (installed w' k inst filled') inst)
    (hhost : ∃ function, callee' = .host function) (sink : Option Sink) (cancelled : Bool)
    (hnoted : ∀ a, (newcomer e m inst store).activation? cancelled = some a →
      Wasm.Unhindered a.noted) :
    Agrees callee.owner callee'.owner (World.link k m sink cancelled w)
      (World.link k (m.renamed old n) sink cancelled w') := by
  cases refusal with
  | some reason =>
    rw [link_unfilled he hinst hfill, link_unfilled he' hinst' hfill']
    exact ⟨rfl, h⟩
  | none =>
    cases hstart : m.start with
    | none =>
      rw [link_plain he hinst hfill hstart, link_plain he' hinst' hfill' hstart]
      exact ⟨rfl, h⟩
    | some start =>
      have hcall := h.callFunction hpositive hres hposted hres' hposted' hhost hengine sink
        cancelled start [] (.startTrap (startName m start)) (fun a ha => hnoted a (by
          rw [SetUp.activation?, newcomer, hfill, hstart]
          exact ha))
      rcases hrun : World.callFunction e sink cancelled inst start []
        (.startTrap (startName m start)) (installed w k inst filled) with ⟨r, v⟩
      rcases hrun' : World.callFunction e' sink cancelled inst start []
        (.startTrap (startName m start)) (installed w' k inst filled') with ⟨r', v'⟩
      rw [hrun, hrun'] at hcall
      obtain ⟨rfl, hmatched⟩ := hcall
      rw [← startName_renamed m old n] at hrun'
      rw [link_start he hinst hfill hstart hrun, link_start he' hinst' hfill' hstart hrun']
      exact ⟨rfl, hmatched⟩

/-- Linking a guest, setting it up and starting it. -/
theorem Twins.link [Wasm.Machine.RunsTrampolines] [Wasm.Machine.IgnoresNames]
    (h : Twins c n min max w w') (hv : Vetted w k bytes e id mem m)
    (hv' : Vetted w' k bytes' e' id' mem' (m.renamed c.signal n)) (hplain : Plain c m)
    (hplain' : Plain (c.withSignalModule n) (m.renamed c.signal n)) (sink : Option Sink)
    (cancelled : Bool)
    (hnoted : ∀ inst store, w.store.instantiate e.modules e.pageLimit m = .ok (inst, store) →
      ∀ a, (newcomer e m inst store).activation? cancelled = some a → Wasm.Unhindered a.noted) :
    (∃ reason reason', World.link k m sink cancelled w =
        (.error (.external (.refused reason)), w) ∧
      World.link k (m.renamed c.signal n) sink cancelled w' =
        (.error (.external (.refused reason')), w')) ∨
    Agrees (signalCallee c).owner (signalCallee (c.withSignalModule n)).owner
      (World.link k m sink cancelled w)
      (World.link k (m.renamed c.signal n) sink cancelled w') := by
  obtain ⟨-, hconfig, -, hmodules⟩ := h.left.engine_eq hv.engine
  obtain ⟨-, hconfig', -, hmodules'⟩ := h.right.engine_eq hv'.engine
  obtain ⟨hengine, hlimit⟩ := engine_withSignalModule hconfig hconfig'
  obtain ⟨hok, hrefused⟩ := h.left.instantiate e.pageLimit hplain
  obtain ⟨hok', hrefused'⟩ := h.right.instantiate e.pageLimit hplain'
  rw [← hmodules] at hok hrefused
  rw [← hmodules', h.suits] at hok' hrefused'
  by_cases hall : ∀ i ∈ m.imports, Suits w.store e.pageLimit m.types i.desc
  · right
    have hinst := hok hall
    have hinst' := (congrArg (w'.store.instantiate e'.modules · _) hlimit).trans (hok' hall)
    have hpositive : w.store.instances.size ≠ 0 := by
      obtain ⟨x, hx, -, -⟩ := h.left.stands.instance
      have hlt := (Array.getElem?_eq_some_iff.1 hx).1
      omega
    obtain ⟨-, m₁, callees, hres, -⟩ := h.left.populated.lodges hv hinst
    obtain ⟨-, m₁', callees', hres', -⟩ := h.right.populated.lodges hv' hinst'
    rw [h.left.memory_eq hv.memory] at hres
    rw [h.right.memory_eq hv'.memory] at hres'
    have hmatched := h.withGuest k m e.pageLimit
    have hposted := h.left.posted_withGuest k m e.pageLimit
    have hposted' := h.right.posted_withGuest k (m.renamed c.signal n) e.pageLimit
    rw [h.matched.store.size] at hinst' hres' hmatched hposted'
    obtain ⟨refusal, filled, filled', hfill, hfill', hsetUp⟩ :=
      hmatched.fill hpositive hposted.lt_size hposted'.lt_size
    have hlater := fill_evolves hfill
    have hlater' := fill_evolves hfill'
    exact hsetUp.link hv.engine hv'.engine hengine hinst hinst' hfill hfill' hpositive
      (hres.later hlater) (hposted.later hlater) (hres'.later hlater') (hposted'.later hlater')
      h.host sink cancelled (hnoted _ _ hinst)
  · left
    obtain ⟨reason, hreason⟩ := hrefused hall
    obtain ⟨reason', hreason'⟩ := hrefused' hall
    rw [← hlimit] at hreason'
    exact ⟨reason, reason', link_refused hv.engine hreason, link_refused hv'.engine hreason'⟩

end Link

/-- What was compiled in the meantime does not matter. -/
theorem Equipped.stocked {w₁ : World} (h : Equipped c min max w) (hw : Stocked w w₁)
    (hpopulated : Populated w₁) : Equipped c min max w₁ :=
  h.evolve hpopulated ⟨hw.engines, hw.memories⟩ (hw.store ▸ .refl _) (congrArg _ hw.instances)

theorem Twins.stocked {w₁ w₁' : World} (h : Twins c n min max w w') (hw : Stocked w w₁)
    (hw' : Stocked w' w₁') (hpopulated : Populated w₁) (hpopulated' : Populated w₁') :
    Twins c n min max w₁ w₁' where
  direct := h.direct
  left := h.left.stocked hw hpopulated
  right := h.right.stocked hw' hpopulated'
  matched := by
    obtain ⟨hstore, hclosing, hinstances, hmail⟩ := h.matched
    refine ⟨?_, ?_, ?_, ?_, ?_, ?_⟩
    · rwa [hw.store, hw'.store]
    · rwa [hw.store, hw'.store]
    · rwa [hw.instances, hw'.instances]
    · rw [hw.inboxes, hw'.inboxes, hmail.inboxes]
    · rw [hw.relays, hw'.relays, hmail.relays]
    · rw [hw.modules, hw'.modules, hmail.modules]

omit [Wasm.Machine] in
theorem Matched.enlist (h : Matched o o' w w') (k id inst : Nat) (sink : Option Sink) :
    Matched o o' (enlisted w k id inst sink) (enlisted w' k id inst sink) where
  store := h.store
  closing := h.closing
  instances := by rw [enlisted, enlisted, h.instances]
  mail := ⟨h.mail.inboxes, h.mail.relays, h.mail.modules⟩

theorem Twins.instantiate [Wasm.Machine.RunsTrampolines] [Wasm.Machine.IgnoresNames]
    (h : Twins c n min max w w') {bytes bytes' : Bytes}
    (hrenames : Renames c.signal n bytes bytes') (hplain : PlainBinary c bytes) (hmerged : merged c)
    (k : Nat) (shared : Option Nat) (sink : Option Sink) (cancelled : Bool)
    (hnoted : (Request.instantiate k bytes shared sink cancelled).Unhindered w) :
    let x := World.instantiate k bytes shared sink cancelled w
    let x' := World.instantiate k bytes' shared sink cancelled w'
    SameAnswer x.1 x'.1 ∧
      Matched (signalCallee c).owner (signalCallee (c.withSignalModule n)).owner x.2 x'.2 := by
  have hname := h.left.names hmerged
  have hold : c.memory.importName ≠ c.signal := fun heq => hname (congrArg _ heq)
  obtain ⟨w₁, hvet, hstocked⟩ := vet_run h.left.populated.cached k bytes shared
  obtain ⟨w₁', hvet', hstocked'⟩ := vet_run h.right.populated.cached k bytes' shared
  have h₁ : Twins c n min max w₁ w₁' := h.stocked hstocked hstocked'
    (Keeps.of_run (vet_keeps populating_passive k bytes shared) hvet h.left.populated)
    (Keeps.of_run (vet_keeps populating_passive k bytes' shared) hvet' h.right.populated)
  have hvetting' := h.vetting hrenames hold (fun heq => h.direct heq.symm) k shared
  cases hvetting : World.vetting w k bytes shared with
  | error f =>
    rw [hvetting] at hvet hvetting'
    rw [hvetting'] at hvet'
    dsimp only
    rw [instantiate_of_vet_error hvet, instantiate_of_vet_error hvet']
    exact ⟨.same _, h₁.matched⟩
  | ok vetted =>
    obtain ⟨id, m⟩ := vetted
    rw [hvetting] at hvet hvetting'
    obtain ⟨e, mem, hv⟩ := vetted_of_vetting ((hstocked.vetting_eq k bytes shared).trans hvetting)
    obtain ⟨e', mem', hv'⟩ :=
      vetted_of_vetting ((hstocked'.vetting_eq k bytes' shared).trans hvetting')
    rw [hvetting'] at hvet'
    have hplain₁ := hplain _ m (accept?_ok hv.accepted).2
    have hnoted₁ (inst : Nat) (store : Wasm.Store)
        (hinst : w₁.store.instantiate e.modules e.pageLimit m = .ok (inst, store)) (a : Activation)
        (ha : (newcomer e m inst store).activation? cancelled = some a) :
        Wasm.Unhindered a.noted := by
      refine hnoted a ?_
      have hsetUp := hstocked.setUp?_eq k bytes shared sink cancelled
      rw [setUp?_instantiate ((hstocked.vetting_eq k bytes shared).trans hvetting) hv.engine,
        hinst] at hsetUp
      rw [Request.activation?, ← hsetUp]
      exact ha
    dsimp only
    rcases h₁.link hv hv' hplain₁ (hplain₁.renamed hname n) sink cancelled hnoted₁ with
      ⟨reason, reason', hlink, hlink'⟩ | hlinks
    · rw [instantiate_of_link_error hvet hlink, instantiate_of_link_error hvet' hlink']
      exact ⟨.refused reason reason', h₁.matched⟩
    · rcases hlink : World.link k m sink cancelled w₁ with ⟨r, w₂⟩
      rcases hlink' : World.link k (m.renamed c.signal n) sink cancelled w₁' with ⟨r', w₂'⟩
      rw [hlink, hlink'] at hlinks
      obtain ⟨rfl, hmatched⟩ := hlinks
      cases r' with
      | error f =>
        rw [instantiate_of_link_error hvet hlink, instantiate_of_link_error hvet' hlink']
        exact ⟨.same _, hmatched⟩
      | ok inst =>
        rw [instantiate_of_link hvet hlink, instantiate_of_link hvet' hlink', hmatched.instances]
        exact ⟨.same _, hmatched.enlist k id inst sink⟩

/-- The signal import of an instance that is linked stands for the signal function. -/
theorem Equipped.link_bound (h : Equipped c min max w) {k id inst : Nat} {bytes : Bytes}
    {e : Engine} {mem : SharedMemory} {m : Wasm.Module} {store : Wasm.Store}
    (hv : Vetted w k bytes e id mem m) (hplain : Plain c m)
    (hinst : w.store.instantiate e.modules e.pageLimit m = .ok (inst, store)) :
    BoundTo store (signalCallee c) inst := by
  obtain ⟨-, -, -, hmodules⟩ := h.engine_eq hv.engine
  obtain ⟨hok, hrefused⟩ := h.instantiate e.pageLimit hplain
  rw [← hmodules] at hok hrefused
  by_cases hall : ∀ i ∈ m.imports, Suits w.store e.pageLimit m.types i.desc
  · cases (hok hall).symm.trans hinst
    exact withGuest_boundTo w.store m e.pageLimit (signalCallee c)
  · obtain ⟨reason, hreason⟩ := hrefused hall
    cases hreason.symm.trans hinst

theorem Equipped.instantiate_bound (h : Equipped c min max w) {bytes : Bytes}
    (hplain : PlainBinary c bytes) (k : Nat) (shared : Option Nat) (sink : Option Sink)
    (cancelled : Bool) :
    let w' := (World.instantiate k bytes shared sink cancelled w).2
    ∀ (j : Nat) (i : LiveInstance), w'.instances[j]? = some i →
      BoundTo w'.store (signalCallee c) i.inst := by
  obtain ⟨w₁, hstocked, hvet, hattempt⟩ :=
    instantiate_attempt h.populated.cached k bytes shared sink cancelled
  have h₁ : Equipped c min max w₁ := h.stocked hstocked
    (Keeps.of_run (vet_keeps populating_passive k bytes shared) hvet h.populated)
  generalize World.instantiate k bytes shared sink cancelled w = out at hattempt
  cases hattempt with
  | rejected => exact h₁.bound
  | @failed _ _ _ m _ w₂ _ _ hlink =>
    have hexecutes : Executes w₁ w₂ := Keeps.of_run
      (link_keeps executing_passive (postSignal_executing sink) k m cancelled) hlink
    intro _ j i hi
    exact (h₁.bound j i (hexecutes.instances ▸ hi)).later hexecutes.store
  | @entered _ _ _ _ m w₂ _ hv hlink =>
    obtain ⟨store, hinst, hexecutes⟩ := link_ok hv.engine hlink
    have hbound := h₁.link_bound hv (hplain _ m (accept?_ok hv.accepted).2) hinst
    have hevolves := (Wasm.instantiate_evolves hinst).trans hexecutes.store
    intro _ j i hi
    change (w₂.instances.push _)[j]? = some i at hi
    rw [Array.getElem?_push] at hi
    split at hi
    · cases hi
      exact hbound.later hexecutes.store
    · exact (h₁.bound j i (hexecutes.instances ▸ hi)).later hevolves

theorem Equipped.after [Wasm.Machine.RunsTrampolines] (h : Equipped c min max w) {r : Request}
    (hr : r.Minor)
    (hbound : ∀ (j : Nat) (i : LiveInstance), (r.after w).instances[j]? = some i →
      BoundTo (r.after w).store (signalCallee c) i.inst) : Equipped c min max (r.after w) := by
  have hevolves : Wasm.Evolves w.store (r.after w).store :=
    hr.keeps evolving_lenient postSignal_evolving w
  have hlineup := hr.sameLineup w
  exact ⟨h.fits, h.names, h.populated.after r, hlineup.engines.trans h.engines,
    hlineup.memories.trans h.memories, hevolves.code? h.stands, linearOf?_later hevolves h.linear,
    hbound⟩

end

/-! ## Sessions -/

/-- A request in the one world and what it is in the other: guests are renamed, and all else is the
same. -/
inductive Counterpart (c : Config) (n : String) : Request → Request → Prop
  | instantiate {bytes bytes' : Bytes} (k : Nat) (shared : Option Nat) (sink : Option Sink)
    (cancelled : Bool) (hplain : PlainBinary c bytes)
    (hrenames : Renames c.signal n bytes bytes') :
    Counterpart c n (.instantiate k bytes shared sink cancelled)
      (.instantiate k bytes' shared sink cancelled)
  | call (j : Nat) (name : String) (args : List UInt64) (cancelled : Bool) :
    Counterpart c n (.call j name args cancelled) (.call j name args cancelled)
  | global (j : Nat) (name : String) : Counterpart c n (.global j name) (.global j name)
  | setGlobal (j : Nat) (name : String) (v : UInt32) :
    Counterpart c n (.setGlobal j name v) (.setGlobal j name v)
  | close (j : Nat) : Counterpart c n (.close j) (.close j)
  | read (view : View) (offset length : UInt32) :
    Counterpart c n (.read view offset length) (.read view offset length)
  | write (view : View) (offset : UInt32) (bytes : Bytes) :
    Counterpart c n (.write view offset bytes) (.write view offset bytes)

section

variable {c : Config} {n : String} {min max : UInt32} {w w' : World}

theorem Equipped.after_ordinary [Wasm.Machine.RunsTrampolines] (h : Equipped c min max w)
    {r : Request} (hr : r.Ordinary) (hminor : r.Minor) : Equipped c min max (r.after w) := by
  have hexecutes : Executes w (r.after w) := hr.keeps executing_passive postSignal_executing w
  refine h.after hminor fun j i hi => ?_
  exact (h.bound j i (hexecutes.instances ▸ hi)).later hexecutes.store

theorem Equipped.after_close [Wasm.Machine.RunsTrampolines] (h : Equipped c min max w) (j : Nat) :
    Equipped c min max ((Request.close j).after w) := by
  refine h.after (r := .close j) trivial ?_
  rw [Request.after_close, closeInstance, bind_run]
  cases hj : w.instances[j]? with
  | none =>
    rw [(liveInstance_finds j).miss hj]
    exact h.bound
  | some i =>
    rw [(liveInstance_finds j).run hj]
    intro j' i' hi'
    change (w.instances.modify j _)[j']? = some i' at hi'
    have hlater := Wasm.Evolves.closeInstance w.store i.inst .released
    rw [Array.getElem?_modify] at hi'
    split at hi'
    · obtain ⟨i₀, hi₀, rfl⟩ := Option.map_eq_some_iff.1 hi'
      exact (h.bound j' i₀ hi₀).later hlater
    · exact (h.bound j' i' hi').later hlater

theorem Twins.of_actions {α : Type} {x x' : Try α} {f : α → Reply} {r r' : Request}
    (hr : r.perform w = (x >>= fun a => pure (f a)) w)
    (hr' : r'.perform w' = (x' >>= fun a => pure (f a)) w')
    (hanswer : SameAnswer (x w).1 (x' w').1)
    (hmatched : Matched (signalCallee c).owner (signalCallee (c.withSignalModule n)).owner (x w).2
      (x' w').2)
    (hdirect : ¬merged (c.withSignalModule n))
    (hleft : Equipped c min max (r.after w))
    (hright : Equipped (c.withSignalModule n) min max (r'.after w')) :
    SameAnswer (r.perform w).1 (r'.perform w').1 ∧ Twins c n min max (r.after w) (r'.after w') := by
  refine ⟨?_, hdirect, hleft, hright, ?_⟩
  · rw [hr, hr', reply_answer, reply_answer]
    exact hanswer.map f
  · rw [Request.after, Request.after, hr, hr', reply_world, reply_world]
    exact hmatched

/-- A request and its counterpart get the same answer, and the worlds stay twins. -/
theorem Twins.after [Wasm.Machine.RunsTrampolines] [Wasm.Machine.IgnoresNames]
    (h : Twins c n min max w w') (hmerged : merged c) {r r' : Request} (hr : Counterpart c n r r')
    (hnoted : r.Unhindered w) :
    SameAnswer (r.perform w).1 (r'.perform w').1 ∧ Twins c n min max (r.after w) (r'.after w') := by
  have of_agrees {α : Type} {x x' : Except Fault α × World}
      (hagrees : Agrees (signalCallee c).owner (signalCallee (c.withSignalModule n)).owner x x') :
      SameAnswer x.1 x'.1 := hagrees.1 ▸ .same _
  cases hr with
  | instantiate k shared sink cancelled hplain hrenames =>
    obtain ⟨hanswer, hmatched⟩ :=
      h.instantiate hrenames hplain hmerged k shared sink cancelled hnoted
    have hplain' := hrenames.plain hplain (h.left.names hmerged)
    refine Twins.of_actions rfl rfl hanswer hmatched h.direct (h.left.after trivial ?_)
      (h.right.after trivial ?_)
    · rw [Request.after_instantiate]
      exact h.left.instantiate_bound hplain k shared sink cancelled
    · rw [Request.after_instantiate]
      exact h.right.instantiate_bound hplain' k shared sink cancelled
  | call j name args cancelled =>
    have hagrees := h.call j name args cancelled hnoted
    exact Twins.of_actions rfl rfl (of_agrees hagrees) hagrees.2 h.direct
      (h.left.after_ordinary (r := .call j name args cancelled) trivial trivial)
      (h.right.after_ordinary (r := .call j name args cancelled) trivial trivial)
  | setGlobal j name v =>
    have hagrees := h.setGlobal j name v
    exact Twins.of_actions rfl rfl (of_agrees hagrees) hagrees.2 h.direct
      (h.left.after_ordinary (r := .setGlobal j name v) trivial trivial)
      (h.right.after_ordinary (r := .setGlobal j name v) trivial trivial)
  | close j =>
    have hagrees := h.close j
    exact Twins.of_actions rfl rfl (of_agrees hagrees) hagrees.2 h.direct (h.left.after_close j)
      (h.right.after_close j)
  | global j name =>
    rw [Request.after, Request.after, Request.perform_global, Request.perform_global,
      h.instanceGlobal]
    exact ⟨.same _, h⟩
  | read view offset length =>
    rw [Request.after, Request.after, Request.perform_read, Request.perform_read, h.view_memory]
    exact ⟨.same _, h⟩
  | write view offset bytes =>
    have hagrees := h.alterMemory (view.linear? w) (MemoryView.write · offset bytes)
    refine Twins.of_actions (Request.perform_write w view offset bytes) ?_ (of_agrees hagrees)
      hagrees.2 h.direct
      (h.left.after_ordinary (r := .write view offset bytes) trivial trivial)
      (h.right.after_ordinary (r := .write view offset bytes) trivial trivial)
    rw [Request.perform_write, h.view_linear]

/-- What requests are answered, one after the other. -/
def replies : List Request → World → List (Except Fault Reply)
  | [], _ => []
  | r :: session, w => (r.perform w).1 :: replies session (r.after w)

/-- All guest code that a session makes run is unhindered. -/
def Unhindered : List Request → World → Prop
  | [], _ => True
  | r :: session, w => r.Unhindered w ∧ Unhindered session (r.after w)

/-- A session and its counterpart cannot be told apart. -/
theorem Twins.session [Wasm.Machine.RunsTrampolines] [Wasm.Machine.IgnoresNames]
    (h : Twins c n min max w w') (hmerged : merged c) {session session' : List Request}
    (hsession : List.Forall₂ (Counterpart c n) session session') (hnoted : Unhindered session w) :
    List.Forall₂ SameAnswer (replies session w) (replies session' w') ∧
      Twins c n min max (afterAll session w) (afterAll session' w') := by
  induction hsession generalizing w w' with
  | nil => exact ⟨.nil, h⟩
  | cons hr _ ih =>
    obtain ⟨hanswer, hnext⟩ := h.after hmerged hr hnoted.1
    obtain ⟨hanswers, hlast⟩ := ih hnext hnoted.2
    exact ⟨.cons hanswer hanswers, hlast⟩

/-! ## Before a session -/

end

end Machines

end GuestThreads.World
