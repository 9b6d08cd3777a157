import GuestThreads.Fault

/-!
# Chains of causes

A fault has a chain of causes behind it. What is looked for in a fault is looked for along this
chain, so it is found in every fault whose chain ends in it.
-/

namespace GuestThreads.Fault

variable {f g target : Fault}

/-- A fault and the causes behind it, the outermost first. -/
def chain : Fault → List Fault
  | .causedBy r inner => .causedBy r inner :: inner.chain
  | .context text inner => .context text inner :: inner.chain
  | .within place inner => .within place inner :: inner.chain
  | f => [f]

/-- The labels of the report at the head of a fault: its phase and its kind. -/
def labels? (f : Fault) : Option (String × String) :=
  f.report?.map fun r => (r.phase.label, r.kind.label)

/-- The first report in a chain. -/
def outermost? (f : Fault) : Option Report := f.chain.findSome? report?

theorem is_iff : f.is target = true ↔ ∃ g ∈ f.chain, g.sameSort target = true := by
  induction f with
  | causedBy r inner ih | context text inner ih | within place inner ih => simp [is, chain, ih]
  | report | missingImports | plain | external => simp [is, chain]

theorem hasReport_iff : f.hasReport = true ↔ ∃ g ∈ f.chain, g.report?.isSome := by
  induction f with
  | causedBy | report => simp [hasReport, chain, report?]
  | context text inner ih | within place inner ih => simp [hasReport, chain, report?, ih]
  | missingImports | plain | external => simp [hasReport, chain, report?]

theorem self_mem_chain (f : Fault) : f ∈ f.chain := by
  cases f <;> simp [chain]

theorem outermost?_of_report? {r : Report} (h : f.report? = some r) : f.outermost? = some r := by
  cases f with
  | report | causedBy =>
    cases h
    rfl
  | context | within | missingImports | plain | external => cases h

theorem hasReport_of_report? {r : Report} (h : f.report? = some r) : f.hasReport = true :=
  hasReport_iff.2 ⟨f, f.self_mem_chain, by rw [h]; rfl⟩

theorem is_of_suffix (h : g.chain <:+ f.chain) (hg : g.is target = true) : f.is target = true := by
  obtain ⟨x, hx, hsort⟩ := is_iff.1 hg
  exact is_iff.2 ⟨x, h.subset hx, hsort⟩

/-! ## Imports that cannot be read -/

/-- The reader stopped inside the imports, for the given reason. -/
inductive StoppedBy (why : Cursor.Stop) : Wasm.Import.ScanError → Prop where
  | unreadable (position : Nat) : StoppedBy why (.unreadable ⟨position, why⟩)
  | sectionHeader (id : UInt8) (position : Nat) : StoppedBy why (.sectionHeader id ⟨position, why⟩)

/-- The reason for which a reader stopped is found behind the fault. -/
theorem unreadableImports_is_stopped {why : Cursor.Stop} {e : Wasm.Import.ScanError}
    (h : StoppedBy why e) : (unreadableImports e).is (.external (.stopped why)) = true := by
  rw [is_iff]
  refine ⟨.external (.stopped why), ?_, by simp [sameSort, report?]⟩
  cases h <;> simp [unreadableImports, ofScanError, ofFailure, chain]

end GuestThreads.Fault
