import GuestThreads.Proofs.Wasm.Linked
import GuestThreads.Proofs.World.Lineup

/-!
# What guests import

Guests import the memory from an instance of the trampoline. They import the signal function from
the same instance, where it forwards to the host, or straight from a module of the host.
-/

namespace GuestThreads.World

/-- What guests call to post a signal, where memory `home` is defined by instance `env`. -/
def poster (c : Config) (home env : Nat) : Wasm.Callee :=
  if merged c then .code env 1 else .host (hostFunc c home)

/-- The names that guests import, if both come from one module. -/
theorem Accepts.names_ne [Wasm.Machine] [Wasm.Machine.RunsTrampolines] {e : Engine}
    {min max : UInt32} (h : Accepts e min max) (hmerged : merged e.config) :
    e.config.memory.importName.name ≠ e.config.signal.name := by
  have hnames : (trampoline e.config min max).exportNames =
      [e.config.memory.importName.name, e.config.signal.name] := by
    rw [Wasm.Trampoline.exportNames, trampoline_funcs_merged hmerged]
    rfl
  have hdistinct := hnames ▸ h.meaning.2.1
  simpa using hdistinct

/-- Instance `env` stands for the trampoline and exports linear memory `linear`. -/
structure Supplies (c : Config) (min max : UInt32) (home env linear : Nat) (s : Wasm.Store) :
    Prop where
  fits : (trampoline c min max).Fits
  names : merged c → c.memory.importName.name ≠ c.signal.name
  stands : (trampoline c min max).Stands (forwarded c home) s env
  linear : s.linearOf? env = some linear

namespace Supplies

variable {c : Config} {min max : UInt32} {home env linear : Nat} {s : Wasm.Store}
  {m : Wasm.Module} {i : Wasm.Import}

theorem resolve_memory (h : Supplies c min max home env linear s) (pageLimit : Nat)
    {l : Wasm.Limits} (hmodule : i.module = c.memory.importName.module)
    (hname : i.name = c.memory.importName.name) (hdesc : i.desc = .memory l) :
    Wasm.resolve s (offered c home env) pageLimit m i =
      Wasm.bindMemory s pageLimit i l linear := by
  obtain ⟨x, hx, hmeaning, -⟩ := h.stands.instance
  have hlookup : (offered c home env).lookup i.module = some (.instance env) := by
    rw [offered, List.lookup_cons, hmodule, beq_self_eq_true]
  have hexport : x.module.export? i.name =
      some { name := c.memory.importName.name, kind := .memory, index := 0 } := by
    rw [hmeaning, hname]
    change List.find? _ (trampoline c min max).exported = _
    simp [Wasm.Trampoline.exported, trampoline]
  have hmemory : x.memory = some linear := by
    have hlinear := h.linear
    rwa [Wasm.Store.linearOf?, hx] at hlinear
  simp only [Wasm.resolve, hlookup, hx, hexport, hdesc, hmemory]

theorem resolve_signal (h : Supplies c min max home env linear s) (pageLimit : Nat)
    {index : UInt32} (hmodule : i.module = c.signal.module) (hname : i.name = c.signal.name)
    (hdesc : i.desc = .func index) : Wasm.resolve s (offered c home env) pageLimit m i =
      Wasm.bindFunc m i index (poster c home env) Wasm.signalType := by
  by_cases hmerged : merged c
  · obtain ⟨x, hx, hmeaning, hcallees⟩ := h.stands.instance
    have hfuncs := trampoline_funcs_merged hmerged min max
    have hlookup : (offered c home env).lookup i.module = some (.instance env) := by
      rw [offered, List.lookup_cons, hmodule, hmerged, beq_self_eq_true]
    have hexport : x.module.export? i.name =
        some { name := c.signal.name, kind := .func, index := 1 } := by
      rw [hmeaning, hname]
      change List.find? _ (trampoline c min max).exported = _
      rw [Wasm.Trampoline.exported, hfuncs]
      simp [trampoline, h.names hmerged]
    have hcallee : x.callees[1]? = some (.code env 1) := by
      rw [← Array.getElem?_toList, hcallees, Wasm.Trampoline.calleesOf, hfuncs, forwarded,
        if_pos hmerged]
      rfl
    have htype : x.module.funcType? 1 = some Wasm.signalType := by
      have hfirst : (trampoline c min max).funcs[0]? = some
          { importName := hostFunction, exportName := c.signal.name, type := Wasm.signalType } := by
        rw [hfuncs]
        rfl
      have hexported := Wasm.Trampoline.funcType?_export h.fits hfirst
      rwa [hfuncs, ← hmeaning] at hexported
    rw [poster, if_pos hmerged]
    simp only [Wasm.resolve, hlookup, hx, hexport, hdesc, hcallee, htype]
  · have hlookup : (offered c home env).lookup i.module = some (.host [hostFunc c home]) := by
      rw [offered, List.lookup_cons, hmodule, beq_false_of_ne hmerged, hostName, if_neg hmerged,
        List.lookup_cons, beq_self_eq_true]
    have hfind : [hostFunc c home].find? (·.name = i.name) = some (hostFunc c home) := by
      simp [hostFunc, hmerged, hname]
    rw [poster, if_neg hmerged]
    simp only [Wasm.resolve, hlookup, hfind, hdesc]
    rfl

end Supplies

end GuestThreads.World
