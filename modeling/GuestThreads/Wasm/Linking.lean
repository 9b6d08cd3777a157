import GuestThreads.Signal
import GuestThreads.Text.Quoted
import GuestThreads.Wasm.Machine
import GuestThreads.Wasm.Validity

/-!
# Linking

The imports of a module are looked up by module name among the named modules of an engine. A named
module is either an instance or a module of the host, which exports functions and nothing else.
-/

namespace GuestThreads.Wasm

/-- What a module name stands for. -/
inductive Provider where
  /-- Functions of the host, under the names they are exported with. -/
  | host (functions : List HostFunc)
  | instance (inst : Nat)
deriving DecidableEq

/-- The type of the function that posts a signal: its two halves. -/
def signalType : FuncType := { params := [.i32, .i32] }

/-- The signal that is posted with the given arguments. -/
def signalOf? : List UInt64 → Option Signal
  | [hi, lo] => some { hi := hi.toUInt32, lo := lo.toUInt32 }
  | _ => none

/-- A host whose functions post signals, which are kept in order. -/
def signalHost : Host (List Signal) := fun _ args (posted, s) =>
  match signalOf? args with
  | some signal => (.ok [], posted ++ [signal], s)
  | none => (.error .unreachable, posted, s)

/-- A type in the words of a refusal. -/
def FuncType.key (t : FuncType) : String :=
  let side (ts : List ValType) : String :=
    if ts.isEmpty then "v" else String.join (ts.map ValType.name)
  side t.params ++ "_" ++ side t.results

/-- What an import is resolved to. -/
inductive Binding where
  | func (callee : Callee)
  | memory (m : Nat)
deriving DecidableEq

/-- The kind of thing an import asks for. -/
def Import.Desc.exportKind? : Import.Desc → Option ExportKind
  | .func _ => some .func
  | .table _ _ => some .table
  | .memory _ => some .memory
  | .global _ _ => some .global
  | .tag _ _ => none

def notExported (i : Import) : String :=
  Text.quoted i.name ++ " is not exported in module " ++ Text.quoted i.module

def wrongKind (i : Import) (found : ExportKind) : String :=
  "export " ++ Text.quoted i.name ++ " in module " ++ Text.quoted i.module ++ " is a " ++
    found.name ++ ", not a " ++ ((i.desc.exportKind?).map ExportKind.name).getD "tag"

/-- Bind a function import to a callee of type `found`. -/
def bindFunc (m : Module) (i : Import) (index : UInt32) (callee : Callee) (found : FuncType) :
    Except String Binding :=
  let wanted := (m.types[index.toNat]?).getD {}
  if wanted = found then .ok (.func callee)
  else .error s!"import func[{i.module}.{i.name}]: signature mismatch: {wanted.key} != {found.key}"

/-- Bind a memory import; the memory must be as large, and stay as small, as the import says. -/
def bindMemory (s : Store) (pageLimit : Nat) (i : Import) (l : Limits) (memory : Nat) :
    Except String Binding :=
  match s.memories[memory]? with
  | none => .error (notExported i)
  | some found =>
    if found.pages < l.min.toNat then
      .error (s!"import memory[{i.module}.{i.name}]: minimum size mismatch: " ++
        s!"{l.min.toNat} > {found.pages}")
    else if l.ceiling pageLimit < found.ceiling then
      .error (s!"import memory[{i.module}.{i.name}]: maximum size mismatch: " ++
        s!"{l.ceiling pageLimit} < {found.ceiling}")
    else .ok (.memory memory)

/-- Resolve one import of module `m`. -/
def resolve (s : Store) (modules : List (String × Provider)) (pageLimit : Nat) (m : Module)
    (i : Import) : Except String Binding :=
  match modules.lookup i.module with
  | none => .error s!"module[{i.module}] not instantiated"
  | some (.host functions) =>
    match functions.find? (·.name = i.name) with
    | none => .error (notExported i)
    | some function =>
      match i.desc with
      | .func index => bindFunc m i index (.host function) function.type
      | _ => .error (wrongKind i .func)
  | some (.instance inst) =>
    match s.instances[inst]? with
    | none => .error s!"module[{i.module}] not instantiated"
    | some provider =>
      match provider.module.export? i.name with
      | none => .error (notExported i)
      | some e =>
        match i.desc, e.kind with
        | .func index, .func =>
          match provider.callees[e.index]?, provider.module.funcType? e.index with
          | some callee, some found => bindFunc m i index callee found
          | _, _ => .error (notExported i)
        | .memory l, .memory =>
          match provider.memory with
          | some memory => bindMemory s pageLimit i l memory
          | none => .error (notExported i)
        | _, found => .error (wrongKind i found)

namespace Store

/-- Add an instance of a module. Its own functions follow the imported ones, and a memory that it
defines is added to the store. -/
def instantiate (s : Store) (modules : List (String × Provider)) (pageLimit : Nat) (m : Module) :
    Except String (Nat × Store) := do
  let bindings ← m.imports.mapM (resolve s modules pageLimit m)
  let inst := s.instances.size
  let imported := bindings.filterMap fun
    | .func callee => some callee
    | .memory _ => none
  let own := (List.range m.funcs.length).map fun k => Callee.code inst (imported.length + k)
  let shared := bindings.findSome? fun
    | .memory k => some k
    | .func _ => none
  let defined := m.memories.map fun l =>
    ({ pages := l.min.toNat, ceiling := l.ceiling pageLimit } : Memory)
  let memory := shared.or (if defined.isEmpty then none else some s.memories.size)
  return (inst, { s with
    memories := s.memories ++ defined.toArray
    instances := s.instances.push {
      module := m
      callees := (imported ++ own).toArray
      globals := (m.globals.map (·.init.word)).toArray
      memory := memory
      rest := m.rest } })

/-- Let the machine set up a new instance. Where it refuses, what it did stays. -/
def fill [Machine] (s : Store) (inst : Nat) : Option String × Store :=
  let (v, refusal) := Machine.fill (s.moduleOf inst) (s.scope inst)
  (refusal, s.leave inst v)

end Store

end GuestThreads.Wasm
