import GuestThreads.Config
import GuestThreads.Files
import GuestThreads.Yaml.Node.Parser

/-!
# Configuration documents

A configuration is read from a document over the defaults. Keys that name no setting are passed
over, and a value that is null leaves its setting as it is. All fields of the wrong type are
reported together, in the order in which they are met. A document that is malformed, or that holds
a value its own tag forbids, is refused as a whole.
-/

namespace GuestThreads.Config

open Yaml (Node Value)

/-- What is known while a document is read. -/
structure Context where
  anchored : List (Nat × Node)
  /-- The references that are being followed. -/
  visiting : List Nat := []
  /-- A bound on how deep merged mappings nest. -/
  depth : Nat

/-- Reading collects field errors, and fails if the document must be refused. -/
abbrev Reading := StateT (List FieldError) Option

def Reading.report (e : FieldError) : Reading Unit := modify (· ++ [e])

/-- A value read over the given one, and whether there was one. -/
abbrev Decoder (α : Type) := Context → Node → α → Reading (α × Bool)

/-- The node that a reference stands for. A reference must not lead back to itself. -/
def Context.follow (c : Context) (n : Node) : Option (Context × Node) :=
  match n with
  | .reference _ _ anchor number => do
    if c.visiting.contains number then none
    return ({ c with visiting := number :: c.visiting }, ← c.anchored.lookup anchor)
  | _ => some (c, n)

def unsuited (n : Node) (wanted : String) : FieldError :=
  .unsuited (n.line + 1) n.tag n.text wanted

/-- The keys of a mapping that occur twice. -/
def duplicates : List (Node × Node) → List FieldError
  | [] => []
  | (k, _) :: rest =>
    (rest.filter fun (l, _) => k.sameSort l && k.text = l.text).map
      (fun (l, _) => .duplicateKey (l.line + 1) l.text (k.line + 1)) ++ duplicates rest

/-- A decoder of scalars. -/
def scalar {α : Type} (type : String) (convert : String → Value → Option α) : Decoder α :=
  fun c n old => do
    let (_, n) ← c.follow n
    match n with
    | .scalar _ tag text =>
      match ← Value.ofScalar? tag text with
      | .null => return (old, false)
      | v =>
        match convert (if tag = "!!binary" then "" else text) v with
        | some new => return (new, true)
        | none =>
          Reading.report (unsuited n type)
          return (old, false)
    | .mapping _ _ pairs =>
      let repeated := duplicates pairs
      if repeated.isEmpty then Reading.report (unsuited n type)
      else repeated.forM Reading.report
      return (old, false)
    | _ =>
      Reading.report (unsuited n type)
      return (old, false)

/-- Any scalar is a text. -/
def text : Decoder String :=
  scalar "string" fun shown v =>
    match v with
    | .text s => some s
    | _ => some shown

/-- An integer, or a fraction that is cut off toward zero. -/
def word : Decoder UInt32 :=
  scalar "uint32" fun _ v =>
    let whole := match v with
      | .int n => some n
      | .real w => w
      | _ => none
    whole.bind fun n => if 0 ≤ n ∧ n ≤ Text.maxWord32 then some n.toNat.toUInt32 else none

/-- A truth value, also by the words for yes and no. -/
def flag : Decoder Bool :=
  scalar "bool" fun _ v =>
    match v with
    | .bool b => some b
    | .text s =>
      if ["y", "Y", "yes", "Yes", "YES", "on", "On", "ON"].contains s then some true
      else if ["n", "N", "no", "No", "NO", "off", "Off", "OFF"].contains s then some false
      else none
    | _ => none

/-- A decoder for a part of a larger value. -/
def Decoder.focus {α β : Type} (d : Decoder β) (get : α → β) (set : α → β → α) : Decoder α :=
  fun c n old => do
    let (new, found) ← d c n (get old)
    return (set old new, found)

def isMergeKey : Node → Bool
  | .scalar _ tag text => text = "<<" && tag = "!!merge"
  | _ => false

/-- The keys of a mapping that are texts. -/
def textKeys (c : Context) (pairs : List (Node × Node)) : Option (List String) := do
  let found ← pairs.mapM fun (k, _) => do
    match (← c.follow k).2 with
    | .scalar _ tag text =>
      match ← Value.ofScalar? tag text with
      | .text s => return [s]
      | _ => return []
    | _ => return []
  return found.flatten

/-- The mappings that a merge key names: a mapping, or a sequence of mappings. -/
def mergeSources (c : Context) (n : Node) : Option (List Node) := do
  let isMapping (n : Node) : Option Unit :=
    match n with
    | .mapping .. => some ()
    | .reference _ _ anchor _ =>
      match c.anchored.lookup anchor with
      | some (.mapping ..) => some ()
      | _ => none
    | _ => none
  match n with
  | .sequence _ _ items =>
    let _ ← items.mapM isMapping
    return items
  | _ =>
    isMapping n
    return [n]

/-- The state of reading a mapping: the value so far, the fields set by this mapping, and, inside a
merged mapping, the keys that are taken. -/
structure Progress (α : Type) where
  value : α
  done : List String := []
  taken : Option (List String)

/-- Read one pair of a mapping. -/
def pair {α : Type} (type : String) (fields : List (String × Decoder α)) (c : Context)
    (p : Progress α) (k v : Node) : Reading (Progress α) := do
  let (name, found) ← text c k ""
  if !found || (p.taken.any (·.contains name)) then return p
  else
    let p := { p with taken := p.taken.map (name :: ·) }
    match fields.lookup name with
    | none => return p
    | some d =>
      if p.done.contains name then
        Reading.report (.alreadySet (k.line + 1) name type)
        return p
      else
        let (new, _) ← d c v p.value
        return { p with value := new, done := name :: p.done }

/-- A decoder of mappings, field by field. Merged mappings come last and set only what is not yet
named. -/
def mapping {α : Type} (type : String) (fields : List (String × Decoder α)) :
    (limit : Nat) → (taken : Option (List String)) → Context → Node → α →
      Reading (α × Option (List String) × Bool)
  | 0, _, _, _, _ => failure
  | limit + 1, taken, c, n, old => do
    let (c, n) ← c.follow n
    match n with
    | .mapping _ _ pairs =>
      let repeated := duplicates pairs
      if !repeated.isEmpty then
        repeated.forM Reading.report
        return (old, taken, false)
      else
        let (merges, own) := pairs.partition fun (k, _) => isMergeKey k
        let start : Progress α := { value := old, taken := taken }
        let p ← own.foldlM (fun p (k, v) => pair type fields c p k v) start
        match merges.getLast? with
        | none => return (p.value, p.taken, true)
        | some (_, source) =>
          let names ← p.taken.getDM (textKeys c pairs)
          let (value, names) ← (← mergeSources c source).foldlM
            (fun (value, names) m => do
              let (value, names', _) ← mapping type fields limit (some names) c m value
              return (value, names'.getD names))
            (p.value, names)
          return (value, p.taken.map fun _ => names, true)
    | .scalar _ tag text =>
      match ← Value.ofScalar? tag text with
      | .null => return (old, taken, false)
      | _ =>
        Reading.report (unsuited n type)
        return (old, taken, false)
    | _ =>
      Reading.report (unsuited n type)
      return (old, taken, false)

def record {α : Type} (type : String) (fields : List (String × Decoder α)) : Decoder α :=
  fun c n old => do
    let (new, _, found) ← mapping type fields c.depth none c n old
    return (new, found)

def engineSection : Decoder Engine := record "config.Engine" [
  ("memory_limit_pages",
    word.focus (·.memoryLimitPages) fun e v => { e with memoryLimitPages := v }),
  ("close_on_context_done",
    flag.focus (·.closeOnContextDone) fun e v => { e with closeOnContextDone := v })]

def importSection : Decoder ImportName := record "config.Import" [
  ("module", text.focus (·.module) fun i v => { i with module := v }),
  ("name", text.focus (·.name) fun i v => { i with name := v })]

def memorySection : Decoder Memory := record "config.Memory" [
  ("import", importSection.focus (·.importName) fun m v => { m with importName := v }),
  ("min_pages", word.focus (·.minPages) fun m v => { m with minPages := v }),
  ("max_pages", word.focus (·.maxPages) fun m v => { m with maxPages := v })]

def exportsSection : Decoder Exports := record "config.Exports" [
  ("stack_pointer", text.focus (·.stackPointer) fun e v => { e with stackPointer := v }),
  ("init_tls", text.focus (·.initTls) fun e v => { e with initTls := v }),
  ("entrypoint", text.focus (·.entrypoint) fun e v => { e with entrypoint := v })]

def regionsSection : Decoder Regions := record "config.Layout" [
  ("base", word.focus (·.base) fun r v => { r with base := v }),
  ("stack_size", word.focus (·.stackSize) fun r v => { r with stackSize := v }),
  ("tls_size", word.focus (·.tlsSize) fun r v => { r with tlsSize := v })]

def logSection : Decoder Log := record "config.Log" [
  ("level", text.focus (·.level) fun l v => { l with level := v }),
  ("development", flag.focus (·.development) fun l v => { l with development := v })]

def tracerSection : Decoder Tracer := record "config.Tracer" [
  ("enabled", flag.focus (·.enabled) fun t v => { t with enabled := v }),
  ("exporter", text.focus (·.exporter) fun t v => { t with exporter := v })]

def decoder : Decoder Config := record "config.Config" [
  ("engine", engineSection.focus (·.engine) fun c v => { c with engine := v }),
  ("memory", memorySection.focus (·.memory) fun c v => { c with memory := v }),
  ("signal", importSection.focus (·.signal) fun c v => { c with signal := v }),
  ("exports", exportsSection.focus (·.exports) fun c v => { c with exports := v }),
  ("layout", regionsSection.focus (·.regions) fun c v => { c with regions := v }),
  ("log", logSection.focus (·.log) fun c v => { c with log := v }),
  ("tracer", tracerSection.focus (·.tracer) fun c v => { c with tracer := v })]

/-- The settings of a document over the given ones. -/
def decode (text : String) (c : Config) : Except Cause Config :=
  match Yaml.parse text with
  | none => .error .malformedDocument
  | some none => .ok c
  | some (some doc) =>
    let context : Context := {
      anchored := doc.anchored, depth := (text.length + 1) * (doc.anchored.length + 1) + 1 }
    match (decoder context doc.root c).run [] with
    | none => .error .malformedDocument
    | some ((c, _), []) => .ok c
    | some (_, errors) => .error (.unsuitedDocument errors)

def unreadable (e : Cause) : Fault :=
  .wrap .config .invalidData (some (.external e)) "parse config"

/-- Read a document over the defaults and check the result. -/
def parse (text : String) : Except Fault Config :=
  match decode text {} with
  | .error e => .error (unreadable e)
  | .ok c => do
    c.validate
    return c

/-- Read the document in a file. -/
def load (read : FileReader) (path : String) : Except Fault Config :=
  match read path with
  | .error e => .error (.wrap .config .notFound (some (.external e)) "read config file")
  | .ok bytes =>
    match bytes.toString? with
    | some text => parse text
    | none => .error (unreadable .malformedDocument)

end GuestThreads.Config
