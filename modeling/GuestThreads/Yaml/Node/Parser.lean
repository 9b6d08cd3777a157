import GuestThreads.Yaml.Node
import GuestThreads.Yaml.Token.Lexer
import GuestThreads.Yaml.Value

/-!
# Reading nodes from tokens

Only the first document of a text is read, and what follows it does not matter. The functions carry
a limit on the depth of their calls; a call that passes over no token is followed by at most two
more of its kind, so a limit of a few calls for every token is never met.
-/

namespace GuestThreads.Yaml

/-- The state of reading a document from its tokens. -/
structure Reader where
  tokens : List Token
  /-- The number of the node last anchored under a name. -/
  anchors : List (String × Nat) := []
  anchored : List (Nat × Node) := []
  handles : List (String × String) := []

abbrev Parse := StateT Reader Option

namespace Reader

/-- The next token, which stays where it is. -/
def peek : Parse Token := do
  match (← get).tokens with
  | t :: _ => if t.kind = .broken then failure else return t
  | [] => failure

def skip : Parse Unit := modify fun r => { r with tokens := r.tokens.tail }

/-- An empty scalar, which means no value. -/
def empty (line : Nat) : Node := .scalar line (resolvedTag "") ""

/-- The full form of a tag. -/
def fullTag (handle suffix : String) : Parse String := do
  if handle = "" then return suffix
  else
    match ((← get).handles ++ [("!", "!"), ("!!", "tag:yaml.org,2002:")]).lookup handle with
    | some full => return full ++ suffix
    | none => failure

/-- The anchor and tag in front of a node, in either order. -/
def properties : Parse (Option String × String) := do
  let t ← peek
  match t.kind with
  | .anchor name =>
    skip
    match (← peek).kind with
    | .tag handle suffix =>
      skip
      return (some name, ← fullTag handle suffix)
    | _ => return (some name, "")
  | .tag handle suffix =>
    skip
    match (← peek).kind with
    | .anchor name =>
      skip
      return (some name, ← fullTag handle suffix)
    | _ => return (none, ← fullTag handle suffix)
  | _ => return (none, "")

/-- The tag that a node carries: its own, or the default one. -/
def nodeTag (given default : String) : String :=
  if given = "" || given = "!" then default else shortTag given

def scalarTag (given text : String) (style : Style) : String :=
  nodeTag given <|
    if style ≠ .plain then "!!str" else if text = "<<" then "!!merge" else resolvedTag text

/-- Number an anchored node before its content is read. -/
def openAnchor (name : Option String) : Parse (Option Nat) := do
  match name with
  | none => return none
  | some name =>
    let r ← get
    let k := r.anchors.length
    set { r with anchors := (name, k) :: r.anchors }
    return some k

def closeAnchor (k : Option Nat) (n : Node) : Parse Node := do
  if let some k := k then modify fun r => { r with anchored := (k, n) :: r.anchored }
  return n

mutual

/-- A node. `block` tells whether block collections may start here, and `indentless` whether the
entries of a sequence may stand at the column of their key. -/
def node (block indentless : Bool) : (limit : Nat) → Parse Node
  | 0 => failure
  | limit + 1 => do
    let first ← peek
    if let .reference name := first.kind then
      let r ← get
      skip
      match r.anchors.lookup name with
      | some k => return .reference first.line name k r.tokens.length
      | none => failure
    else
      let (anchor, given) ← properties
      let t ← peek
      match t.kind with
      | .scalar text style =>
        let k ← openAnchor anchor
        skip
        closeAnchor k (.scalar first.line (scalarTag given text style) text)
      | .flowSequenceStart =>
        let k ← openAnchor anchor
        skip
        closeAnchor k (.sequence first.line (nodeTag given "!!seq") (← flowItems true limit))
      | .flowMappingStart =>
        let k ← openAnchor anchor
        skip
        closeAnchor k (.mapping first.line (nodeTag given "!!map") (← flowPairs true limit))
      | .blockSequenceStart =>
        if block then
          let k ← openAnchor anchor
          skip
          closeAnchor k (.sequence first.line (nodeTag given "!!seq") (← blockItems limit))
        else bare first.line anchor given
      | .blockMappingStart =>
        if block then
          let k ← openAnchor anchor
          skip
          closeAnchor k (.mapping first.line (nodeTag given "!!map") (← blockPairs limit))
        else bare first.line anchor given
      | .blockEntry =>
        if indentless then
          let k ← openAnchor anchor
          closeAnchor k (.sequence first.line (nodeTag given "!!seq") (← indentlessItems limit))
        else bare first.line anchor given
      | _ => bare first.line anchor given

/-- An anchor or tag without a node is an empty scalar. -/
def bare (line : Nat) (anchor : Option String) (given : String) : Parse Node := do
  if anchor.isNone && given = "" then failure
  else
    let k ← openAnchor anchor
    closeAnchor k (.scalar line (scalarTag given "" .plain) "")

/-- A node, unless one of the given tokens comes first. -/
def nodeUnless (stops : List Token.Kind) (block indentless : Bool) (line : Nat) :
    (limit : Nat) → Parse Node
  | 0 => failure
  | limit + 1 => do
    if stops.contains (← peek).kind then return empty line else node block indentless limit

/-- The entries of a block sequence up to its end. -/
def blockItems : (limit : Nat) → Parse (List Node)
  | 0 => failure
  | limit + 1 => do
    let t ← peek
    match t.kind with
    | .blockEntry =>
      skip
      let n ← nodeUnless [.blockEntry, .blockEnd] true false t.line limit
      return n :: (← blockItems limit)
    | .blockEnd =>
      skip
      return []
    | _ => failure

/-- The entries of a sequence at the column of its key. -/
def indentlessItems : (limit : Nat) → Parse (List Node)
  | 0 => failure
  | limit + 1 => do
    let t ← peek
    match t.kind with
    | .blockEntry =>
      skip
      let n ← nodeUnless [.blockEntry, .key, .value, .blockEnd] true false t.line limit
      return n :: (← indentlessItems limit)
    | _ => return []

/-- The pairs of a block mapping up to its end. -/
def blockPairs : (limit : Nat) → Parse (List (Node × Node))
  | 0 => failure
  | limit + 1 => do
    let t ← peek
    match t.kind with
    | .key =>
      skip
      let k ← nodeUnless [.key, .value, .blockEnd] true true t.line limit
      let u ← peek
      let v ← if u.kind = .value then do
          skip
          nodeUnless [.key, .value, .blockEnd] true true u.line limit
        else pure (empty u.line)
      return (k, v) :: (← blockPairs limit)
    | .blockEnd =>
      skip
      return []
    | _ => failure

/-- Pass over the comma between two entries. -/
def separator (first : Bool) : Parse Unit := do
  if !first then
    if (← peek).kind = .flowEntry then skip else failure

/-- The items of a flow sequence up to its bracket. A pair without braces is a mapping. -/
def flowItems (first : Bool) : (limit : Nat) → Parse (List Node)
  | 0 => failure
  | limit + 1 => do
    if (← peek).kind = .flowSequenceEnd then
      skip
      return []
    else
      separator first
      let t ← peek
      match t.kind with
      | .flowSequenceEnd =>
        skip
        return []
      | .key =>
        skip
        let u ← peek
        let k ← if [.value, .flowEntry, .flowSequenceEnd].contains u.kind then do
            skip
            pure (empty u.line)
          else node false false limit
        let u ← peek
        let v ← if u.kind = .value then do
            skip
            nodeUnless [.flowEntry, .flowSequenceEnd] false false u.line limit
          else pure (empty u.line)
        return .mapping t.line "!!map" [(k, v)] :: (← flowItems false limit)
      | _ =>
        let n ← node false false limit
        return n :: (← flowItems false limit)

/-- The pairs of a flow mapping up to its brace. A key may stand alone. -/
def flowPairs (first : Bool) : (limit : Nat) → Parse (List (Node × Node))
  | 0 => failure
  | limit + 1 => do
    if (← peek).kind = .flowMappingEnd then
      skip
      return []
    else
      separator first
      let t ← peek
      match t.kind with
      | .flowMappingEnd =>
        skip
        return []
      | .key =>
        skip
        let k ← nodeUnless [.value, .flowEntry, .flowMappingEnd] false false (← peek).line limit
        let u ← peek
        let v ← if u.kind = .value then do
            skip
            nodeUnless [.flowEntry, .flowMappingEnd] false false u.line limit
          else pure (empty u.line)
        return (k, v) :: (← flowPairs false limit)
      | _ =>
        let k ← node false false limit
        return (k, empty k.line) :: (← flowPairs false limit)

end

/-- The directives in front of a document. The version must be 1.1 and stand there once. -/
def directives : (limit : Nat) → (versioned : Bool) → Parse Unit
  | 0, _ => failure
  | limit + 1, versioned => do
    match (← peek).kind with
    | .version major minor =>
      if versioned || major ≠ 1 || minor ≠ 1 then failure
      else
        skip
        directives limit true
    | .tagDirective handle full =>
      if ((← get).handles.lookup handle).isSome then failure
      else
        skip
        modify fun r => { r with handles := (handle, full) :: r.handles }
        directives limit versioned
    | _ => return ()

/-- The first document, if there is one. -/
def document (limit : Nat) : Parse (Option Node) := do
  let t ← peek
  match t.kind with
  | .streamEnd => return none
  | .version _ _ => explicit
  | .tagDirective _ _ => explicit
  | .documentStart => explicit
  | _ =>
    let n ← node true false limit
    let _ ← peek
    return some n
where
  explicit : Parse (Option Node) := do
    directives limit false
    if (← peek).kind = .documentStart then
      skip
      let t ← peek
      match t.kind with
      | .version _ _ => return some (empty t.line)
      | .tagDirective _ _ => return some (empty t.line)
      | .documentStart => return some (empty t.line)
      | .documentEnd => return some (empty t.line)
      | .streamEnd => return some (empty t.line)
      | _ =>
        let n ← node true false limit
        let _ ← peek
        return some n
    else failure

end Reader

/-- The first document of a text. Fails if the text is malformed; a text may hold no document. -/
def parse (text : String) : Option (Option Document) := do
  let ts := tokens text
  let (root, r) ← Reader.document (4 * ts.length + 8) { tokens := ts }
  return root.map fun n => { root := n, anchored := r.anchored }

end GuestThreads.Yaml
