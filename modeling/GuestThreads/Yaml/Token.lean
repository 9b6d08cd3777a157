import GuestThreads.Yaml.Scalar

/-!
# Tokens

The pieces that a document is cut into. Indentation becomes tokens that open and close blocks, and a
scalar, reference or collection that is followed by a colon has a key token in front of it.
-/

namespace GuestThreads.Yaml

inductive Token.Kind where
  | streamEnd
  | version (major minor : Nat)
  | tagDirective (handle full : String)
  | documentStart
  | documentEnd
  | blockSequenceStart
  | blockMappingStart
  | blockEnd
  | flowSequenceStart
  | flowSequenceEnd
  | flowMappingStart
  | flowMappingEnd
  | blockEntry
  | flowEntry
  | key
  | value
  | reference (name : String)
  | anchor (name : String)
  | tag (handle suffix : String)
  | scalar (text : String) (style : Style)
  /-- The text cannot be read beyond this place. -/
  | broken
deriving DecidableEq, Repr

structure Token where
  kind : Token.Kind
  line : Nat
deriving DecidableEq, Repr

end GuestThreads.Yaml
