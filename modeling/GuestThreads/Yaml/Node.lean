/-!
# Nodes

A document as a tree. A reference names its anchored node by number, because an anchored node may
contain references to itself.
-/

namespace GuestThreads.Yaml

inductive Node where
  | scalar (line : Nat) (tag : String) (text : String)
  | sequence (line : Nat) (tag : String) (items : List Node)
  | mapping (line : Nat) (tag : String) (pairs : List (Node × Node))
  /-- A node that stands elsewhere, by the name and number of its anchor. Every reference has a
  number of its own. -/
  | reference (line : Nat) (name : String) (anchor number : Nat)

/-- A document: its root, and the anchored nodes by number. -/
structure Document where
  root : Node
  anchored : List (Nat × Node) := []

namespace Node

def line : Node → Nat
  | .scalar line _ _ => line
  | .sequence line _ _ => line
  | .mapping line _ _ => line
  | .reference line _ _ _ => line

def tag : Node → String
  | .scalar _ tag _ => tag
  | .sequence _ tag _ => tag
  | .mapping _ tag _ => tag
  | .reference _ _ _ _ => ""

/-- The text of a scalar or the name of a reference. -/
def text : Node → String
  | .scalar _ _ text => text
  | .reference _ name _ _ => name
  | _ => ""

/-- Nodes of one sort, as far as keys are compared. -/
def sameSort : Node → Node → Bool
  | .scalar .., .scalar .. => true
  | .sequence .., .sequence .. => true
  | .mapping .., .mapping .. => true
  | .reference .., .reference .. => true
  | _, _ => false

end Node

end GuestThreads.Yaml
