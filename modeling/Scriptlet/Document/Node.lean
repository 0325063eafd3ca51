import Scriptlet.Document.Scalar

/-!
# The contents of a document

A document is a tree of texts, sequences and mappings. A node may have an anchor, and an alias
stands for the node that had its anchor last. Since a node may hold an alias of itself, the tree
does not hold the nodes that aliases stand for, but their numbers in the list of anchored nodes.
-/

namespace Scriptlet.Document

/-- A node of a document. It knows its line, counted from one, and its tag. -/
inductive Node where
  | scalar (line : Nat) (tag : Text) (text : Text)
  | sequence (line : Nat) (tag : Text) (items : List Node)
  | mapping (line : Nat) (tag : Text) (pairs : List (Node × Node))
  /-- A name for an anchored node, given by its number. -/
  | reference (line : Nat) (name : Text) (target : Nat)

namespace Node

/-- The line on which a node starts. -/
def line : Node → Nat
  | .scalar line .. | .sequence line .. | .mapping line .. | .reference line .. => line

/-- The tag of a node; an alias has none. -/
def tag : Node → Text
  | .scalar _ tag _ | .sequence _ tag _ | .mapping _ tag _ => tag
  | .reference .. => []

/-- The text of a node: that of a scalar, or the name of an alias. -/
def text : Node → Text
  | .scalar _ _ text | .reference _ text _ => text
  | _ => []

/-- Whether two nodes are of one kind and have one text. -/
def looksLike (a b : Node) : Bool :=
  match a, b with
  | .scalar _ _ s, .scalar _ _ t => s = t
  | .reference _ s _, .reference _ t _ => s = t
  | .sequence .., .sequence .. => true
  | .mapping .., .mapping .. => true
  | _, _ => false

end Node

/-- A tree and the nodes that have anchors. -/
structure Content where
  root : Node
  anchored : Array Node

/-- The node that a node stands for. -/
def Content.resolve (c : Content) (node : Node) : Node :=
  match node with
  | .reference _ _ target => c.anchored[target]?.getD node
  | _ => node

end Scriptlet.Document
