import DocPromotion.Yaml.Meaning

/-!
YAML documents as trees.

A scalar comes with what it denotes, so that a quoted text and the same text without quotes are
the same node if they mean the same.  Every node has the line it starts on, for messages.

An alias stays a node of its own: what it stands for is found in the document, and may hold the
alias itself.
-/

namespace DocPromotion.Yaml

/-- A node of a document.  Collections may have a tag; the tag of a scalar is part of what it
denotes.  An alias has the name it is written with, a number that no other alias of the document
has, and the number of the anchor that it refers to. -/
inductive Node where
  | scalar (line : Nat) (meaning : Meaning) (value : Text)
  | sequence (line : Nat) (tag? : Option Text) (items : List Node)
  | mapping (line : Nat) (tag? : Option Text) (entries : List (Node × Node))
  | alias (line : Nat) (name : Text) (number anchor : Nat)
deriving Repr

namespace Node

/-- The line a node starts on. -/
def line : Node → Nat
  | .scalar line _ _ => line
  | .sequence line _ _ => line
  | .mapping line _ _ => line
  | .alias line _ _ _ => line

/-- A node that denotes a text. -/
def text (t : Text) : Node := .scalar 0 .text t

/-- A node that denotes a truth value. -/
def bool (b : Bool) : Node := .scalar 0 (.bool b) (if b then "true" else "false")

/-- A node that holds other nodes in order. -/
def list (items : List Node) : Node := .sequence 0 none items

/-- A node that holds other nodes by their keys. -/
def map (entries : List (Node × Node)) : Node := .mapping 0 none entries

/-- A list of texts. -/
def texts (ts : List Text) : Node := list (ts.map text)

/-- The tag of a node; an alias has none. -/
def tag : Node → Text
  | .scalar _ d _ => d.tag
  | .sequence _ tag? _ => tag?.getD "!!seq"
  | .mapping _ tag? _ => tag?.getD "!!map"
  | .alias .. => []

/-- The text of a node itself: collections have none. -/
def value : Node → Text
  | .scalar _ _ value => value
  | .sequence .. => []
  | .mapping .. => []
  | .alias _ name _ _ => name

/-- Whether a node says that another mapping is to be merged into its own. -/
def isMerge : Node → Bool
  | .scalar _ (.tagged tag) value => tag == mergeTag && value == "<<"
  | _ => false

mutual

/-- The number of nodes in a node, itself included. -/
def size : Node → Nat
  | .scalar .. => 1
  | .alias .. => 1
  | .sequence _ _ items => itemsSize items + 1
  | .mapping _ _ entries => entriesSize entries + 1

/-- The number of nodes in items. -/
def itemsSize : List Node → Nat
  | [] => 0
  | n :: ns => n.size + itemsSize ns

/-- The number of nodes in entries. -/
def entriesSize : List (Node × Node) → Nat
  | [] => 0
  | (k, v) :: entries => k.size + v.size + entriesSize entries

end

/-- Whether a node is a mapping. -/
def isMapping : Node → Bool
  | .mapping .. => true
  | _ => false

end Node

/-- A document: its root, and the nodes that have an anchor, by their numbers. -/
structure Document where
  root : Node
  anchored : Array Node
deriving Repr

namespace Document

/-- A document without anchors. -/
def ofNode (root : Node) : Document := ⟨root, #[]⟩

/-- The node that stands where a node is found: an alias leads to the node with its anchor. -/
def resolve (d : Document) : Node → Node
  | .alias line name number anchor =>
    (d.anchored[anchor]?).getD (.alias line name number anchor)
  | n => n

/-- The tag of a node; an alias has that of the node it leads to. -/
def tag (d : Document) (n : Node) : Text := (d.resolve n).tag

end Document

end DocPromotion.Yaml
