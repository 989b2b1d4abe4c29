import PackPlan.Yaml.Token

/-!
# PackPlan.Yaml.Node

Documents as trees. A node stands where its first property or its content starts. Anchors are told
apart by numbers: the number of a new anchor is the number of different names before it, so an
anchor whose name was used before may take the number of another, which it then replaces. An alias
stands for the node that has its number when the document has ended.
-/

namespace PackPlan
namespace Yaml

/-- A scalar: its resolved tag, how it is written, and its text. -/
structure Scalar where
  tag : Option (List Char)
  style : Style
  text : List Char
deriving DecidableEq, Repr

inductive Node where
  | scalar (mark : Mark) (value : Scalar)
  | sequence (mark : Mark) (items : List Node)
  | mapping (mark : Mark) (members : List (Node × Node))
  | alias (mark : Mark) (number : Nat)

def Node.mark : Node → Mark
  | .scalar m _ => m
  | .sequence m _ => m
  | .mapping m _ => m
  | .alias m _ => m

structure Anchors where
  /-- The number of each name. -/
  numbers : List (List Char × Nat)
  /-- Which node, counted by its start, has each number; the latest comes first. -/
  starts : List (Nat × Nat)
  /-- The nodes that are complete. -/
  nodes : List (Nat × Node)

namespace Anchors

def none : Anchors := ⟨[], [], []⟩

/-- Starts a node with an anchor and gives the count of the node. -/
def start (a : Anchors) (name : List Char) : Nat × Anchors :=
  let number := a.numbers.length
  let node := a.starts.length
  (node, { a with
    numbers := (name, number) :: a.numbers.filter fun p => p.1 != name
    starts := (number, node) :: a.starts })

def finish (a : Anchors) (node : Nat) (n : Node) : Anchors :=
  { a with nodes := (node, n) :: a.nodes }

/-- The number that a name has now. -/
def number? (a : Anchors) (name : List Char) : Option Nat := a.numbers.lookup name

def node? (a : Anchors) (number : Nat) : Option Node :=
  match a.starts.lookup number with
  | some node => a.nodes.lookup node
  | _ => Option.none

end Anchors

end Yaml
end PackPlan
