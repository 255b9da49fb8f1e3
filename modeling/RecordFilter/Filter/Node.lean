import RecordFilter.Filter.Operator
import RecordFilter.Filter.Path
import RecordFilter.Literal

/-! # Filter trees

    A filter before its fields are looked up: leaves with a field, an operator
    and a raw operand, joined by combinators.  Every node knows its place in
    the document that it was read from; the place of a leaf is that of its
    operand. -/

namespace RecordFilter.Filter

/-- The right-hand side of a leaf. -/
inductive Operand where
  | null
  | scalar (l : Literal)
  | set (ls : List Literal)
deriving DecidableEq, Repr

namespace Operand

/-- The literals of an operand, in order. -/
def literals : Operand → List Literal
  | .null => []
  | .scalar l => [l]
  | .set ls => ls

/-- The operand as it is shown. -/
def display : Operand → String
  | .null => "null"
  | .scalar l => l.display
  | .set ls => "[" ++ String.intercalate ", " (ls.map Literal.display) ++ "]"

/-- The name of the shape of an operand. -/
def shape : Operand → String
  | .null => "null"
  | .scalar _ => "scalar"
  | .set _ => "set"

end Operand

/-- A filter tree. -/
inductive Node where
  | combinator (k : Combinator) (children : List Node) (path : Path)
  | leaf (field : String) (op : Operator) (operand : Operand) (path : Path)
deriving Repr

namespace Node

/-- The place of a node. -/
def path : Node → Path
  | .combinator _ _ path => path
  | .leaf _ _ _ path => path

mutual

/-- How many combinators are nested in each other at most. -/
def depth : Node → Nat
  | .combinator _ children _ => 1 + greatestDepth children
  | .leaf _ _ _ _ => 0

/-- The greatest depth of nodes. -/
def greatestDepth : List Node → Nat
  | [] => 0
  | n :: rest => max n.depth (greatestDepth rest)

end

mutual

/-- The leaves of a tree, from left to right. -/
def leaves : Node → List Node
  | .combinator _ children _ => leavesOfAll children
  | n => [n]

/-- The leaves of trees, from left to right. -/
def leavesOfAll : List Node → List Node
  | [] => []
  | n :: rest => n.leaves ++ leavesOfAll rest

end

/-- How many leaves a tree has. -/
def leafCount (n : Node) : Nat := n.leaves.length

/-- The leaves of a combinator are counted child by child. -/
theorem leafCount_combinator (k : Combinator) (children : List Node) (path : Path) :
    leafCount (.combinator k children path) = (children.map leafCount).foldr (· + ·) 0 := by
  rw [leafCount, leaves]
  induction children with
  | nil => rfl
  | cons n rest ih =>
      rw [leavesOfAll, List.length_append, ih]
      rfl

mutual

/-- The nodes of a tree, each in front of its children. -/
def preorder : Node → List Node
  | n@(.combinator _ children _) => n :: preorderOfAll children
  | n => [n]

/-- The nodes of trees, each in front of its children. -/
def preorderOfAll : List Node → List Node
  | [] => []
  | n :: rest => n.preorder ++ preorderOfAll rest

end

/-- An induction over filter trees: a combinator may assume the statement of
    all its children. -/
@[elab_as_elim, induction_eliminator]
theorem induct {motive : Node → Prop}
    (combinator : ∀ k children path, (∀ n ∈ children, motive n) →
      motive (.combinator k children path))
    (leaf : ∀ field op operand path, motive (.leaf field op operand path)) :
    ∀ n, motive n
  | .combinator k children path =>
      combinator k children path fun n _ => induct combinator leaf n
  | .leaf field op operand path => leaf field op operand path

end Node

end RecordFilter.Filter
