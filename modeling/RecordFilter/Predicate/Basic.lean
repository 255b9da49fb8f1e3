import RecordFilter.Condition
import RecordFilter.Value.Basic

/-! # Predicates

    A predicate is a tree of conditions on the fields of a record.  Its leaves
    compare a field with a value, ask whether it is one of a set, or whether
    it is absent; its inner nodes join their children.

    `Predicate.join` adds a condition to a predicate: if the predicate already
    is a node of the same combinator, the condition becomes its last child.
    `Predicate.combine` joins a list of predicates from left to right in this
    way, so only the first of them is ever merged into the result. -/

namespace RecordFilter

/-- A condition on a record. -/
inductive Predicate where
  | comparison (c : Comparison) (field : String) (value : Value)
  | membership (negated : Bool) (field : String) (values : List Value)
  | absence (negated : Bool) (field : String)
  | compound (k : Combinator) (children : List Predicate)
deriving Repr

namespace Predicate

/-- The combinator of an inner node. -/
def combinator? : Predicate → Option Combinator
  | .compound k _ => some k
  | _ => none

/-- The field of a leaf. -/
def field? : Predicate → Option String
  | .comparison _ field _ => some field
  | .membership _ field _ => some field
  | .absence _ field => some field
  | .compound _ _ => none

/-- Adds a condition on the right. -/
def join (k : Combinator) (p q : Predicate) : Predicate :=
  match p with
  | .compound j children => if j = k then .compound k (children ++ [q]) else .compound k [p, q]
  | p => .compound k [p, q]

/-- Joins predicates from left to right; there has to be at least one. -/
def combine (k : Combinator) : List Predicate → Option Predicate
  | [] => none
  | p :: rest => some (rest.foldl (join k) p)

mutual

/-- The leaves of a predicate, from left to right. -/
def leaves : Predicate → List Predicate
  | .compound _ children => leavesOfAll children
  | leaf => [leaf]

/-- The leaves of predicates, from left to right. -/
def leavesOfAll : List Predicate → List Predicate
  | [] => []
  | p :: rest => p.leaves ++ leavesOfAll rest

end

theorem leavesOfAll_eq_flatMap (ps : List Predicate) : leavesOfAll ps = ps.flatMap leaves := by
  induction ps with
  | nil => rfl
  | cons p rest ih => rw [leavesOfAll, ih, List.flatMap_cons]

theorem mem_leavesOfAll {leaf : Predicate} {ps : List Predicate} :
    leaf ∈ leavesOfAll ps ↔ ∃ p ∈ ps, leaf ∈ p.leaves := by
  rw [leavesOfAll_eq_flatMap, List.mem_flatMap]

/-- How many leaves a predicate has. -/
def leafCount (p : Predicate) : Nat := p.leaves.length

/-- The leaves of a node are counted child by child. -/
theorem leafCount_compound (k : Combinator) (children : List Predicate) :
    leafCount (.compound k children) = (children.map leafCount).foldr (· + ·) 0 := by
  rw [leafCount, leaves]
  induction children with
  | nil => rfl
  | cons p rest ih =>
      rw [leavesOfAll, List.length_append, ih]
      rfl

/-- Puts a name into a list of names in increasing order, unless it is there. -/
def insertName (name : String) : List String → List String
  | [] => [name]
  | other :: rest =>
      if name = other then other :: rest
      else if name < other then name :: other :: rest
      else other :: insertName name rest

/-- The names of the fields that a predicate refers to, each once and in
    increasing order of code points. -/
def referencedFields (p : Predicate) : List String :=
  (p.leaves.filterMap field?).foldr insertName []

/-- The same values in the same places. -/
def sameValues : List Value → List Value → Bool
  | [], [] => true
  | v :: vs, w :: ws => v.same w && sameValues vs ws
  | _, _ => false

mutual

/-- The same tree with the same values. -/
def same : Predicate → Predicate → Bool
  | .comparison c f v, .comparison d g w => c == d && f == g && v.same w
  | .membership m f vs, .membership n g ws => m == n && f == g && sameValues vs ws
  | .absence m f, .absence n g => m == n && f == g
  | .compound j ps, .compound k qs => j == k && sameAll ps qs
  | _, _ => false

/-- The same trees in the same places. -/
def sameAll : List Predicate → List Predicate → Bool
  | [], [] => true
  | p :: ps, q :: qs => p.same q && sameAll ps qs
  | _, _ => false

end

/-- An induction over predicates: a node may assume the statement of all its
    children. -/
@[elab_as_elim, induction_eliminator]
theorem induct {motive : Predicate → Prop}
    (comparison : ∀ c field value, motive (.comparison c field value))
    (membership : ∀ negated field values, motive (.membership negated field values))
    (absence : ∀ negated field, motive (.absence negated field))
    (compound : ∀ k children, (∀ p ∈ children, motive p) → motive (.compound k children)) :
    ∀ p, motive p
  | .comparison c field value => comparison c field value
  | .membership negated field values => membership negated field values
  | .absence negated field => absence negated field
  | .compound k children =>
      compound k children fun p _ => induct comparison membership absence compound p

end Predicate

end RecordFilter
