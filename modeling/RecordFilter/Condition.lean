/-! # Comparisons and combinators

    The words that conditions are made of: six comparisons of a field with a
    value, and the two combinators that join conditions. -/

namespace RecordFilter

/-- How a field is compared with a value. -/
inductive Comparison where
  | eq
  | ne
  | lt
  | le
  | gt
  | ge
deriving DecidableEq, Repr

namespace Comparison

/-- The comparison asks for the order of values, not only for equality. -/
def isOrdering : Comparison → Bool
  | .eq | .ne => false
  | .lt | .le | .gt | .ge => true

/-- Whether the comparison holds between a value and another, given their
    order.  Values that do not compare are unequal, and neither is before or
    after the other. -/
def holds (c : Comparison) (order : Option Ordering) : Bool :=
  match c with
  | .eq => order == some .eq
  | .ne => !(order == some .eq)
  | .lt => order == some .lt
  | .le => order == some .lt || order == some .eq
  | .gt => order == some .gt
  | .ge => order == some .gt || order == some .eq

/-- The sign of a comparison in a shown condition. -/
def sign : Comparison → String
  | .eq => "="
  | .ne => "<>"
  | .lt => "<"
  | .le => "<="
  | .gt => ">"
  | .ge => ">="

end Comparison

/-- How conditions are joined. -/
inductive Combinator where
  | and
  | or
deriving DecidableEq, Repr

namespace Combinator

/-- The keyword of a combinator, in documents and in shown conditions. -/
def keyword : Combinator → String
  | .and => "AND"
  | .or => "OR"

/-- The combinator of a keyword; keywords are in capitals. -/
def ofKeyword? (s : String) : Option Combinator :=
  if s = "AND" then some .and else if s = "OR" then some .or else none

/-- Joins truth values: all of them, or at least one. -/
def fold (k : Combinator) (bs : List Bool) : Bool :=
  match k with
  | .and => bs.all id
  | .or => bs.any id

/-- The keyword of a combinator leads back to it. -/
theorem ofKeyword?_keyword (k : Combinator) : ofKeyword? k.keyword = some k := by
  cases k <;> rfl

end Combinator

end RecordFilter
