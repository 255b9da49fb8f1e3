import RecordFilter.Predicate.Basic

/-! # Shown conditions

    The form in which a predicate is shown to people.  Children are joined by
    the keyword of their node; a child that is a node of the other combinator
    stands in parentheses, one of the same combinator does not. -/

namespace RecordFilter.Predicate

/-- A set of values in parentheses. -/
def displaySet (values : List Value) : String :=
  "(" ++ String.intercalate ", " (values.map Value.display) ++ ")"

/-- A child of a node, in parentheses if it is a node of the other combinator. -/
def displayChild (k : Combinator) (child : Predicate) (shown : String) : String :=
  match child.combinator? with
  | some j => if j = k then shown else "(" ++ shown ++ ")"
  | none => shown

mutual

/-- The predicate as it is shown. -/
def display : Predicate → String
  | .comparison c field value => field ++ " " ++ c.sign ++ " " ++ value.display
  | .membership false field values => field ++ " IN " ++ displaySet values
  | .membership true field values => field ++ " NOT IN " ++ displaySet values
  | .absence false field => field ++ " IS NULL"
  | .absence true field => field ++ " IS NOT NULL"
  | .compound k children =>
      String.intercalate (" " ++ k.keyword ++ " ") (displayChildren k children)

/-- The children of a node as they are shown. -/
def displayChildren (k : Combinator) : List Predicate → List String
  | [] => []
  | p :: rest => displayChild k p p.display :: displayChildren k rest

end

end RecordFilter.Predicate
