import RecordFilter.Condition

/-! # Operators

    The operators of a filter document: the six comparisons, and the question
    whether a field is in a set or outside of it.  An operator has one
    canonical token; two of them have a second one. -/

namespace RecordFilter.Filter

/-- An operator of a leaf. -/
inductive Operator where
  | compare (c : Comparison)
  | member (negated : Bool)
deriving DecidableEq, Repr

namespace Operator

/-- Every operator, in the order of declaration. -/
def all : List Operator :=
  [.compare .eq, .compare .ne, .compare .gt, .compare .ge, .compare .lt, .compare .le,
    .member false, .member true]

/-- The canonical token. -/
def token : Operator → String
  | .compare .eq => "eq"
  | .compare .ne => "!eq"
  | .compare .gt => "gt"
  | .compare .ge => "ge"
  | .compare .lt => "lt"
  | .compare .le => "le"
  | .member false => "in"
  | .member true => "!in"

/-- The operator of a token. -/
def ofToken? (s : String) : Option Operator :=
  if s = "neq" then some (.compare .ne)
  else if s = "nin" then some (.member true)
  else all.find? fun op => op.token == s

/-- The message for a token that no operator has. -/
def unsupported (token : String) : String := "unsupported operator '" ++ token ++ "'"

/-- The operator asks for the order of values. -/
def isOrdering : Operator → Bool
  | .compare c => c.isOrdering
  | .member _ => false

/-- The operator takes a set of values. -/
def isSet : Operator → Bool
  | .compare _ => false
  | .member _ => true

/-- The name of an operator in JSON. -/
def name : Operator → String
  | .compare .eq => "Eq"
  | .compare .ne => "Ne"
  | .compare .gt => "Gt"
  | .compare .ge => "Ge"
  | .compare .lt => "Lt"
  | .compare .le => "Le"
  | .member false => "In"
  | .member true => "NotIn"

/-- The canonical token of an operator leads back to it. -/
theorem ofToken?_token (op : Operator) : ofToken? op.token = some op := by
  cases op with
  | compare c => cases c <;> rfl
  | member negated => cases negated <;> rfl

end Operator

end RecordFilter.Filter
