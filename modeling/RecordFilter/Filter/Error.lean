import RecordFilter.Catalog.Bundle
import RecordFilter.Coercion
import RecordFilter.Filter.Operator
import RecordFilter.Filter.Path
import RecordFilter.Json.Fault

/-! # Errors of filters

    A filter is refused for one problem at one place.  The kind, the wording
    and the cause of an error all follow from the problem: the structure of
    the document is wrong, a field is not known, an operand cannot be coerced,
    or an operator does not fit the type of its field. -/

namespace RecordFilter.Filter

/-- What is wrong with a filter. -/
inductive Problem where
  | textTooLong (most : Nat)
  | malformed (cause : Json.Error)
  | repeatedKey (key : String)
  | objectExpected
  | emptyNode
  | severalPredicates
  | tooDeep
  | noConditions (k : Combinator)
  | conditionsNotArray (k : Combinator)
  | missingOperator
  | severalOperators
  | unsupportedOperator (token : String)
  | setExpected (op : Operator)
  | emptySet (op : Operator)
  | setTooLong (op : Operator) (most : Nat)
  | notScalars (op : Operator)
  | scalarExpected (op : Operator)
  | unknownField (cause : ResolveError)
  | invalidValue (field : String) (cause : CoercionError)
  | notOrderable (op : Operator)
  | nullOrdering (op : Operator)
deriving DecidableEq, Repr

/-- The kinds of problems. -/
inductive Kind where
  | structural
  | unknownField
  | coercion
  | type
deriving DecidableEq, Repr

/-- The name of a kind. -/
def Kind.name : Kind → String
  | .structural => "structural"
  | .unknownField => "unknown_field"
  | .coercion => "coercion"
  | .type => "type"

/-- What lies behind a problem. -/
inductive Cause where
  | resolve (e : ResolveError)
  | coercion (e : CoercionError)
  | json (e : Json.Error)
deriving DecidableEq, Repr

namespace Cause

/-- The wording of a cause. -/
def message : Cause → String
  | .resolve e => e.message
  | .coercion e => e.message
  | .json e => e.message

/-- The wordings of a cause and of what lies behind it in turn. -/
def chain : Cause → List String
  | .resolve e => [e.message]
  | .coercion e => [e.message, e.reason.message]
  | .json e => [e.message]

end Cause

namespace Problem

/-- The kind of a problem. -/
def kind : Problem → Kind
  | .unknownField _ => .unknownField
  | .invalidValue _ _ => .coercion
  | .notOrderable _ | .nullOrdering _ => .type
  | _ => .structural

/-- What lies behind a problem, if anything does. -/
def cause? : Problem → Option Cause
  | .malformed e => some (.json e)
  | .unknownField e => some (.resolve e)
  | .invalidValue _ e => some (.coercion e)
  | _ => none

/-- A message about an operator. -/
def aboutOperator (op : Operator) (rest : String) : String :=
  "operator '" ++ op.token ++ "' " ++ rest

/-- The wording of a problem. -/
def message : Problem → String
  | .textTooLong most => "filter document exceeds " ++ integerText most ++ " bytes"
  | .malformed e => "malformed filter document: " ++ e.message
  | .repeatedKey key => "duplicate key '" ++ key ++ "'"
  | .objectExpected => "object expected"
  | .emptyNode => "empty predicate/logic node"
  | .severalPredicates => "only one predicate per object"
  | .tooDeep => "maximum nesting depth exceeded"
  | .noConditions k => k.keyword ++ " requires at least one condition"
  | .conditionsNotArray k => k.keyword ++ " expects an array of conditions"
  | .missingOperator => "missing operator/value"
  | .severalOperators => "only one operator per predicate"
  | .unsupportedOperator token => Operator.unsupported token
  | .setExpected op => aboutOperator op "expects an array"
  | .emptySet op => aboutOperator op "expects a non-empty array"
  | .setTooLong op most => aboutOperator op ("accepts at most " ++ integerText most ++ " values")
  | .notScalars op => aboutOperator op "expects scalar values"
  | .scalarExpected op => aboutOperator op "expects a scalar value"
  | .unknownField e => e.message
  | .invalidValue field e => "invalid value for field '" ++ field ++ "': " ++ e.message
  | .notOrderable op => aboutOperator op "supported only for numeric or temporal fields"
  | .nullOrdering op => aboutOperator op "does not accept null"

end Problem

/-- A problem at its place. -/
structure Error where
  problem : Problem
  path : Path
deriving DecidableEq, Repr

namespace Error

/-- The kind of an error. -/
def kind (e : Error) : Kind := e.problem.kind

/-- The wording of an error. -/
def message (e : Error) : String := e.problem.message

/-- What lies behind an error. -/
def cause? (e : Error) : Option Cause := e.problem.cause?

/-- The wordings of all that lies behind an error, the nearest first. -/
def chain (e : Error) : List String :=
  match e.cause? with
  | none => []
  | some c => c.chain

/-- An error with its kind, its place and its cause, on lines of their own. -/
def report (e : Error) : String :=
  "error[" ++ e.kind.name ++ "]: " ++ e.message ++ "\n  --> " ++ e.path.text ++ "\n"
    ++ (match e.cause? with
        | none => ""
        | some c => "   = cause: " ++ c.message ++ "\n")

end Error

/-- Refuses a filter. -/
def refuse {α : Type} (problem : Problem) (path : Path) : Except Error α :=
  .error ⟨problem, path⟩

end RecordFilter.Filter
