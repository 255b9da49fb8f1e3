import RecordFilter.Text.Quoted
import RecordFilter.Value.Basic

/-! # Literals

    A literal is a scalar of a filter document before its field gives it a
    type.  A number is kept as the text it was written with, so nothing is
    lost before the type is known. -/

namespace RecordFilter

/-- A scalar without a type. -/
inductive Literal where
  | bool (b : Bool)
  | number (spelling : String)
  | text (s : String)
deriving DecidableEq, Repr

namespace Literal

/-- The text that a coercion reads. -/
def toText : Literal → String
  | .bool b => Value.boolText b
  | .number spelling => spelling
  | .text s => s

/-- The kind of JSON scalar that the literal was. -/
def kind : Literal → String
  | .bool _ => "bool"
  | .number _ => "number"
  | .text _ => "string"

/-- The literal as it is shown: texts are quoted. -/
def display (l : Literal) : String :=
  match l with
  | .text s => Text.quoted s
  | l => l.toText

end Literal

end RecordFilter
