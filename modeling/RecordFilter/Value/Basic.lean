import RecordFilter.Calendar.Format
import RecordFilter.FieldType
import RecordFilter.Number.DecimalText
import RecordFilter.Number.DoubleText

/-! # Values

    A value is a datum of one of the field types: what a record holds in a
    field, and what a predicate compares it with.  `Value.literalText` is the
    text that reads back to the value, and `Value.display` the one that a
    shown condition has.  `Value.same` is equality of two values of one type;
    numbers of a type are the same if they are equal as numbers. -/

namespace RecordFilter

/-- A datum of one of the field types. -/
inductive Value where
  | int32 (n : Int32)
  | int64 (n : Int64)
  | decimal (d : Decimal)
  | float (x : Double)
  | text (s : String)
  | bool (b : Bool)
  | date (d : Date)
  | dateTime (t : DateTime)
deriving DecidableEq, Repr

namespace Value

/-- The type that a value is of. -/
def fieldType : Value → FieldType
  | .int32 _ => .int32
  | .int64 _ => .int64
  | .decimal _ => .decimal
  | .float _ => .float
  | .text _ => .text
  | .bool _ => .bool
  | .date _ => .date
  | .dateTime _ => .dateTime

/-- The value is a number. -/
def isNumeric (v : Value) : Bool := v.fieldType.isNumeric

/-- The text of a text value. -/
def asText? : Value → Option String
  | .text s => some s
  | _ => none

/-- The integer of an integer value. -/
def asInt? : Value → Option Int
  | .int32 n => some n.toInt
  | .int64 n => some n.toInt
  | _ => none

/-- The truth value of a boolean value. -/
def asBool? : Value → Option Bool
  | .bool b => some b
  | _ => none

/-- The text of a boolean. -/
def boolText (b : Bool) : String := if b then "true" else "false"

/-- The text that reads back to the value, a fraction of a second apart. -/
def literalText : Value → String
  | .int32 n => integerText n.toInt
  | .int64 n => integerText n.toInt
  | .decimal d => d.text
  | .float x => x.text
  | .text s => s
  | .bool b => boolText b
  | .date d => d.text
  | .dateTime t => t.text

/-- A text between single quotes, every quote inside written twice. -/
def singleQuoted (s : String) : String :=
  String.ofList ('\'' :: (s.toList.flatMap fun c => if c = '\'' then ['\'', '\''] else [c])
    ++ ['\''])

/-- The value as a shown condition has it. -/
def display (v : Value) : String :=
  match v with
  | .text s => singleQuoted s
  | .date _ | .dateTime _ => "'" ++ v.literalText ++ "'"
  | _ => v.literalText

/-- The same value of the same type; numbers of one type are the same if they
    are equal as numbers. -/
def same : Value → Value → Bool
  | .int32 m, .int32 n => m == n
  | .int64 m, .int64 n => m == n
  | .decimal d, .decimal e => d.sameValue e
  | .float x, .float y => x.sameValue y
  | .text s, .text t => s == t
  | .bool p, .bool q => p == q
  | .date d, .date e => d == e
  | .dateTime t, .dateTime u => t == u
  | _, _ => false

end Value

end RecordFilter
