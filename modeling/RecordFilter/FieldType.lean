/-! # Field types

    The types that a field of an entity can be declared with.  Numeric and
    temporal types have an order, so that only their fields can be filtered by
    `gt`, `ge`, `lt` and `le`. -/

namespace RecordFilter

/-- The declared type of a field. -/
inductive FieldType where
  | int64
  | int32
  | decimal
  | float
  | text
  | bool
  | date
  | dateTime
deriving DecidableEq, Repr

namespace FieldType

/-- Every type, in the order of declaration. -/
def all : List FieldType :=
  [.int64, .int32, .decimal, .float, .text, .bool, .date, .dateTime]

/-- The name of a type in schemas and messages. -/
def name : FieldType → String
  | .int64 => "int64"
  | .int32 => "int32"
  | .decimal => "decimal"
  | .float => "float"
  | .text => "text"
  | .bool => "bool"
  | .date => "date"
  | .dateTime => "date_time"

/-- The type of a name. -/
def ofName? (s : String) : Option FieldType := all.find? fun t => t.name == s

/-- Values of the type are numbers. -/
def isNumeric : FieldType → Bool
  | .int64 | .int32 | .decimal | .float => true
  | _ => false

/-- Values of the type are points in time. -/
def isTemporal : FieldType → Bool
  | .date | .dateTime => true
  | _ => false

/-- Fields of the type can be filtered by their order. -/
def isOrderable (t : FieldType) : Bool := t.isNumeric || t.isTemporal

/-- The name of a type leads back to it. -/
theorem ofName?_name (t : FieldType) : ofName? t.name = some t := by
  cases t <;> rfl

end FieldType

end RecordFilter
