import RecordFilter.Literal

/-! # Coercion

    The declared type of a field decides how the text of a literal is read;
    the kind of JSON scalar that it was does not matter.  A coercion that
    fails names the text, the type and the reason. -/

namespace RecordFilter

/-- Why a text is not a value of a type. -/
inductive CoercionReason where
  | integer (fault : IntegerFault)
  | float (fault : DoubleFault)
  | notFinite
  | decimal (fault : DecimalFault)
  | boolean
  | temporal (fault : Calendar.Fault)
deriving DecidableEq, Repr

namespace CoercionReason

/-- The name of the kind of reason. -/
def name : CoercionReason → String
  | .integer _ => "integer"
  | .float _ => "float"
  | .notFinite => "not_finite"
  | .decimal _ => "decimal"
  | .boolean => "boolean"
  | .temporal _ => "temporal"

/-- The wording of the reason. -/
def message : CoercionReason → String
  | .integer fault => fault.message
  | .float fault => fault.message
  | .notFinite => "value is not finite"
  | .decimal fault => fault.message
  | .boolean => "expected 'true' or 'false'"
  | .temporal fault => fault.message

end CoercionReason

/-- A text that cannot be read as a value of a type. -/
structure CoercionError where
  text : String
  target : FieldType
  reason : CoercionReason
deriving DecidableEq, Repr

/-- The wording of a coercion error. -/
def CoercionError.message (e : CoercionError) : String :=
  "cannot coerce '" ++ e.text ++ "' to " ++ e.target.name

namespace FieldType

/-- Reads a text as a value of the type, or says why not. -/
def readValue (target : FieldType) (text : String) : Except CoercionReason Value :=
  match target with
  | .int32 => ((readInt32 text).map Value.int32).mapError .integer
  | .int64 => ((readInt64 text).map Value.int64).mapError .integer
  | .decimal => ((Decimal.read text).map Value.decimal).mapError .decimal
  | .float =>
      match Double.read text with
      | .error fault => .error (.float fault)
      | .ok x => if x.isFinite then .ok (.float x) else .error .notFinite
  | .text => .ok (.text text)
  | .bool =>
      if text = "true" then .ok (.bool true)
      else if text = "false" then .ok (.bool false)
      else .error .boolean
  | .date => ((Date.read text).map Value.date).mapError .temporal
  | .dateTime => ((DateTime.read text).map Value.dateTime).mapError .temporal

/-- Coerces a text to the type. -/
def coerceText (target : FieldType) (text : String) : Except CoercionError Value :=
  (target.readValue text).mapError fun reason => ⟨text, target, reason⟩

/-- Coerces a literal to the type. -/
def coerce (target : FieldType) (l : Literal) : Except CoercionError Value :=
  target.coerceText l.toText

/-- Coerces literals to the type, up to the first one that fails. -/
def coerceAll (target : FieldType) : List Literal → Except CoercionError (List Value)
  | [] => .ok []
  | l :: rest =>
      match target.coerce l with
      | .error e => .error e
      | .ok v =>
          match target.coerceAll rest with
          | .error e => .error e
          | .ok vs => .ok (v :: vs)

end FieldType

end RecordFilter
