import RecordFilter.Number.DoubleText
import RecordFilter.Number.Integer
import RecordFilter.Text.Quoted

/-! # Faults of JSON texts

    A text can fail in two ways.  It may not be JSON at all: then the first
    place where it departs from the grammar gives a `Fault`.  Or it is JSON, but
    not of the form that the reader asks for: then a `Mismatch` says what was
    found and what was expected.  `Error` is either of them, whichever comes
    first in the text. -/

namespace RecordFilter.Json

/-- Why a text is not JSON. -/
inductive Fault where
  | endInValue
  | endInString
  | endInArray
  | endInObject
  | expectedValue
  | expectedWord
  | invalidNumber
  | numberOutOfRange
  | expectedColon
  | expectedArrayEnd
  | expectedObjectEnd
  | keyNotString
  | trailingComma
  | trailingCharacters
  | invalidEscape
  | controlCharacter
  | unpairedSurrogate
  | wrongSurrogate
  | tooDeep
deriving DecidableEq, Repr

/-- The wording of a fault. -/
def Fault.message : Fault → String
  | .endInValue => "EOF while parsing a value"
  | .endInString => "EOF while parsing a string"
  | .endInArray => "EOF while parsing a list"
  | .endInObject => "EOF while parsing an object"
  | .expectedValue => "expected value"
  | .expectedWord => "expected ident"
  | .invalidNumber => "invalid number"
  | .numberOutOfRange => "number out of range"
  | .expectedColon => "expected `:`"
  | .expectedArrayEnd => "expected `,` or `]`"
  | .expectedObjectEnd => "expected `,` or `\x7d`"
  | .keyNotString => "key must be a string"
  | .trailingComma => "trailing comma"
  | .trailingCharacters => "trailing characters"
  | .invalidEscape => "invalid escape"
  | .controlCharacter => "control character (\\u0000-\\u001F) found while parsing a string"
  | .unpairedSurrogate => "unexpected end of hex escape"
  | .wrongSurrogate => "lone leading surrogate in hex escape"
  | .tooDeep => "recursion limit exceeded"

/-- The text ends before the value is complete. -/
def Fault.isEnd : Fault → Bool
  | .endInValue | .endInString | .endInArray | .endInObject => true
  | _ => false

/-- What stands where something else was expected.  A reader that asks for a
    number of another kind names it; any other reader names integers of 64 bits
    only, and calls the rest `number`. -/
inductive Found where
  | null
  | bool (b : Bool)
  | integer (n : Int)
  | float (x : Double)
  | number
  | string (s : String)
  | array
  | object
  | bareVariant
deriving DecidableEq, Repr

/-- How a message names what was found. -/
def Found.describe : Found → String
  | .null => "null"
  | .bool b => "boolean `" ++ (if b then "true" else "false") ++ "`"
  | .integer n => "integer `" ++ integerText n ++ "`"
  | .float x => "floating point `" ++ (x.jsonText?).getD x.text ++ "`"
  | .number => "number"
  | .string s => "string " ++ Text.quoted s
  | .array => "sequence"
  | .object => "map"
  | .bareVariant => "unit variant"

/-- Why a JSON value is not of the form that is asked for. -/
inductive Mismatch where
  | missingField (name : String)
  | duplicateField (name : String)
  | unknownVariant (found : String) (known : List String)
  | invalidType (found : Found) (expected : String)
  | invalidValue (found : Found) (expected : String)
  | invalidLength (length : Nat) (expected : String)
  | refused (reason : String)
deriving DecidableEq, Repr

/-- The wording of a mismatch. -/
def Mismatch.message : Mismatch → String
  | .missingField name => "missing field `" ++ name ++ "`"
  | .duplicateField name => "duplicate field `" ++ name ++ "`"
  | .unknownVariant found known =>
      "unknown variant `" ++ found ++ "`, expected one of "
        ++ String.intercalate ", " (known.map fun name => "`" ++ name ++ "`")
  | .invalidType found expected =>
      "invalid type: " ++ found.describe ++ ", expected " ++ expected
  | .invalidValue found expected =>
      "invalid value: " ++ found.describe ++ ", expected " ++ expected
  | .invalidLength length expected =>
      "invalid length " ++ integerText length ++ ", expected " ++ expected
  | .refused reason => reason

/-- Why a text cannot be read in the form that is asked for. -/
inductive Error where
  | fault (reason : Fault)
  | mismatch (reason : Mismatch)
deriving DecidableEq, Repr

/-- The wording of an error. -/
def Error.message : Error → String
  | .fault reason => reason.message
  | .mismatch reason => reason.message

/-- The class of an error: the text ends too early, is not JSON, or holds other
    data than expected. -/
def Error.className : Error → String
  | .fault reason => if reason.isEnd then "eof" else "syntax"
  | .mismatch _ => "data"

/-- An error for a mismatch. -/
def failed {α : Type} (reason : Mismatch) : Except Error α := .error (.mismatch reason)

/-- A fault as an error. -/
def ofFault {α : Type} (result : Except Fault α) : Except Error α := result.mapError .fault

/-- What reads without a fault has been read. -/
theorem ofFault_eq_ok {α : Type} {result : Except Fault α} {a : α}
    (h : ofFault result = .ok a) : result = .ok a := by
  cases result with
  | error e => cases h
  | ok b => exact congrArg Except.ok (Except.ok.inj h)

end RecordFilter.Json
