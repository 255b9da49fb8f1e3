import RecordFilter.Json.Form
import RecordFilter.Value.Basic

/-! # Values in JSON

    A value is written as an object with its type and its content.  Integers
    and floating point numbers are JSON numbers (one that is not finite is
    `null`), booleans are JSON booleans, and everything else is a string.

    Reading asks for the type first; where the content comes first, it is kept
    until the type is known.  A number that is kept in this way and is no
    integer of 64 bits is only good for a decimal.  An array of the type and
    the content is read as well. -/

namespace RecordFilter

open Json

namespace Value

/-- The content of a value. -/
def content : Value → Document
  | .int32 n => .number (integerText n.toInt)
  | .int64 n => .number (integerText n.toInt)
  | .decimal d => .string d.text
  | .float x =>
      match x.jsonText? with
      | some spelling => .number spelling
      | none => .null
  | .text s => .string s
  | .bool b => .bool b
  | .date d => .string d.text
  | .dateTime t => .string t.exactText

/-- The types in the order in which messages list them. -/
def typeNames : List (String × FieldType) :=
  [FieldType.int32, .int64, .decimal, .float, .text, .bool, .date, .dateTime].map
    fun t => (t.name, t)

/-- The key of the type. -/
def typeKey : String := "type"

/-- The key of the content. -/
def contentKey : String := "value"

/-- The JSON form of a value. -/
def toDocument (v : Value) : Document :=
  .object [(typeKey, .string v.fieldType.name), (contentKey, v.content)]

/-- What messages call a value. -/
def formName : String := "adjacently tagged enum Value"

/-! ## Reading the content -/

/-- What messages call the content of a type. -/
def contentName : FieldType → String
  | .int32 => "i32"
  | .int64 => "i64"
  | .decimal => "a number or formatted decimal string"
  | .float => "f64"
  | .text => "a string"
  | .bool => "a boolean"
  | .date => "a formatted date string"
  | .dateTime => "a formatted date and time string"

/-- A decimal number from its text. -/
def decimalOf (text : String) : Except Error Value :=
  match Decimal.read text with
  | .ok d => .ok (.decimal d)
  | .error fault => failed (.refused fault.message)

/-- A date from its text. -/
def dateOf (text : String) : Except Error Value :=
  match Date.readLoose text with
  | .ok d => .ok (.date d)
  | .error fault => failed (.refused fault.message)

/-- A date with a time from its text. -/
def dateTimeOf (text : String) : Except Error Value :=
  match DateTime.readLoose text with
  | .ok t => .ok (.dateTime t)
  | .error fault => failed (.refused fault.message)

/-- Reads a decimal: a string or a number that holds its text. -/
def decimalForm : Form Value
  | _, .string s => (ofFault s).bind decimalOf
  | _, .number n => decimalOf n.text
  | room, .array _ _ => do
      let _ ← ofFault room.enter
      failed (.invalidType .array (contentName .decimal))
  | room, .object _ _ => do
      let _ ← ofFault room.enter
      failed (.invalidType .object (contentName .decimal))
  | _, r => wrongType r (contentName .decimal)

/-- Reads the content of a value of a type. -/
def contentForm (t : FieldType) : Form Value := fun room r =>
  match t with
  | .int32 =>
      (integerForm (.signed 32) (contentName t) room r).map fun n => .int32 (Int32.ofInt n)
  | .int64 =>
      (integerForm (.signed 64) (contentName t) room r).map fun n => .int64 (Int64.ofInt n)
  | .decimal => decimalForm room r
  | .float => (doubleForm room r).map .float
  | .text => (stringForm room r).map .text
  | .bool => (boolForm room r).map .bool
  | .date => (stringFormAs (contentName t) room r).bind dateOf
  | .dateTime => (stringFormAs (contentName t) room r).bind dateTimeOf

/-- The value of a type from the content that was kept for it.  The content is
    whole, so no bracket of it is one too many.  A number other than an integer
    of 64 bits is kept as an object, which only a decimal is read from. -/
def ofKept (t : FieldType) (r : Reading) : Except Error Value :=
  match t, r with
  | .decimal, .number n => decimalOf n.text
  | t, .number n =>
      if n.integer?.isSome then contentForm t .unlimited (.number n)
      else failed (.invalidType .object (contentName t))
  | t, r => contentForm t .unlimited r

/-! ## Reading a value -/

/-- The entries from the first one that a value has, and whether that one is
    the type; the entries in front of it are passed over. -/
def nextEntry (ending : Ending) : List (Label × Reading) →
    Except Error (Option (Bool × Reading × List (Label × Reading)))
  | [] => (ofFault ending.read).map fun _ => none
  | (label, r) :: rest => do
      let key ← ofFault label
      if key = typeKey then pure (some (true, r, rest))
      else if key = contentKey then pure (some (false, r, rest))
      else
        passOver r
        nextEntry ending rest

/-- Checks that neither the type nor the content comes again. -/
def endOfValue (ending : Ending) (entries : List (Label × Reading)) :
    Except Error Unit := do
  match ← nextEntry ending entries with
  | none => pure ()
  | some (true, _, _) => failed (.duplicateField typeKey)
  | some (false, _, _) => failed (.duplicateField contentKey)

/-- Reads the entries of a value. -/
def ofEntries (room : Room) (ending : Ending) (entries : List (Label × Reading)) :
    Except Error Value := do
  match ← nextEntry ending entries with
  | none => failed (.missingField typeKey)
  | some (true, r, rest) =>
      let t ← bareVariantForm typeNames room r
      match ← nextEntry ending rest with
      | none => failed (.missingField contentKey)
      | some (true, _, _) => failed (.duplicateField typeKey)
      | some (false, r, rest) =>
          let v ← contentForm t room r
          endOfValue ending rest
          pure v
  | some (false, r, rest) =>
      let _ ← ofFault (r.document room)
      match ← nextEntry ending rest with
      | none => failed (.missingField typeKey)
      | some (false, _, _) => failed (.duplicateField contentKey)
      | some (true, kind, rest) =>
          let t ← bareVariantForm typeNames room kind
          let v ← ofKept t r
          endOfValue ending rest
          pure v

/-- Reads a value. -/
def form : Form Value
  | room, .object entries ending => do
      let room ← ofFault room.enter
      ofEntries room ending entries
  | room, .array items ending => do
      let room ← ofFault room.enter
      match items with
      | [] => tooShort 0 formName ending
      | r :: rest =>
          let t ← variantNameForm typeNames room r
          match rest with
          | [] => tooShort 1 formName ending
          | r :: rest =>
              let v ← contentForm t room r
              endOfArray rest ending
              pure v
  | _, r => wrongType r formName

/-- Reads the text of a value. -/
def ofText (text : String) : Except Error Value :=
  (readText text).decode fun r => form .usual r

end Value

end RecordFilter
