import RecordFilter.Number.Decimal

/-! # Texts of decimal numbers

    Writing keeps the digits as they are stored, trailing zeros included, and
    uses an exponent only where a plain text would need many zeros.  Reading
    takes an optional exponent of ten first, then drops the point from the
    digits and counts the places behind it. -/

namespace RecordFilter

/-- Why a text is not a decimal number. -/
inductive DecimalFault where
  | empty
  | integer (fault : IntegerFault)
  | exponentOverflow (text : String)
deriving DecidableEq, Repr

/-- The wording of a decimal fault. -/
def DecimalFault.message : DecimalFault → String
  | .empty => "Failed to parse empty string"
  | .integer fault => fault.message
  | .exponentOverflow text => "Exponent overflow when parsing '" ++ text ++ "'"

namespace Decimal

/-- The mark in front of an exponent. -/
def isExponentMark (c : Char) : Bool := c == 'e' || c == 'E'

/-- A run of digits that underscores may divide, but not lead. -/
def readMagnitude : List Char → Except IntegerFault Nat
  | [] => .error .empty
  | '_' :: _ => .error .invalidDigit
  | s =>
      if s.all fun c => c.isDigit || c == '_' then .ok (ofDigits (s.filter Char.isDigit))
      else .error .invalidDigit

/-- A whole number of any size behind an optional sign. -/
def readWhole : List Char → Except IntegerFault Int
  | '-' :: s => (readMagnitude s).map fun n => -(n : Int)
  | '+' :: s => (readMagnitude s).map Int.ofNat
  | s => (readMagnitude s).map Int.ofNat

/-- The digits without the point, and how many places stood behind it. -/
def splitPoint (mantissa : List Char) : List Char × Nat :=
  let whole := mantissa.takeWhile (· != '.')
  match mantissa.dropWhile (· != '.') with
  | [] => (mantissa, 0)
  | _ :: places => (whole ++ places, (places.filter (· != '_')).length)

/-- The exponent behind the digits, zero if there is none. -/
def readExponent (s : List Char) : Except IntegerFault Int :=
  match s.dropWhile fun c => !isExponentMark c with
  | [] => .ok 0
  | _ :: e => (IntegerRange.signed 128).read e

/-- The number of digits with a point and an exponent; `text` is the text that
    a fault names. -/
def readScaled (text : String) (mantissa : List Char) (exponent : Int) :
    Except DecimalFault Decimal :=
  let (digits, places) := splitPoint mantissa
  let scale : Int := places - exponent
  if h : (IntegerRange.signed 64).Contains scale then
    match readWhole digits with
    | .error fault => .error (.integer fault)
    | .ok unscaled => .ok ⟨unscaled, scale, h⟩
  else .error (.exponentOverflow text)

/-- Reads a decimal number.  The exponent is judged before the digits. -/
def read (text : String) : Except DecimalFault Decimal :=
  let mantissa := text.toList.takeWhile fun c => !isExponentMark c
  match readExponent text.toList with
  | .error fault => .error (.integer fault)
  | .ok exponent =>
      if mantissa = [] then .error .empty else readScaled text mantissa exponent

/-- How many zeros may follow the point of a plain text before its digits. -/
def mostLeadingZeros : Int := 5

/-- How many zeros may be put behind the digits of a plain text. -/
def mostTrailingZeros : Int := 15

/-- The text of a magnitude other than zero. -/
def magnitudeText (digits : List Char) (scale : Int) : List Char :=
  let count : Int := digits.length
  if 0 < scale then
    if mostLeadingZeros < scale - count then
      let mantissa :=
        match digits with
        | d :: e :: rest => d :: '.' :: e :: rest
        | ds => ds
      mantissa ++ 'E' :: '-' :: digitsOf (scale - count + 1).toNat
    else if count ≤ scale then '0' :: '.' :: (zeros (scale - count).toNat ++ digits)
    else digits.take (count - scale).toNat ++ '.' :: digits.drop (count - scale).toNat
  else if mostTrailingZeros < -scale then digits ++ 'e' :: '+' :: digitsOf (-scale).toNat
  else digits ++ zeros (-scale).toNat

/-- The text of a decimal number; zero is `0` at every scale. -/
def text (d : Decimal) : String :=
  if d.unscaled = 0 then "0"
  else
    String.ofList ((if d.unscaled < 0 then ['-'] else [])
      ++ magnitudeText (digitsOf d.unscaled.natAbs) d.scale)

end Decimal

end RecordFilter
