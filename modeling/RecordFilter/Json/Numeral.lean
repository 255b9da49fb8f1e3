import RecordFilter.Json.Fault

/-! # Numbers of JSON texts

    A numeral is a number as it is spelled: a sign, digits, places behind the
    point and an exponent.  Its text is the spelling with the exponent always
    marked by `e` and a sign.

    A reader that asks for a number gets an integer if the numeral has neither
    point nor exponent and fits, and a floating point number otherwise.  That
    number is not always the nearest one: the digits that fit into 64 bits are
    rounded first, and then multiplied or divided by a power of ten that is
    itself rounded. -/

namespace RecordFilter.Json

/-- A number as it is spelled.  An exponent has a sign, true for minus, and
    digits. -/
structure Numeral where
  negative : Bool
  whole : List Char
  places : Option (List Char)
  exponent : Option (Bool × List Char)
deriving DecidableEq, Repr

/-- A number that a reader gets. -/
inductive Number where
  | integer (n : Int)
  | float (x : Double)
deriving DecidableEq, Repr

namespace Numeral

/-- The characters of a numeral. -/
def chars (n : Numeral) : List Char :=
  (if n.negative then ['-'] else []) ++ n.whole
    ++ (match n.places with
        | none => []
        | some digits => '.' :: digits)
    ++ (match n.exponent with
        | none => []
        | some (negative, digits) => 'e' :: (if negative then '-' else '+') :: digits)

/-- The text of a numeral. -/
def text (n : Numeral) : String := String.ofList n.chars

/-- The greatest number that digits are gathered to. -/
def mostGathered : Nat := 2 ^ 64 - 1

/-- The greatest exponent that is looked at. -/
def mostExponent : Nat := 2 ^ 31 - 1

/-- Gathers digits onto a number as long as it fits; gives the number and how
    many digits were left over. -/
def gather (soFar : Nat) : List Char → Nat × Nat
  | [] => (soFar, 0)
  | c :: rest =>
      let next := soFar * 10 + ofDigits [c]
      if mostGathered < next then (soFar, rest.length + 1) else gather next rest

/-- The floating point number nearest to a power of ten. -/
def powerOfTen (exponent : Nat) : Double := .ofDecimal false 1 exponent

/-- Divides by a power of ten, in steps of at most `10 ^ 308`. -/
def scaledDown (x : Double) (exponent : Nat) : Double :=
  if exponent ≤ 308 then x.div (powerOfTen exponent)
  else if x = Double.zero false then x
  else scaledDown (x.div (powerOfTen 308)) (exponent - 308)
termination_by exponent

/-- Multiplies by a power of ten; the result has to be finite. -/
def scaledUp (x : Double) (exponent : Nat) : Except Fault Double :=
  if exponent ≤ 308 then
    let y := x.mul (powerOfTen exponent)
    if y.isFinite then .ok y else .error .numberOutOfRange
  else if x = Double.zero false then .ok x
  else .error .numberOutOfRange

/-- The floating point number of gathered digits and an exponent of ten. -/
def scaled (significand : Nat) (exponent : Int) : Except Fault Double :=
  let x := Double.ofNat significand
  if 0 ≤ exponent then scaledUp x exponent.toNat
  else .ok (scaledDown x (-exponent).toNat)

/-- The floating point number of a magnitude with the exponent that was
    spelled. -/
def magnitude (significand : Nat) (exponent : Int) : Option (Bool × List Char) →
    Except Fault Double
  | none => scaled significand exponent
  | some (negative, digits) =>
      let e := ofDigits digits
      if mostExponent < e then
        if significand ≠ 0 ∧ negative = false then .error .numberOutOfRange
        else .ok (Double.zero false)
      else scaled significand (if negative then exponent - e else exponent + e)

/-- The integer of a numeral with neither point nor exponent, if 64 bits hold
    it: unsigned, or signed behind a minus sign.  A negative zero is no
    integer. -/
def integer? (n : Numeral) : Option Int :=
  match n.places, n.exponent with
  | none, none =>
      let m := ofDigits n.whole
      if n.negative then (if m ≠ 0 ∧ m ≤ 2 ^ 63 then some (-(m : Int)) else none)
      else (if m ≤ mostGathered then some (m : Int) else none)
  | _, _ => none

/-- The floating point number behind a numeral. -/
def toDouble (n : Numeral) : Except Fault Double :=
  let digits := n.places.getD []
  let (significand, left) := gather 0 n.whole
  let (significand, dropped) := gather significand digits
  let taken := digits.length - dropped
  (magnitude significand ((left : Int) - taken) n.exponent).map fun x =>
    if n.negative then x.neg else x

/-- The number behind a numeral. -/
def toNumber (n : Numeral) : Except Fault Number :=
  match n.integer? with
  | some i => .ok (.integer i)
  | none => n.toDouble.map .float

end Numeral

end RecordFilter.Json
