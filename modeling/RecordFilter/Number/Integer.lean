import RecordFilter.Number.Digits

/-! # Integers of a bounded range

    An integer is written as an optional sign and one or more digits.  The
    text is read from left to right, and the first thing that is wrong decides
    the fault: a character that is no digit, or a digit that takes the number
    read so far out of the range. -/

namespace RecordFilter

/-- Why a text is not an integer of a range. -/
inductive IntegerFault where
  | empty
  | invalidDigit
  | tooLarge
  | tooSmall
deriving DecidableEq, Repr

/-- The wording of an integer fault. -/
def IntegerFault.message : IntegerFault → String
  | .empty => "cannot parse integer from empty string"
  | .invalidDigit => "invalid digit found in string"
  | .tooLarge => "number too large to fit in target type"
  | .tooSmall => "number too small to fit in target type"

/-- The integers from `least` to `greatest`. -/
structure IntegerRange where
  least : Int
  greatest : Int
deriving DecidableEq, Repr

namespace IntegerRange

/-- The signed integers of a width in bits. -/
def signed (bits : Nat) : IntegerRange := ⟨-2 ^ (bits - 1), 2 ^ (bits - 1) - 1⟩

/-- An integer lies in the range. -/
def Contains (range : IntegerRange) (n : Int) : Prop :=
  range.least ≤ n ∧ n ≤ range.greatest

instance (range : IntegerRange) (n : Int) : Decidable (range.Contains n) :=
  inferInstanceAs (Decidable (_ ∧ _))

/-- Reads digits onto the number read so far, upwards from it or, after a
    minus sign, downwards. -/
def readDigits (range : IntegerRange) (negative : Bool) (soFar : Int) :
    List Char → Except IntegerFault Int
  | [] => .ok soFar
  | c :: rest =>
      match digit? c with
      | none => .error .invalidDigit
      | some d =>
          let next := if negative then soFar * 10 - d else soFar * 10 + d
          if next < range.least then .error .tooSmall
          else if range.greatest < next then .error .tooLarge
          else readDigits range negative next rest

/-- Reads an integer: an optional sign and at least one digit. -/
def read (range : IntegerRange) : List Char → Except IntegerFault Int
  | [] => .error .empty
  | ['+'] => .error .invalidDigit
  | ['-'] => .error .invalidDigit
  | '+' :: digits => range.readDigits false 0 digits
  | '-' :: digits => range.readDigits true 0 digits
  | digits => range.readDigits false 0 digits

end IntegerRange

/-- Reads a 32-bit integer. -/
def readInt32 (text : String) : Except IntegerFault Int32 :=
  ((IntegerRange.signed 32).read text.toList).map Int32.ofInt

/-- Reads a 64-bit integer. -/
def readInt64 (text : String) : Except IntegerFault Int64 :=
  ((IntegerRange.signed 64).read text.toList).map Int64.ofInt

/-- The digits of an integer, behind a minus sign if it is negative. -/
def integerText (n : Int) : String :=
  String.ofList ((if n < 0 then ['-'] else []) ++ digitsOf n.natAbs)

end RecordFilter
