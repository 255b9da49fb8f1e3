import RecordFilter.Number.Shortest

/-! # Texts of floating point numbers

    Writing takes the shortest digits and lays them out; two layouts are in
    use, the plain one of values and the one of JSON texts, and each is a
    record.  Reading accepts a decimal number with an optional exponent, or
    the name of an infinity or of NaN in any case, and rounds correctly. -/

namespace RecordFilter

namespace Double

/-- How the shortest digits become a text: which of two equally near digits is
    taken, whether a whole number ends in `.0`, and for which positions of the
    point there is no exponent (everywhere, if there are no bounds). -/
structure Layout where
  tie : Tie
  wholeWithPoint : Bool
  positional : Option (Int × Int)
deriving DecidableEq, Repr

/-- Values are written without an exponent, and whole numbers without a
    point; a tie goes upward. -/
def plainLayout : Layout := ⟨.upward, false, none⟩

/-- In a JSON text a magnitude from `1e-5` up to `1e16` has no exponent, whole
    numbers end in `.0`, and a tie goes to the even digit. -/
def jsonLayout : Layout := ⟨.even, true, some (-4, 16)⟩

/-- Digits with the point put among them or zeros around them. -/
def positionalText (wholeWithPoint : Bool) (s : DigitString) : List Char :=
  let count : Int := s.digits.length
  if s.point ≤ 0 then '0' :: '.' :: (zeros (-s.point).toNat ++ s.digits)
  else if count ≤ s.point then
    s.digits ++ zeros (s.point - count).toNat ++ (if wholeWithPoint then ['.', '0'] else [])
  else s.digits.take s.point.toNat ++ '.' :: s.digits.drop s.point.toNat

/-- Digits with the point behind the first one and an exponent of ten. -/
def exponentText (s : DigitString) : List Char :=
  let mantissa :=
    match s.digits with
    | [] => ['0']
    | [d] => [d]
    | d :: rest => d :: '.' :: rest
  let e := s.point - 1
  mantissa ++ 'e' :: (if e < 0 then '-' else '+') :: digitsOf e.natAbs

/-- The text of a finite magnitude. -/
def magnitudeText (layout : Layout) (rank : Nat) : List Char :=
  if rank = 0 then (if layout.wholeWithPoint then ['0', '.', '0'] else ['0'])
  else
    let s := Shortest.digits layout.tie rank
    match layout.positional with
    | none => positionalText layout.wholeWithPoint s
    | some (least, greatest) =>
        if least ≤ s.point ∧ s.point ≤ greatest then positionalText layout.wholeWithPoint s
        else exponentText s

/-- The text of a finite number in a layout, `none` for the others. -/
def finiteText? (layout : Layout) : Double → Option String
  | .finite negative rank =>
      some (String.ofList ((if negative then ['-'] else []) ++ magnitudeText layout rank))
  | _ => none

/-- The plain text of a number. -/
def text (x : Double) : String :=
  match x with
  | .nan => "NaN"
  | .infinite false => "inf"
  | .infinite true => "-inf"
  | .finite .. => (finiteText? plainLayout x).getD ""

/-- The text of a number in a JSON text, `none` if JSON has no number for it. -/
def jsonText? (x : Double) : Option String := finiteText? jsonLayout x

end Double

/-- Why a text is not a floating point number. -/
inductive DoubleFault where
  | empty
  | invalid
deriving DecidableEq, Repr

/-- The wording of a fault. -/
def DoubleFault.message : DoubleFault → String
  | .empty => "cannot parse float from empty string"
  | .invalid => "invalid float literal"

namespace Double

/-- The exponent behind its mark: an optional sign and at least one digit. -/
def readExponent? (s : List Char) : Option Int :=
  let unsigned (digits : List Char) : Option Int :=
    if digits ≠ [] ∧ digits.all Char.isDigit then some (ofDigits digits) else none
  match s with
  | '+' :: digits => unsigned digits
  | '-' :: digits => (unsigned digits).map (- ·)
  | digits => unsigned digits

/-- A decimal number: digits with an optional point, at least one digit in
    all, and an optional exponent. -/
def readDecimal? (negative : Bool) (s : List Char) : Option Double :=
  let whole := s.takeWhile Char.isDigit
  let afterWhole := s.dropWhile Char.isDigit
  let (places, rest) :=
    match afterWhole with
    | '.' :: t => (t.takeWhile Char.isDigit, t.dropWhile Char.isDigit)
    | t => ([], t)
  let digits := whole ++ places
  if digits = [] then none
  else
    let exponent? :=
      match rest with
      | [] => some 0
      | c :: t => if c = 'e' ∨ c = 'E' then readExponent? t else none
    exponent?.map fun e => ofDecimal negative (ofDigits digits) (e - places.length)

/-- A number behind its sign. -/
def readUnsigned? (negative : Bool) (s : List Char) : Option Double :=
  let name := String.ofList (s.map Char.toLower)
  if name = "nan" then some .nan
  else if name = "inf" ∨ name = "infinity" then some (.infinite negative)
  else readDecimal? negative s

/-- Reads a floating point number. -/
def read (text : String) : Except DoubleFault Double :=
  let found :=
    match text.toList with
    | '-' :: s => readUnsigned? true s
    | '+' :: s => readUnsigned? false s
    | s => readUnsigned? false s
  if text = "" then .error .empty
  else
    match found with
    | some x => .ok x
    | none => .error .invalid

end Double

end RecordFilter
