import RecordFilter.Calendar.DateTime
import RecordFilter.Number.Integer
import RecordFilter.Text.Blank

/-! # Texts of dates and times

    A format is a list of pieces: numbers, fixed characters, runs of blanks
    and the fraction of a second.  A text is read piece by piece, and the
    first piece that does not fit decides the fault.  Blanks may stand in
    front of every number.  Whether the parts name an existing day is asked
    last.

    Two formats are read: the strict one of operands, with nothing but numbers
    and fixed characters, and the loose one of JSON texts, which passes over
    blanks between the pieces and knows fractions. -/

namespace RecordFilter.Calendar

/-- Why a text is not a date or a time. -/
inductive Fault where
  | invalidCharacters
  | prematureEnd
  | trailingInput
  | outOfRange
deriving DecidableEq, Repr

/-- The wording of a fault. -/
def Fault.message : Fault → String
  | .invalidCharacters => "input contains invalid characters"
  | .prematureEnd => "premature end of input"
  | .trailingInput => "trailing input"
  | .outOfRange => "input is out of range"

/-- A number that a format reads into a part of a date or a time. -/
inductive Part where
  | year
  | month
  | day
  | hour
  | minute
  | second
deriving DecidableEq, Repr

/-- A piece of a format. -/
inductive Piece where
  | number (part : Part)
  | fixed (c : Char)
  | blanks
  | fraction
deriving DecidableEq, Repr

/-- The parts read so far. -/
structure Parts where
  year : Int := 0
  month : Nat := 1
  day : Nat := 1
  hour : Nat := 0
  minute : Nat := 0
  second : Nat := 0
  nanosecond : Nat := 0
deriving DecidableEq, Repr

/-- Reads at least one digit and at most `width` of them, if a width is given;
    gives the digits and the rest. -/
def readDigits (width : Option Nat) (s : List Char) :
    Except Fault (List Char × List Char) :=
  let digits :=
    match width with
    | none => s.takeWhile Char.isDigit
    | some w => (s.takeWhile Char.isDigit).take w
  match s with
  | [] => .error .prematureEnd
  | _ => if digits = [] then .error .invalidCharacters else .ok (digits, s.drop digits.length)

/-- Reads a year: up to four digits, or a sign and any count of them. -/
def readYear (s : List Char) : Except Fault (Int × List Char) :=
  match s with
  | '-' :: t => (readDigits none t).map fun (digits, rest) => (-(ofDigits digits : Int), rest)
  | '+' :: t => (readDigits none t).map fun (digits, rest) => ((ofDigits digits : Int), rest)
  | t => (readDigits (some 4) t).map fun (digits, rest) => ((ofDigits digits : Int), rest)

/-- Reads a number of one or two digits that lies between two bounds. -/
def readBetween (least greatest : Nat) (s : List Char) : Except Fault (Nat × List Char) := do
  let (digits, rest) ← readDigits (some 2) s
  let n := ofDigits digits
  if least ≤ n ∧ n ≤ greatest then pure (n, rest) else throw .outOfRange

/-- Reads the number of a part, blanks in front of it passed over. -/
def readPart (part : Part) (parts : Parts) (s : List Char) : Except Fault (Parts × List Char) :=
  let s := Text.skipBlank s
  match part with
  | .year => do
      let (n, rest) ← readYear s
      if (IntegerRange.signed 32).Contains n then pure ({ parts with year := n }, rest)
      else throw .outOfRange
  | .month => (readBetween 1 12 s).map fun (n, rest) => ({ parts with month := n }, rest)
  | .day => (readBetween 1 31 s).map fun (n, rest) => ({ parts with day := n }, rest)
  | .hour => (readBetween 0 23 s).map fun (n, rest) => ({ parts with hour := n }, rest)
  | .minute => (readBetween 0 59 s).map fun (n, rest) => ({ parts with minute := n }, rest)
  | .second => (readBetween 0 60 s).map fun (n, rest) => ({ parts with second := n }, rest)

/-- Reads a fraction of a second, if there is one: nine digits count, further
    digits are passed over. -/
def readFraction (parts : Parts) (s : List Char) : Except Fault (Parts × List Char) :=
  match s with
  | '.' :: t => do
      let (digits, rest) ← readDigits (some 9) t
      let n := ofDigits digits * 10 ^ (9 - digits.length)
      pure ({ parts with nanosecond := n }, rest.dropWhile Char.isDigit)
  | s => pure (parts, s)

/-- Reads one piece. -/
def Piece.read (piece : Piece) (parts : Parts) (s : List Char) :
    Except Fault (Parts × List Char) :=
  match piece with
  | .number part => readPart part parts s
  | .fixed c =>
      match s with
      | [] => .error .prematureEnd
      | d :: rest => if d = c then .ok (parts, rest) else .error .invalidCharacters
  | .blanks => .ok (parts, Text.skipBlank s)
  | .fraction => readFraction parts s

/-- Reads the pieces in turn; nothing may be left over. -/
def readPieces (parts : Parts) : List Piece → List Char → Except Fault Parts
  | [], [] => .ok parts
  | [], _ :: _ => .error .trailingInput
  | piece :: pieces, s =>
      match piece.read parts s with
      | .error fault => .error fault
      | .ok (parts, rest) => readPieces parts pieces rest

/-- The day that the parts name. -/
def Parts.date (p : Parts) : Except Fault Date :=
  match Date.ofParts? p.year p.month p.day with
  | some d => .ok d
  | none => .error .outOfRange

/-- The time on a day that the parts name. -/
def Parts.dateTime (p : Parts) : Except Fault DateTime :=
  match p.date, TimeOfDay.ofClock? p.hour p.minute p.second p.nanosecond with
  | .ok d, some t => .ok ⟨d, t⟩
  | _, _ => .error .outOfRange

/-- The format of dates: `Y-M-D`. -/
def dateFormat : List Piece :=
  [.number .year, .fixed '-', .number .month, .fixed '-', .number .day]

/-- The format of dates with a time: `Y-M-DTh:m:s`. -/
def dateTimeFormat : List Piece :=
  dateFormat ++ [.fixed 'T', .number .hour, .fixed ':', .number .minute, .fixed ':',
    .number .second]

/-- The format of dates in JSON texts. -/
def looseDateFormat : List Piece :=
  [.number .year, .blanks, .fixed '-', .number .month, .blanks, .fixed '-', .number .day, .blanks]

/-- The format of dates with a time in JSON texts. -/
def looseDateTimeFormat : List Piece :=
  looseDateFormat ++ [.fixed 'T', .number .hour, .blanks, .fixed ':', .number .minute, .blanks,
    .fixed ':', .number .second, .fraction, .blanks]

end RecordFilter.Calendar

namespace RecordFilter

open Calendar

namespace Date

/-- Reads a date. -/
def read (text : String) : Except Fault Date :=
  (readPieces {} dateFormat text.toList).bind Parts.date

/-- Reads a date that stands in a JSON text. -/
def readLoose (text : String) : Except Fault Date :=
  (readPieces {} looseDateFormat text.toList).bind Parts.date

/-- The text of a year: four digits, with a sign outside of 0 to 9999. -/
def yearText (year : Int) : List Char :=
  if 0 ≤ year ∧ year ≤ 9999 then padded 4 year.natAbs
  else (if year < 0 then '-' else '+') :: padded 4 year.natAbs

/-- The text of a date, `YYYY-MM-DD`. -/
def chars (d : Date) : List Char :=
  yearText d.year ++ '-' :: (padded 2 d.month ++ '-' :: padded 2 d.day)

/-- The text of a date. -/
def text (d : Date) : String := String.ofList d.chars

end Date

namespace DateTime

/-- Reads a date with a time. -/
def read (text : String) : Except Fault DateTime :=
  (readPieces {} dateTimeFormat text.toList).bind Parts.dateTime

/-- Reads a date with a time that stands in a JSON text. -/
def readLoose (text : String) : Except Fault DateTime :=
  (readPieces {} looseDateTimeFormat text.toList).bind Parts.dateTime

/-- The text without the fraction of the second, `YYYY-MM-DDThh:mm:ss`. -/
def chars (t : DateTime) : List Char :=
  t.date.chars ++ 'T' :: (padded 2 t.time.hour ++ ':' :: (padded 2 t.time.minute
    ++ ':' :: padded 2 t.time.shownSecond))

/-- The text without the fraction of the second. -/
def text (t : DateTime) : String := String.ofList t.chars

/-- The fraction of the second in three, six or nine digits, the fewest that
    are exact; nothing if there is no fraction. -/
def fractionText (fraction : Nat) : List Char :=
  if fraction = 0 then []
  else if fraction % 10 ^ 6 = 0 then '.' :: padded 3 (fraction / 10 ^ 6)
  else if fraction % 10 ^ 3 = 0 then '.' :: padded 6 (fraction / 10 ^ 3)
  else '.' :: padded 9 fraction

/-- The text with the fraction of the second. -/
def exactText (t : DateTime) : String :=
  String.ofList (t.chars ++ fractionText t.time.fraction)

end DateTime

end RecordFilter
