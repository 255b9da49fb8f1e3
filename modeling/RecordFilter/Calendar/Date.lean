/-! # Dates

    A day of the proleptic Gregorian calendar, in the years from -262143 to
    262142.  A date is a day that exists, so the length of the month is part
    of the type; dates are ordered by year, month and day. -/

namespace RecordFilter

/-- A leap year has 366 days. -/
def isLeapYear (year : Int) : Bool :=
  year % 4 == 0 && (year % 100 != 0 || year % 400 == 0)

/-- The length of a month, zero if there is no such month. -/
def daysInMonth (year : Int) (month : Nat) : Nat :=
  match month with
  | 1 | 3 | 5 | 7 | 8 | 10 | 12 => 31
  | 4 | 6 | 9 | 11 => 30
  | 2 => if isLeapYear year then 29 else 28
  | _ => 0

/-- The first year that has dates. -/
def Date.leastYear : Int := -262143

/-- The last year that has dates. -/
def Date.greatestYear : Int := 262142

/-- A day of the calendar. -/
structure Date where
  year : Int
  month : Nat
  day : Nat
  leastYear_le : Date.leastYear ≤ year := by decide
  le_greatestYear : year ≤ Date.greatestYear := by decide
  day_pos : 1 ≤ day := by decide
  day_le : day ≤ daysInMonth year month := by decide
deriving DecidableEq, Repr

namespace Date

/-- The day with the given year, month and day of the month, if it exists. -/
def ofParts? (year : Int) (month day : Nat) : Option Date :=
  if h : leastYear ≤ year ∧ year ≤ greatestYear ∧ 1 ≤ day ∧ day ≤ daysInMonth year month then
    some ⟨year, month, day, h.1, h.2.1, h.2.2.1, h.2.2.2⟩
  else none

/-- A month of a date is one of the twelve. -/
theorem month_range (d : Date) : 1 ≤ d.month ∧ d.month ≤ 12 := by
  have hpos := d.day_pos
  have hle := d.day_le
  unfold daysInMonth at hle
  split at hle <;> simp_all

/-- The earlier of two dates comes first. -/
def order (a b : Date) : Ordering :=
  (compare a.year b.year).then ((compare a.month b.month).then (compare a.day b.day))

end Date

end RecordFilter
