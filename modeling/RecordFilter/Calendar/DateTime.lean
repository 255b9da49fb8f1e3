import RecordFilter.Calendar.Date
import RecordFilter.Number.Digits

/-! # Dates with a time of day

    A time of day counts hours, minutes, seconds and nanoseconds.  From `10 ^ 9`
    nanoseconds on it lies in a leap second, which may stand behind any second of
    any minute, and comes after that second and before the next.  A clock shows it
    as the second that follows: behind second 59 as second 60, and elsewhere like
    the next second itself.  There is no time zone. -/

namespace RecordFilter

/-- A time of day. -/
@[ext]
structure TimeOfDay where
  hour : Nat
  minute : Nat
  second : Nat
  nanosecond : Nat
  hour_lt : hour < 24 := by decide
  minute_lt : minute < 60 := by decide
  second_lt : second < 60 := by decide
  nanosecond_lt : nanosecond < 2 * 10 ^ 9 := by decide
deriving DecidableEq, Repr

namespace TimeOfDay

/-- The time with the given parts, if it exists. -/
def ofParts? (hour minute second nanosecond : Nat) : Option TimeOfDay :=
  if h : hour < 24 ∧ minute < 60 ∧ second < 60 ∧ nanosecond < 2 * 10 ^ 9 then
    some ⟨hour, minute, second, nanosecond, h.1, h.2.1, h.2.2.1, h.2.2.2⟩
  else none

/-- The earlier of two times comes first. -/
def order (a b : TimeOfDay) : Ordering :=
  (compare a.hour b.hour).then
    ((compare a.minute b.minute).then
      ((compare a.second b.second).then (compare a.nanosecond b.nanosecond)))

/-! ## What a clock shows -/

/-- The second that a clock shows. -/
def shownSecond (t : TimeOfDay) : Nat := t.second + t.nanosecond / 10 ^ 9

/-- The fraction of the second, in nanoseconds. -/
def fraction (t : TimeOfDay) : Nat := t.nanosecond % 10 ^ 9

/-- The time that a clock shows with the given parts, if there is one: second 60 is
    the leap second behind second 59. -/
def ofClock? (hour minute second fraction : Nat) : Option TimeOfDay :=
  if fraction < 10 ^ 9 then
    if second = 60 then ofParts? hour minute 59 (10 ^ 9 + fraction)
    else ofParts? hour minute second fraction
  else none

/-- A leap second within a minute: no clock tells it from the second behind it. -/
def InnerLeap (t : TimeOfDay) : Prop := t.second < 59 ∧ 10 ^ 9 ≤ t.nanosecond

instance : DecidablePred InnerLeap := fun t =>
  inferInstanceAs (Decidable (t.second < 59 ∧ 10 ^ 9 ≤ t.nanosecond))

/-- The time as which a clock shows it: a leap second within a minute becomes the second
    behind it. -/
def shown (t : TimeOfDay) : TimeOfDay :=
  if h : t.InnerLeap then
    { t with
      second := t.second + 1
      nanosecond := t.nanosecond - 10 ^ 9
      second_lt := by have := h.1; omega
      nanosecond_lt := by have := t.nanosecond_lt; omega }
  else t

/-- The same second, without its fraction. -/
def wholeSecond (t : TimeOfDay) : TimeOfDay :=
  { t with
    nanosecond := t.nanosecond / 10 ^ 9 * 10 ^ 9
    nanosecond_lt := Nat.lt_of_le_of_lt (Nat.div_mul_le_self _ _) t.nanosecond_lt }

end TimeOfDay

/-- A time on a day. -/
structure DateTime where
  date : Date
  time : TimeOfDay
deriving DecidableEq, Repr

namespace DateTime

/-- The earlier of two comes first. -/
def order (a b : DateTime) : Ordering :=
  (a.date.order b.date).then (a.time.order b.time)

/-- The time as which a clock shows it. -/
def shown (t : DateTime) : DateTime := { t with time := t.time.shown }

/-- The same second, without its fraction. -/
def wholeSecond (t : DateTime) : DateTime := { t with time := t.time.wholeSecond }

end DateTime

end RecordFilter
