import RecordFilter.Number.Digits
import RecordFilter.Number.Double

/-! # The fewest digits that read back

    A finite magnitude stands for an interval of numbers, those that round to
    it; its ends belong to it when its significand is even.  The shortest
    decimal text of the magnitude is found on the grids of one digit, two
    digits and so on: on each grid the two neighbours of the exact value are
    tried, and the first grid with a neighbour inside the interval wins.  Of
    two neighbours the nearer is taken; where both are equally near, the
    caller says which. -/

namespace RecordFilter

/-- Which of two equally near neighbours is taken. -/
inductive Tie where
  | upward
  | even
deriving DecidableEq, Repr

/-- The number `0.d₁d₂… * 10 ^ point`, where `d₁d₂…` are the digits. -/
structure DigitString where
  digits : List Char
  point : Int
deriving DecidableEq, Repr

namespace Shortest

/-- A magnitude and the ends of its interval, over a common denominator. -/
structure Interval where
  value : Nat
  low : Nat
  high : Nat
  den : Nat
  closed : Bool
deriving DecidableEq, Repr

/-- The interval of a rank.  The next smaller magnitude is only half as far
    away where the significand is the least of its block. -/
def Interval.ofRank (rank : Nat) : Interval :=
  let m := Double.significand rank
  let scale := 2 ^ Double.shift rank
  let below := if m = 2 ^ 52 ∧ 0 < Double.shift rank then 1 else 2
  { value := 4 * m * scale
    low := (4 * m - below) * scale
    high := (4 * m + 2) * scale
    den := 4 * 2 ^ Double.unitPlaces
    closed := m % 2 = 0 }

/-- The fraction `num / den` lies in the interval. -/
def Interval.contains (i : Interval) (num den : Nat) : Bool :=
  let x := num * i.den
  let low := i.low * den
  let high := i.high * den
  if i.closed then low ≤ x && x ≤ high else low < x && x < high

/-- Where the point of the fraction `num / den` stands: the power of ten just
    above it. -/
def pointOf (num den : Nat) : Int :=
  let a := digitCount num
  let b := digitCount den
  let p : Int := a - b
  let reached :=
    if b ≤ a then den * 10 ^ (a - b) ≤ num else den ≤ num * 10 ^ (b - a)
  if reached then p + 1 else p

/-- The neighbour of the value on the grid of the steps `stepNum / stepDen`
    that lies in the interval, if one does. -/
def neighbour (tie : Tie) (i : Interval) (stepNum stepDen : Nat) : Option Nat :=
  let n := i.value * stepDen
  let d := i.den * stepNum
  let below := n / d
  let takesBelow := i.contains (below * stepNum) stepDen
  let takesAbove := i.contains ((below + 1) * stepNum) stepDen
  match takesBelow, takesAbove with
  | false, false => none
  | true, false => some below
  | false, true => some (below + 1)
  | true, true =>
      match compare (2 * (n % d)) d with
      | .lt => some below
      | .gt => some (below + 1)
      | .eq =>
          match tie with
          | .upward => some (below + 1)
          | .even => some (if below % 2 = 0 then below else below + 1)

/-- The first grid from `count` digits on that has a neighbour in the interval;
    `room` more grids are tried. -/
def search (tie : Tie) (i : Interval) (point : Int) (count : Nat) : Nat → Nat × Nat
  | 0 => (0, count)
  | room + 1 =>
      let e := point - count
      let step := if 0 ≤ e then (10 ^ e.toNat, 1) else (1, 10 ^ (-e).toNat)
      match neighbour tie i step.1 step.2 with
      | some n => (n, count)
      | none => search tie i point (count + 1) room

/-- The digits without the zeros at their end. -/
def dropZeros (digits : List Char) : List Char :=
  (digits.reverse.dropWhile (· == '0')).reverse

/-- The shortest digits of a rank other than zero.  Seventeen digits always
    suffice. -/
def digits (tie : Tie) (rank : Nat) : DigitString :=
  let i := Interval.ofRank rank
  let point := pointOf i.value i.den
  let found := search tie i point 1 17
  let ds := digitsOf found.1
  { digits := dropZeros ds, point := point + (ds.length - found.2 : Int) }

end Shortest

end RecordFilter
