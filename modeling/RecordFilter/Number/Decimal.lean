import RecordFilter.Number.Double
import RecordFilter.Number.Integer

/-! # Decimal numbers

    A decimal number is a whole number and a scale, the count of its places
    behind the point; a negative scale stands for zeros in front of it.  The
    whole number has any size, the scale is an integer of 64 bits.  Different
    pairs can be the same number, and the order is the order of the
    numbers (`Decimal.order`).  It never builds a power of ten that is larger
    than the digits at hand: magnitudes whose first digits stand at different
    places are told apart by the places alone. -/

namespace RecordFilter

/-- The number `unscaled * 10 ^ (-scale)`. -/
structure Decimal where
  unscaled : Int
  scale : Int
  scale_mem : (IntegerRange.signed 64).Contains scale := by decide
deriving DecidableEq, Repr

namespace Decimal

/-- A whole number. -/
def ofInt (n : Int) : Decimal := { unscaled := n, scale := 0 }

/-- The number of the same digits and the other sign. -/
def neg (d : Decimal) : Decimal := { d with unscaled := -d.unscaled }

/-- How many places in front of the point the first digit stands. -/
def position (d : Decimal) : Int := digitCount d.unscaled.natAbs - d.scale

/-- The digits of the magnitude at a scale that is not below its own. -/
def rescaled (d : Decimal) (scale : Int) : Nat :=
  d.unscaled.natAbs * 10 ^ (scale - d.scale).toNat

/-- The order of two magnitudes other than zero. -/
def magnitudeOrder (a b : Decimal) : Ordering :=
  match compare a.position b.position with
  | .lt => .lt
  | .gt => .gt
  | .eq =>
      let scale := max a.scale b.scale
      compare (a.rescaled scale) (b.rescaled scale)

/-- The order of two numbers. -/
def order (a b : Decimal) : Ordering :=
  match compare a.unscaled.sign b.unscaled.sign with
  | .lt => .lt
  | .gt => .gt
  | .eq =>
      if a.unscaled = 0 then .eq
      else if 0 < a.unscaled then magnitudeOrder a b
      else magnitudeOrder b a

/-- The same number, at whatever scale. -/
def sameValue (a b : Decimal) : Bool := order a b == .eq

/-- A count of places that binary places need is a scale. -/
theorem scale_mem_of_le {n : Nat} (h : n ≤ Double.unitPlaces) :
    (IntegerRange.signed 64).Contains n := by
  have hplaces : (n : Int) ≤ 1074 := Int.ofNat_le.mpr h
  exact ⟨Int.le_trans (by decide) (Int.natCast_nonneg n), Int.le_trans hplaces (by decide)⟩

/-- The exact value of a finite floating point number.  A count of units has at
    most `1074` binary places behind the point, and each of them is one decimal
    place. -/
def ofDouble? : Double → Option Decimal
  | .finite negative rank =>
      let m := Double.significand rank
      let shift := Double.shift rank
      let magnitude : Decimal :=
        if Double.unitPlaces ≤ shift then ofInt (m * 2 ^ (shift - Double.unitPlaces))
        else
          { unscaled := m * 5 ^ (Double.unitPlaces - shift)
            scale := (Double.unitPlaces - shift : Nat)
            scale_mem := scale_mem_of_le (Nat.sub_le ..) }
      some (if negative then magnitude.neg else magnitude)
  | _ => none

end Decimal

end RecordFilter
