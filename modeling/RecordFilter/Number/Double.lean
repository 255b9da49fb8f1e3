import RecordFilter.Number.Digits

/-! # Binary floating point numbers of 64 bits

    An IEEE 754 `binary64` datum, payloads of NaN apart.  The finite
    magnitudes are numbered in increasing order from zero, and that number,
    the *rank*, is what a finite datum holds: rank `0` is zero, the next
    `2 ^ 52 - 1` are the subnormal magnitudes, and every further block of
    `2 ^ 52` is a power of two and the magnitudes up to the next one.  Every
    finite magnitude is a whole number of units of `2 ^ -1074`.

    Rounding is to the nearest, a tie to the even rank (`Double.ofRatio`), and
    the order is the partial order of the standard: NaN compares with nothing,
    and the two zeros are equal (`Double.order`). -/

namespace RecordFilter

/-- A 64-bit floating point number. -/
inductive Double where
  | nan
  | infinite (negative : Bool)
  | finite (negative : Bool) (rank : Fin (2047 * 2 ^ 52))
deriving DecidableEq, Repr

namespace Double

/-- The whole number in front of the power of two: below `2 ^ 52` for a
    subnormal magnitude, from `2 ^ 52` up to `2 ^ 53` for the others. -/
def significand (rank : Nat) : Nat :=
  if rank < 2 ^ 52 then rank else 2 ^ 52 + rank % 2 ^ 52

/-- The exponent of two that scales the significand to units. -/
def shift (rank : Nat) : Nat := rank / 2 ^ 52 - 1

/-- The magnitude of a rank in units of `2 ^ -1074`. -/
def units (rank : Nat) : Nat := significand rank * 2 ^ shift rank

/-- The number of binary places behind the point that the units have. -/
def unitPlaces : Nat := 1074

/-- Neither NaN nor an infinity. -/
def isFinite : Double → Bool
  | .finite _ _ => true
  | _ => false

/-- Zero, with a sign. -/
def zero (negative : Bool) : Double := .finite negative ⟨0, by decide⟩

/-- The number of a rank, an infinity if the rank is beyond the last one. -/
def ofRank (negative : Bool) (rank : Nat) : Double :=
  if h : rank < 2047 * 2 ^ 52 then .finite negative ⟨rank, h⟩ else .infinite negative

/-- The quotient `num / den` rounded to the nearest whole number, a tie to the
    even one. -/
def roundedQuotient (num den : Nat) : Nat :=
  let q := num / den
  match compare (2 * (num % den)) den with
  | .lt => q
  | .gt => q + 1
  | .eq => if q % 2 = 0 then q else q + 1

/-- The datum nearest to the fraction `num / den`, a tie to the even rank, an
    infinity from half a unit beyond the greatest magnitude.  With the scale
    `k` the fraction lies between `2 ^ 52` and `2 ^ 53` steps of `2 ^ k` units,
    or below that at the smallest scale, so that the rounded count of steps,
    put behind the `k` blocks of smaller magnitudes, is the rank; a count that
    is rounded up to `2 ^ 53` is the first rank of the next block. -/
def ofRatio (negative : Bool) (num den : Nat) : Double :=
  if num = 0 ∨ den = 0 then zero negative
  else
    let scaled := num * 2 ^ unitPlaces
    let least := scaled.log2 - den.log2 - 53
    let k := if 2 ^ 53 * (den * 2 ^ least) ≤ scaled then least + 1 else least
    ofRank negative (k * 2 ^ 52 + roundedQuotient scaled (den * 2 ^ k))

/-- The whole number, rounded. -/
def ofNat (n : Nat) : Double := ofRatio false n 1

/-- The integer, rounded. -/
def ofInt (n : Int) : Double := ofRatio (n < 0) n.natAbs 1

/-- The number `digits * 10 ^ exponent`, correctly rounded.  A number of at
    least `10 ^ 310` is infinite and one below `10 ^ -330` is zero, so that the
    power of ten never has to be larger than that. -/
def ofDecimal (negative : Bool) (digits : Nat) (exponent : Int) : Double :=
  let position := exponent + (Nat.toDigits 10 digits).length
  if digits = 0 then zero negative
  else if 310 < position then .infinite negative
  else if position < -330 then zero negative
  else if 0 ≤ exponent then ofRatio negative (digits * 10 ^ exponent.toNat) 1
  else ofRatio negative digits (10 ^ (-exponent).toNat)

/-- The same magnitude with the other sign. -/
def neg : Double → Double
  | .nan => .nan
  | .infinite s => .infinite !s
  | .finite s r => .finite (!s) r

/-- The product, rounded. -/
def mul : Double → Double → Double
  | .finite s a, .finite t b =>
      ofRatio (s != t) (units a * units b) (2 ^ (2 * unitPlaces))
  | .infinite s, .infinite t => .infinite (s != t)
  | .infinite s, .finite t r => if r.val = 0 then .nan else .infinite (s != t)
  | .finite s r, .infinite t => if r.val = 0 then .nan else .infinite (s != t)
  | _, _ => .nan

/-- The quotient, rounded. -/
def div : Double → Double → Double
  | .finite s a, .finite t b =>
      if b.val = 0 then (if a.val = 0 then .nan else .infinite (s != t))
      else ofRatio (s != t) (units a) (units b)
  | .finite s _, .infinite t => zero (s != t)
  | .infinite s, .finite t _ => .infinite (s != t)
  | _, _ => .nan

/-- The signed count of units of a finite number. -/
def signedUnits (negative : Bool) (rank : Nat) : Int :=
  if negative then -(units rank : Int) else units rank

/-- The order of two numbers, `none` if one of them is NaN. -/
def order : Double → Double → Option Ordering
  | .nan, _ => none
  | _, .nan => none
  | .infinite s, .infinite t => some (compare t s)
  | .infinite s, .finite _ _ => some (if s then .lt else .gt)
  | .finite _ _, .infinite t => some (if t then .gt else .lt)
  | .finite s a, .finite t b => some (compare (signedUnits s a) (signedUnits t b))

/-- Equality of the standard: NaN differs from itself, the zeros are equal. -/
def sameValue (a b : Double) : Bool := order a b == some .eq

end Double

end RecordFilter
