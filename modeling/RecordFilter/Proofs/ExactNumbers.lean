import Mathlib.Algebra.Order.Field.Power
import Mathlib.Data.Rat.Cast.Order
import Mathlib.Order.Compare
import Mathlib.Tactic.FieldSimp
import Mathlib.Tactic.NormNum
import Mathlib.Tactic.Positivity
import Mathlib.Tactic.Ring
import RecordFilter.Proofs.Building
import RecordFilter.Value.Order

/-! # The numbers that values stand for

    Every finite value of a numeric type stands for a rational number: an integer for
    itself, a decimal for its digits at their scale, a floating point number for its
    significand at its exponent.  Values are compared in several ways, within a type, between
    integers of two widths, and otherwise as decimals; all of them give the order of the
    rational numbers (`Value.order_eq_compare`), so the ways agree wherever two of them meet.

    The order of any two values is turned round when they change places
    (`Value.order_swap`). -/

namespace RecordFilter

theorem compare_intCast (m n : Int) : compare (m : ℚ) (n : ℚ) = compare m n := by
  rw [← cmp_eq_compare, ← cmp_eq_compare]
  exact Int.cast_strictMono.cmp_map_eq m n

/-- Every number has a digit, zero too. -/
theorem digitCount_pos (n : Nat) : 0 < digitCount n := List.length_pos_iff.mpr (digitsOf_ne_nil n)

/-- A number other than zero is at least the power of ten of its first digit. -/
theorem pow_le_of_digitCount {n : Nat} (hn : n ≠ 0) : 10 ^ (digitCount n - 1) ≤ n := by
  by_contra h
  have hpos := digitCount_pos n
  by_cases hone : digitCount n - 1 = 0
  · rw [hone, Nat.pow_zero] at h
    omega
  · have := (digitCount_le_iff (Nat.pos_of_ne_zero hone)).mpr (Nat.lt_of_not_le h)
    omega

/-- A number is less than ten to the count of its digits. -/
theorem lt_pow_digitCount (n : Nat) : n < 10 ^ digitCount n :=
  (digitCount_le_iff (digitCount_pos n)).mp (Nat.le_refl _)

namespace Decimal

/-- The rational number of a decimal. -/
def toRat (d : Decimal) : ℚ := d.unscaled * (10 : ℚ) ^ (-d.scale)

/-! ### Magnitudes -/

theorem pow_scale_pos (d : Decimal) : (0 : ℚ) < 10 ^ (-d.scale) := zpow_pos (by norm_num) _

/-- The magnitude of a decimal is that of its digits at its scale. -/
theorem abs_toRat (d : Decimal) : |d.toRat| = d.unscaled.natAbs * (10 : ℚ) ^ (-d.scale) := by
  rw [toRat, abs_mul, abs_of_pos d.pow_scale_pos, Nat.cast_natAbs, Int.cast_abs]

/-- The digits at a common scale stand for the same magnitude. -/
theorem abs_toRat_eq_rescaled {d : Decimal} {scale : Int} (h : d.scale ≤ scale) :
    |d.toRat| = d.rescaled scale * (10 : ℚ) ^ (-scale) := by
  have hscale : -d.scale = ((scale - d.scale).toNat : Int) + -scale := by omega
  rw [abs_toRat, rescaled, hscale, zpow_add₀ (by norm_num : (10 : ℚ) ≠ 0), zpow_natCast,
    ← mul_assoc]
  push_cast
  rfl

/-- The first digit of a magnitude stands at its position. -/
theorem pow_le_abs_toRat {d : Decimal} (h : d.unscaled ≠ 0) :
    (10 : ℚ) ^ (d.position - 1) ≤ |d.toRat| := by
  have hn : d.unscaled.natAbs ≠ 0 := Int.natAbs_ne_zero.mpr h
  have hcount := digitCount_pos d.unscaled.natAbs
  have hposition : d.position - 1
      = ((digitCount d.unscaled.natAbs - 1 : Nat) : Int) + -d.scale := by
    rw [position]
    omega
  have hle : ((10 ^ (digitCount d.unscaled.natAbs - 1) : Nat) : ℚ) ≤ d.unscaled.natAbs :=
    Nat.cast_le.mpr (pow_le_of_digitCount hn)
  rw [abs_toRat, hposition, zpow_add₀ (by norm_num : (10 : ℚ) ≠ 0), zpow_natCast]
  push_cast at hle
  exact mul_le_mul_of_nonneg_right hle d.pow_scale_pos.le

/-- The magnitude of a decimal is below the power of ten of its first digit. -/
theorem abs_toRat_lt_pow (d : Decimal) : |d.toRat| < (10 : ℚ) ^ d.position := by
  have hlt : (d.unscaled.natAbs : ℚ) < ((10 ^ digitCount d.unscaled.natAbs : Nat) : ℚ) :=
    Nat.cast_lt.mpr (lt_pow_digitCount _)
  rw [abs_toRat, position, sub_eq_add_neg, zpow_add₀ (by norm_num : (10 : ℚ) ≠ 0), zpow_natCast]
  push_cast at hlt
  exact mul_lt_mul_of_pos_right hlt d.pow_scale_pos

/-- A first digit that stands further to the left makes the greater magnitude. -/
theorem abs_toRat_lt_of_position {a b : Decimal} (hb : b.unscaled ≠ 0)
    (h : a.position < b.position) : |a.toRat| < |b.toRat| :=
  calc |a.toRat| < (10 : ℚ) ^ a.position := a.abs_toRat_lt_pow
    _ ≤ (10 : ℚ) ^ (b.position - 1) := zpow_le_zpow_right₀ (by norm_num) (by omega)
    _ ≤ |b.toRat| := pow_le_abs_toRat hb

/-- Magnitudes compare as rationals, though no power of ten is built that is larger than the
    digits at hand. -/
theorem magnitudeOrder_eq_compare {a b : Decimal} (ha : a.unscaled ≠ 0) (hb : b.unscaled ≠ 0) :
    magnitudeOrder a b = compare |a.toRat| |b.toRat| := by
  rw [magnitudeOrder]
  cases hposition : compare a.position b.position with
  | lt =>
      have hlt := abs_toRat_lt_of_position hb (compare_lt_iff_lt.mp hposition)
      exact (compare_lt_iff_lt.mpr hlt).symm
  | gt =>
      have hlt := abs_toRat_lt_of_position ha (compare_gt_iff_gt.mp hposition)
      exact (compare_gt_iff_gt.mpr hlt).symm
  | eq =>
      -- with the first digits in one place, the digits at a common scale decide
      have hpow : (0 : ℚ) < 10 ^ (-max a.scale b.scale) := zpow_pos (by norm_num) _
      rw [abs_toRat_eq_rescaled (le_max_left a.scale b.scale),
        abs_toRat_eq_rescaled (le_max_right a.scale b.scale), ← cmp_eq_compare, ← cmp_eq_compare,
        cmp_mul_pos_right hpow]
      exact (Nat.strictMono_cast.cmp_map_eq _ _).symm

/-! ### Signs -/

theorem toRat_pos {d : Decimal} (h : 0 < d.unscaled) : 0 < d.toRat :=
  mul_pos (Int.cast_pos.mpr h) d.pow_scale_pos

theorem toRat_neg {d : Decimal} (h : d.unscaled < 0) : d.toRat < 0 :=
  mul_neg_of_neg_of_pos (Int.cast_lt_zero.mpr h) d.pow_scale_pos

theorem toRat_zero {d : Decimal} (h : d.unscaled = 0) : d.toRat = 0 := by
  rw [toRat, h, Int.cast_zero, zero_mul]

/-- A lesser sign makes the lesser number. -/
theorem toRat_lt_of_sign {a b : Decimal} (h : a.unscaled.sign < b.unscaled.sign) :
    a.toRat < b.toRat := by
  rcases lt_trichotomy a.unscaled 0 with ha | ha | ha
  · rcases lt_trichotomy b.unscaled 0 with hb | hb | hb
    · rw [Int.sign_eq_neg_one_of_neg ha, Int.sign_eq_neg_one_of_neg hb] at h
      exact absurd h (by decide)
    · rw [toRat_zero hb]
      exact toRat_neg ha
    · exact (toRat_neg ha).trans (toRat_pos hb)
  · rw [ha] at h
    rw [toRat_zero ha]
    exact toRat_pos (Int.sign_pos_iff.mp h)
  · rw [Int.sign_eq_one_of_pos ha] at h
    have hb : b.unscaled.sign ≤ 1 := by
      rcases Int.sign_trichotomy b.unscaled with hb | hb | hb <;> omega
    omega

/-- **DECIMALS COMPARE AS RATIONALS**, whatever their scales. -/
theorem order_eq_compare (a b : Decimal) : order a b = compare a.toRat b.toRat := by
  rw [order]
  cases hsign : compare a.unscaled.sign b.unscaled.sign with
  | lt =>
      have hlt := toRat_lt_of_sign (compare_lt_iff_lt.mp hsign)
      exact (compare_lt_iff_lt.mpr hlt).symm
  | gt =>
      have hlt := toRat_lt_of_sign (compare_gt_iff_gt.mp hsign)
      exact (compare_gt_iff_gt.mpr hlt).symm
  | eq =>
      have hsame : a.unscaled.sign = b.unscaled.sign := compare_eq_iff_eq.mp hsign
      dsimp only
      rcases lt_trichotomy a.unscaled 0 with ha | ha | ha
      · have hb : b.unscaled < 0 := by
          rw [Int.sign_eq_neg_one_of_neg ha] at hsame
          exact Int.neg_of_sign_eq_neg_one hsame.symm
        -- of two negative numbers the one with the greater magnitude is less
        have hanti : StrictAnti fun q : ℚ => -q := fun _ _ h => neg_lt_neg h
        rw [if_neg ha.ne, if_neg (Int.lt_asymm ha), magnitudeOrder_eq_compare hb.ne ha.ne,
          abs_of_neg (toRat_neg ha), abs_of_neg (toRat_neg hb), ← cmp_eq_compare,
          ← cmp_eq_compare]
        exact hanti.cmp_map_eq b.toRat a.toRat
      · have hb : b.unscaled = 0 := by
          rw [ha, Int.sign_zero] at hsame
          exact Int.sign_eq_zero_iff_zero.mp hsame.symm
        rw [if_pos ha, toRat_zero ha, toRat_zero hb]
        exact (compare_eq_iff_eq.mpr rfl).symm
      · have hb : 0 < b.unscaled := by
          rw [Int.sign_eq_one_of_pos ha] at hsame
          exact Int.pos_of_sign_eq_one hsame.symm
        rw [if_neg ha.ne', if_pos ha, magnitudeOrder_eq_compare ha.ne' hb.ne',
          abs_of_pos (toRat_pos ha), abs_of_pos (toRat_pos hb)]

/-! ### Decimals of other numbers -/

/-- An integer as a decimal is this integer. -/
theorem toRat_ofInt (n : Int) : (ofInt n).toRat = n := by
  rw [toRat, ofInt, neg_zero, zpow_zero, mul_one]

theorem toRat_neg_eq (d : Decimal) : d.neg.toRat = -d.toRat := by
  rw [toRat, toRat, neg, Int.cast_neg, neg_mul]

end Decimal

namespace Double

/-- The rational number of a finite datum: its significand at its exponent of two, behind
    its sign. -/
def finiteRat (negative : Bool) (rank : Nat) : ℚ :=
  (if negative then -1 else 1)
    * (significand rank * (2 : ℚ) ^ ((shift rank : Int) - unitPlaces))

/-- The rational number of a finite datum, `none` for the others. -/
def toRat? : Double → Option ℚ
  | .finite negative rank => some (finiteRat negative rank)
  | _ => none

/-- A count of units is a rational number at the common exponent. -/
theorem finiteRat_eq_signedUnits (negative : Bool) (rank : Nat) :
    finiteRat negative rank = signedUnits negative rank * (2 : ℚ) ^ (-(unitPlaces : Int)) := by
  have hunits : (units rank : ℚ) * (2 : ℚ) ^ (-(unitPlaces : Int))
      = significand rank * (2 : ℚ) ^ ((shift rank : Int) - unitPlaces) := by
    rw [units, sub_eq_add_neg, zpow_add₀ (by norm_num : (2 : ℚ) ≠ 0), zpow_natCast, ← mul_assoc]
    push_cast
    rfl
  cases negative with
  | true =>
      rw [finiteRat, ← hunits, signedUnits, if_pos rfl, if_pos rfl]
      push_cast
      ring
  | false =>
      rw [finiteRat, ← hunits, signedUnits, if_neg Bool.false_ne_true,
        if_neg Bool.false_ne_true, one_mul]
      push_cast
      rfl

/-- **FINITE DATA COMPARE AS RATIONALS**; the two zeros are one number. -/
theorem order_eq_compare {x y : Double} {p q : ℚ} (hx : x.toRat? = some p)
    (hy : y.toRat? = some q) : order x y = some (compare p q) := by
  cases x with
  | nan => exact nomatch hx
  | infinite s => exact nomatch hx
  | finite s a =>
      cases y with
      | nan => exact nomatch hy
      | infinite t => exact nomatch hy
      | finite t b =>
          obtain rfl := Option.some.inj hx
          obtain rfl := Option.some.inj hy
          have hpow : (0 : ℚ) < 2 ^ (-(unitPlaces : Int)) := zpow_pos (by norm_num) _
          rw [order, finiteRat_eq_signedUnits, finiteRat_eq_signedUnits, ← cmp_eq_compare (_ * _),
            cmp_mul_pos_right hpow, cmp_eq_compare, compare_intCast]

end Double

namespace Decimal

/-- **FLOATING POINT NUMBERS BECOME DECIMALS EXACTLY.** -/
theorem toRat_of_ofDouble {x : Double} {p : ℚ} (hx : x.toRat? = some p) :
    ∃ d, ofDouble? x = some d ∧ d.toRat = p := by
  cases x with
  | nan => exact nomatch hx
  | infinite s => exact nomatch hx
  | finite s rank =>
      obtain rfl := Option.some.inj hx
      refine ⟨_, rfl, ?_⟩
      have hmagnitude : ∀ d : Decimal, d.toRat = Double.finiteRat false rank →
          (if s then d.neg else d).toRat = Double.finiteRat s rank := by
        intro d hd
        cases s with
        | false => exact hd
        | true =>
            rw [if_pos rfl, toRat_neg_eq, hd, Double.finiteRat, Double.finiteRat, if_pos rfl,
              if_neg Bool.false_ne_true, one_mul, neg_mul, one_mul]
      apply hmagnitude
      rw [Double.finiteRat, if_neg Bool.false_ne_true, one_mul]
      split_ifs with hshift
      · have hwhole : ((Double.shift rank : Int) - Double.unitPlaces)
            = ((Double.shift rank - Double.unitPlaces : Nat) : Int) := by omega
        rw [toRat_ofInt, hwhole, zpow_natCast]
        push_cast
        rfl
      · -- a place of two behind the point is a place of ten with a five
        have hplaces : ((Double.shift rank : Int) - Double.unitPlaces)
            = -((Double.unitPlaces - Double.shift rank : Nat) : Int) := by omega
        have hten : (10 : ℚ) = 5 * 2 := by norm_num
        have hfive : (5 : ℚ) ^ (Double.unitPlaces - Double.shift rank) ≠ 0 := by positivity
        rw [toRat, hplaces, zpow_neg, zpow_neg, zpow_natCast, zpow_natCast, hten, mul_pow]
        push_cast
        field_simp

end Decimal

namespace Value

/-- The rational number that a value stands for, `none` if it is no number or no finite one. -/
def rational? : Value → Option ℚ
  | .int32 n => some n.toInt
  | .int64 n => some n.toInt
  | .decimal d => some d.toRat
  | .float x => x.toRat?
  | _ => none

/-- The values that stand for a number are the finite ones of the numeric types. -/
theorem exists_rational_iff {v : Value} :
    (∃ q, v.rational? = some q) ↔ v.isNumeric = true ∧ v.IsFinite := by
  cases v with
  | int32 n => exact iff_of_true ⟨_, rfl⟩ ⟨rfl, fun x hx => nomatch hx⟩
  | int64 n => exact iff_of_true ⟨_, rfl⟩ ⟨rfl, fun x hx => nomatch hx⟩
  | decimal d => exact iff_of_true ⟨_, rfl⟩ ⟨rfl, fun x hx => nomatch hx⟩
  | float x =>
      cases x with
      | finite s rank => exact iff_of_true ⟨_, rfl⟩ ⟨rfl, fun x hx => (Value.float.inj hx) ▸ rfl⟩
      | nan => exact iff_of_false (fun ⟨_, h⟩ => nomatch h) fun h => nomatch h.2 _ rfl
      | infinite s => exact iff_of_false (fun ⟨_, h⟩ => nomatch h) fun h => nomatch h.2 _ rfl
  | text s => exact iff_of_false (fun ⟨_, h⟩ => nomatch h) fun h => nomatch h.1
  | bool b => exact iff_of_false (fun ⟨_, h⟩ => nomatch h) fun h => nomatch h.1
  | date d => exact iff_of_false (fun ⟨_, h⟩ => nomatch h) fun h => nomatch h.1
  | dateTime t => exact iff_of_false (fun ⟨_, h⟩ => nomatch h) fun h => nomatch h.1

/-- A number becomes a decimal exactly. -/
theorem exists_toDecimal_of_rational {v : Value} {q : ℚ} (h : v.rational? = some q) :
    ∃ d, v.toDecimal? = some d ∧ d.toRat = q := by
  cases v with
  | int32 n => exact ⟨_, rfl, (Decimal.toRat_ofInt _).trans (Option.some.inj h)⟩
  | int64 n => exact ⟨_, rfl, (Decimal.toRat_ofInt _).trans (Option.some.inj h)⟩
  | decimal d => exact ⟨d, rfl, Option.some.inj h⟩
  | float x => exact Decimal.toRat_of_ofDouble h
  | _ => exact nomatch h

/-- The order of two values as decimals, the way of all pairs of types that have no order of
    their own. -/
def decimalOrder (a b : Value) : Option Ordering :=
  match a.toDecimal?, b.toDecimal? with
  | some d, some e => some (d.order e)
  | _, _ => none

/-- Values that convert to decimals are ordered as the numbers that these are. -/
theorem decimalOrder_eq_compare {a b : Value} {d e : Decimal} (ha : a.toDecimal? = some d)
    (hb : b.toDecimal? = some e) : decimalOrder a b = some (compare d.toRat e.toRat) := by
  rw [decimalOrder, ha, hb, ← Decimal.order_eq_compare]

/-- **NUMBERS COMPARE AS RATIONALS**, whatever their types and whichever way is taken to
    compare them. -/
theorem order_eq_compare {a b : Value} {p q : ℚ} (ha : a.rational? = some p)
    (hb : b.rational? = some q) : a.order b = some (compare p q) := by
  obtain ⟨d, hd, rfl⟩ := exists_toDecimal_of_rational ha
  obtain ⟨e, he, rfl⟩ := exists_toDecimal_of_rational hb
  cases a with
  | int32 m =>
      cases b with
      | int32 n => rw [← Option.some.inj ha, ← Option.some.inj hb, compare_intCast]; rfl
      | int64 n => rw [← Option.some.inj ha, ← Option.some.inj hb, compare_intCast]; rfl
      | _ => exact decimalOrder_eq_compare hd he
  | int64 m =>
      cases b with
      | int32 n => rw [← Option.some.inj ha, ← Option.some.inj hb, compare_intCast]; rfl
      | int64 n => rw [← Option.some.inj ha, ← Option.some.inj hb, compare_intCast]; rfl
      | _ => exact decimalOrder_eq_compare hd he
  | decimal m => cases b <;> exact decimalOrder_eq_compare hd he
  | float x =>
      cases b with
      | float y => exact Double.order_eq_compare ha hb
      | _ => exact decimalOrder_eq_compare hd he
  | _ => exact nomatch ha

end Value

/-! ## Values that change places -/

theorem Date.order_swap (d e : Date) : e.order d = (d.order e).swap := by
  rw [order, order, Ordering.swap_then, Ordering.swap_then, ← Std.OrientedOrd.eq_swap,
    ← Std.OrientedOrd.eq_swap, ← Std.OrientedOrd.eq_swap]

theorem TimeOfDay.order_swap (t u : TimeOfDay) : u.order t = (t.order u).swap := by
  rw [order, order, Ordering.swap_then, Ordering.swap_then, Ordering.swap_then,
    ← Std.OrientedOrd.eq_swap, ← Std.OrientedOrd.eq_swap, ← Std.OrientedOrd.eq_swap,
    ← Std.OrientedOrd.eq_swap]

theorem DateTime.order_swap (t u : DateTime) : u.order t = (t.order u).swap := by
  rw [order, order, Ordering.swap_then, ← Date.order_swap, ← TimeOfDay.order_swap]

/-- Doubles are ordered from either side, or from neither. -/
theorem Double.order_swap (x y : Double) : y.order x = (x.order y).map Ordering.swap := by
  cases x with
  | nan => cases y <;> rfl
  | infinite s =>
      cases y with
      | nan => rfl
      | infinite t => cases s <;> cases t <;> rfl
      | finite t b => cases s <;> rfl
  | finite s a =>
      cases y with
      | nan => rfl
      | infinite t => cases t <;> rfl
      | finite t b => exact congrArg some Std.OrientedOrd.eq_swap

theorem Decimal.order_swap (d e : Decimal) : e.order d = (d.order e).swap := by
  rw [order_eq_compare, order_eq_compare]
  exact Std.OrientedOrd.eq_swap

namespace Value

/-- Two values that are compared as decimals whichever comes first. -/
theorem order_swap_of_decimalOrder {a b : Value} (h : a.order b = decimalOrder a b)
    (h' : b.order a = decimalOrder b a) : b.order a = (a.order b).map Ordering.swap := by
  rw [h, h', decimalOrder, decimalOrder]
  cases a.toDecimal? with
  | none => cases b.toDecimal? <;> rfl
  | some d =>
      cases b.toDecimal? with
      | none => rfl
      | some e => exact congrArg some (Decimal.order_swap d e)

/-- **THE ORDER TURNS ROUND** when two values change places. -/
theorem order_swap (a b : Value) : b.order a = (a.order b).map Ordering.swap := by
  cases a with
  | int32 m =>
      cases b with
      | int32 n => exact congrArg some Std.OrientedOrd.eq_swap
      | int64 n => exact congrArg some Std.OrientedOrd.eq_swap
      | _ => exact order_swap_of_decimalOrder rfl rfl
  | int64 m =>
      cases b with
      | int32 n => exact congrArg some Std.OrientedOrd.eq_swap
      | int64 n => exact congrArg some Std.OrientedOrd.eq_swap
      | _ => exact order_swap_of_decimalOrder rfl rfl
  | decimal d => cases b <;> exact order_swap_of_decimalOrder rfl rfl
  | float x =>
      cases b with
      | float y => exact Double.order_swap x y
      | _ => exact order_swap_of_decimalOrder rfl rfl
  | text s =>
      cases b with
      | text t => exact congrArg some Std.OrientedOrd.eq_swap
      | _ => exact order_swap_of_decimalOrder rfl rfl
  | bool p =>
      cases b with
      | bool q => cases p <;> cases q <;> rfl
      | _ => exact order_swap_of_decimalOrder rfl rfl
  | date d =>
      cases b with
      | date e => exact congrArg some (Date.order_swap d e)
      | _ => exact order_swap_of_decimalOrder rfl rfl
  | dateTime t =>
      cases b with
      | dateTime u => exact congrArg some (DateTime.order_swap t u)
      | _ => exact order_swap_of_decimalOrder rfl rfl

end Value

end RecordFilter
