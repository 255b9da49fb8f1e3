import RecordFilter.Value.Basic

/-! # The order of values

    The order in which conditions compare values.  Two numbers compare by the
    numbers they stand for, whatever their types; other values compare within
    their type only.  Integers of both widths and floating point numbers have
    orders of their own, and every other pair of numbers is compared as
    decimals. -/

namespace RecordFilter.Value

/-- The exact number of a finite numeric value. -/
def toDecimal? : Value → Option Decimal
  | .int32 n => some (.ofInt n.toInt)
  | .int64 n => some (.ofInt n.toInt)
  | .decimal d => some d
  | .float x => Decimal.ofDouble? x
  | _ => none

/-- `false` comes before `true`. -/
def boolOrder : Bool → Bool → Ordering
  | false, true => .lt
  | true, false => .gt
  | _, _ => .eq

/-- The order of texts is the order of their code points, which is also that
    of their UTF-8 bytes. -/
def textOrder (a b : String) : Ordering := compare a b

/-- The order of two values, `none` if they do not compare. -/
def order (a b : Value) : Option Ordering :=
  match a, b with
  | .int32 m, .int32 n => some (compare m.toInt n.toInt)
  | .int32 m, .int64 n => some (compare m.toInt n.toInt)
  | .int64 m, .int32 n => some (compare m.toInt n.toInt)
  | .int64 m, .int64 n => some (compare m.toInt n.toInt)
  | .float x, .float y => x.order y
  | .text s, .text t => some (textOrder s t)
  | .bool p, .bool q => some (boolOrder p q)
  | .date d, .date e => some (d.order e)
  | .dateTime t, .dateTime u => some (t.order u)
  | a, b =>
      match a.toDecimal?, b.toDecimal? with
      | some d, some e => some (d.order e)
      | _, _ => none

end RecordFilter.Value
