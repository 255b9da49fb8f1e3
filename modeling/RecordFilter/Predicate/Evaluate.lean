import RecordFilter.Predicate.Basic
import RecordFilter.Record
import RecordFilter.Value.Order

/-! # Evaluation

    Whether a record meets a predicate.  No comparison holds of an absent
    field, not even `ne`; a set does not hold an absent field either, so an
    absent field is outside of every set.  `Predicate.evaluate_compound` says
    that a node joins the answers of its children. -/

namespace RecordFilter.Predicate

/-- The field has a value that is equal to one of a set. -/
def isAmong (u? : Option Value) (values : List Value) : Bool :=
  match u? with
  | none => false
  | some u => values.any fun v => u.order v == some .eq

mutual

/-- The record meets the predicate. -/
def evaluate (r : Record) : Predicate → Bool
  | .comparison c field value =>
      match r.field? field with
      | none => false
      | some u => c.holds (u.order value)
  | .membership negated field values => negated != isAmong (r.field? field) values
  | .absence negated field => negated != (r.field? field).isNone
  | .compound k children => k.fold (evaluateEach r children)

/-- The answers of predicates, one by one. -/
def evaluateEach (r : Record) : List Predicate → List Bool
  | [] => []
  | p :: rest => p.evaluate r :: evaluateEach r rest

end

theorem evaluateEach_eq_map (r : Record) (ps : List Predicate) :
    evaluateEach r ps = ps.map (evaluate r) := by
  induction ps with
  | nil => rfl
  | cons p rest ih => simp [evaluateEach, ih]

/-- A node joins the answers of its children. -/
theorem evaluate_compound (r : Record) (k : Combinator) (children : List Predicate) :
    evaluate r (.compound k children) = k.fold (children.map (evaluate r)) := by
  rw [evaluate, evaluateEach_eq_map]

/-- The records that meet a predicate, in their order. -/
def select (p : Predicate) (records : List Record) : List Record :=
  records.filter fun r => p.evaluate r

end RecordFilter.Predicate
