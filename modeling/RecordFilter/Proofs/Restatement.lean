import RecordFilter.Proofs.Alignment
import RecordFilter.Proofs.ExactNumbers

/-! # Numbers restated at other types

    The finite values of the four numeric types are one total order, that of the rational
    numbers they stand for.  So a number may be restated at any of these types without a
    change to how it compares with another number, or to what it is not comparable with.

    Infinities are the exception: a floating point number is ordered against them, and no
    other value is comparable with one (`order_infinite`).  No number is equal to one, so
    questions of equality are not concerned (`equal_congr`).  Predicates and records in which
    numbers are restated answer alike (`evaluate_restated`), unless a number becomes a floating
    point number or ceases to be one where its order to an infinity is asked for. -/

namespace RecordFilter

namespace Value

/-- The value is a finite number. -/
def IsNumber (v : Value) : Prop := ∃ q, v.rational? = some q

/-- The value is a floating point number. -/
def IsFloat (v : Value) : Prop := v.fieldType = .float

/-- The value is an infinity. -/
def IsInfinite (v : Value) : Prop := ∃ negative, v = .float (.infinite negative)

/-- A value in place of another: itself, or the same number at any numeric type. -/
def Restates (v w : Value) : Prop := v = w ∨ ∃ q, v.rational? = some q ∧ w.rational? = some q

/-- The one value comes before the other or is equal to it. -/
def AtMost (a b : Value) : Prop := a.order b = some .lt ∨ a.order b = some .eq

/-! ## The total order -/

/-- Between finite numbers the order is that of the rationals that they are. -/
theorem atMost_iff {a b : Value} {p q : ℚ} (ha : a.rational? = some p)
    (hb : b.rational? = some q) : a.AtMost b ↔ p ≤ q := by
  rw [AtMost, order_eq_compare ha hb, Option.some.injEq, Option.some.injEq, compare_lt_iff_lt,
    compare_eq_iff_eq, le_iff_lt_or_eq]

/-- **NUMBERS ARE TOTALLY ORDERED** across their types. -/
theorem atMost_total {a b : Value} (ha : a.IsNumber) (hb : b.IsNumber) :
    a.AtMost b ∨ b.AtMost a := by
  obtain ⟨p, hp⟩ := ha
  obtain ⟨q, hq⟩ := hb
  rw [atMost_iff hp hq, atMost_iff hq hp]
  exact le_total p q

theorem atMost_trans {a b c : Value} (ha : a.IsNumber) (hb : b.IsNumber) (hc : c.IsNumber)
    (hab : a.AtMost b) (hbc : b.AtMost c) : a.AtMost c := by
  obtain ⟨p, hp⟩ := ha
  obtain ⟨q, hq⟩ := hb
  obtain ⟨s, hs⟩ := hc
  rw [atMost_iff hp hq] at hab
  rw [atMost_iff hq hs] at hbc
  exact (atMost_iff hp hs).mpr (hab.trans hbc)

theorem order_eq_of_atMost {a b : Value} (ha : a.IsNumber) (hb : b.IsNumber) (hab : a.AtMost b)
    (hba : b.AtMost a) : a.order b = some .eq := by
  obtain ⟨p, hp⟩ := ha
  obtain ⟨q, hq⟩ := hb
  rw [atMost_iff hp hq] at hab
  rw [atMost_iff hq hp] at hba
  rw [order_eq_compare hp hq, compare_eq_iff_eq.mpr (hab.antisymm hba)]

/-! ## What numbers are compared with -/

/-- A number has no order with what is none. -/
theorem order_of_not_numeric {u v : Value} {q : ℚ} (hu : u.rational? = some q)
    (hv : v.isNumeric = false) : u.order v = none := by
  have hdecimals : u.order v = decimalOrder u v := by
    cases v with
    | text s =>
        cases u with
        | text t => exact nomatch hu
        | _ => rfl
    | bool b =>
        cases u with
        | bool c => exact nomatch hu
        | _ => rfl
    | date d =>
        cases u with
        | date e => exact nomatch hu
        | _ => rfl
    | dateTime t =>
        cases u with
        | dateTime t' => exact nomatch hu
        | _ => rfl
    | _ => exact nomatch hv
  -- what is no number has no decimal to be compared by
  have hnone : v.toDecimal? = none := by
    cases v with
    | int32 n => exact nomatch hv
    | int64 n => exact nomatch hv
    | decimal d => exact nomatch hv
    | float x => exact nomatch hv
    | _ => rfl
  rw [hdecimals, decimalOrder, hnone]
  cases u.toDecimal? <;> rfl

/-- No number has an order with what is not a number. -/
theorem order_nan {u : Value} {q : ℚ} (hu : u.rational? = some q) :
    u.order (.float .nan) = none := by
  cases u with
  | int32 n => rfl
  | int64 n => rfl
  | decimal d => rfl
  | float x => cases x <;> rfl
  | _ => exact nomatch hu

/-- **INFINITIES ARE FOR FLOATING POINT NUMBERS**: no value of another type is comparable with
    one. -/
theorem order_infinite_of_not_isFloat {v : Value} (hv : ¬ v.IsFloat) (negative : Bool) :
    v.order (.float (.infinite negative)) = none
      ∧ order (.float (.infinite negative)) v = none := by
  have horder : v.order (.float (.infinite negative)) = none := by
    cases v with
    | float x => exact absurd rfl hv
    | _ => rfl
  exact ⟨horder, by rw [order_swap, horder]; rfl⟩

/-- Every finite floating point number lies between the infinities. -/
theorem order_infinite {u : Value} {q : ℚ} (hu : u.rational? = some q) (hfloat : u.IsFloat)
    (negative : Bool) :
    u.order (.float (.infinite negative)) = some (if negative then .gt else .lt) := by
  cases u with
  | float x =>
      cases x with
      | finite s rank => rfl
      | _ => cases hu
  | _ => cases hfloat

/-- No number is equal to an infinity. -/
theorem order_infinite_ne_eq {u : Value} {q : ℚ} (hu : u.rational? = some q) (negative : Bool) :
    u.order (.float (.infinite negative)) ≠ some .eq := by
  by_cases hfloat : u.IsFloat
  · rw [order_infinite hu hfloat]
    cases negative <;> decide
  · rw [(order_infinite_of_not_isFloat hfloat negative).1]
    decide

/-- A value is a number, or of another kind, or one of the data of floating point numbers that
    are no numbers. -/
theorem number_cases (v : Value) :
    v.IsNumber ∨ v.isNumeric = false ∨ v = .float .nan ∨ v.IsInfinite := by
  by_cases hnumeric : v.isNumeric = true
  · by_cases hfinite : v.IsFinite
    · exact Or.inl (exists_rational_iff.mpr ⟨hnumeric, hfinite⟩)
    · simp only [IsFinite, not_forall] at hfinite
      obtain ⟨x, rfl, hx⟩ := hfinite
      cases x with
      | nan => exact Or.inr (Or.inr (Or.inl rfl))
      | infinite s => exact Or.inr (Or.inr (Or.inr ⟨s, rfl⟩))
      | finite s rank => exact absurd rfl hx
  · exact Or.inr (Or.inl (Bool.eq_false_of_not_eq_true hnumeric))

/-! ## Restated numbers -/

/-- A number may be restated on the left, unless an infinity on the right tells floats from
    others. -/
theorem order_congr_left {u u' v : Value} (hu : u.Restates u')
    (hinfinite : v.IsInfinite → (u.IsFloat ↔ u'.IsFloat)) : u.order v = u'.order v := by
  rcases hu with rfl | ⟨q, hq, hq'⟩
  · rfl
  · rcases number_cases v with ⟨p, hp⟩ | hv | rfl | ⟨s, rfl⟩
    · rw [order_eq_compare hq hp, order_eq_compare hq' hp]
    · rw [order_of_not_numeric hq hv, order_of_not_numeric hq' hv]
    · rw [order_nan hq, order_nan hq']
    · -- both are ordered against the infinity, or neither is
      have hboth := hinfinite ⟨s, rfl⟩
      by_cases hfloat : u.IsFloat
      · rw [order_infinite hq hfloat, order_infinite hq' (hboth.mp hfloat)]
      · rw [(order_infinite_of_not_isFloat hfloat s).1,
          (order_infinite_of_not_isFloat (mt hboth.mpr hfloat) s).1]

theorem not_isInfinite_of_isNumber {v : Value} (h : v.IsNumber) : ¬ v.IsInfinite := by
  rintro ⟨s, rfl⟩
  obtain ⟨q, hq⟩ := h
  cases hq

/-- An infinity can only be restated as itself. -/
theorem eq_of_restates_infinite {u u' : Value} (hu : u.Restates u') (h : u'.IsInfinite) :
    u = u' := by
  rcases hu with rfl | ⟨q, -, hq'⟩
  · rfl
  · exact absurd h (not_isInfinite_of_isNumber ⟨q, hq'⟩)

/-- No number that meets an infinity becomes a floating point number or ceases to be one, where
    the values on the left take the place of each other, and so do those on the right. -/
def MeetAlike (u u' v v' : Value) : Prop :=
  (v.IsInfinite → (u.IsFloat ↔ u'.IsFloat)) ∧ (u.IsInfinite → (v.IsFloat ↔ v'.IsFloat))

/-- **RESTATED NUMBERS COMPARE ALIKE**, but for a number that is compared with an infinity and
    becomes a floating point number or ceases to be one. -/
theorem order_congr {u u' v v' : Value} (hu : u.Restates u') (hv : v.Restates v')
    (hmeet : MeetAlike u u' v v') : u.order v = u'.order v' := by
  have hright : u'.IsInfinite → (v.IsFloat ↔ v'.IsFloat) := by
    intro h
    obtain rfl := eq_of_restates_infinite hu h
    exact hmeet.2 h
  calc u.order v = u'.order v := order_congr_left hu hmeet.1
    _ = (v.order u').map Ordering.swap := order_swap v u'
    _ = (v'.order u').map Ordering.swap := by rw [order_congr_left hv hright]
    _ = u'.order v' := (order_swap v' u').symm

theorem order_eq_comm {u v : Value} : u.order v = some .eq ↔ v.order u = some .eq := by
  rw [order_swap v u]
  cases v.order u with
  | none => exact iff_of_false (by decide) (by decide)
  | some o => cases o <;> decide

/-- Equality allows every restatement on the left: no finite number is equal to an infinity. -/
theorem equal_congr_left {u u' v : Value} (hu : u.Restates u') :
    u.order v = some .eq ↔ u'.order v = some .eq := by
  by_cases hv : v.IsInfinite
  · obtain ⟨s, rfl⟩ := hv
    rcases hu with rfl | ⟨q, hq, hq'⟩
    · rfl
    · exact iff_of_false (order_infinite_ne_eq hq s) (order_infinite_ne_eq hq' s)
  · rw [order_congr_left hu fun h => absurd h hv]

/-- **RESTATED NUMBERS ARE EQUAL ALIKE**, to infinities and to all else. -/
theorem equal_congr {u u' v v' : Value} (hu : u.Restates u') (hv : v.Restates v') :
    (u.order v == some .eq) = (u'.order v' == some .eq) := by
  rw [Bool.eq_iff_iff, beq_iff_eq, beq_iff_eq, equal_congr_left hu, order_eq_comm,
    equal_congr_left hv, order_eq_comm]

/-- A comparison holds of restated numbers alike if an infinity can only meet them where no
    order is asked for. -/
theorem holds_congr {c : Comparison} {u u' v v' : Value} (hu : u.Restates u')
    (hv : v.Restates v') (hmeet : c.isOrdering = true → MeetAlike u u' v v') :
    c.holds (u.order v) = c.holds (u'.order v') := by
  by_cases hordering : c.isOrdering = true
  · rw [order_congr hu hv (hmeet hordering)]
  · cases c with
    | eq => exact equal_congr hu hv
    | ne => exact congrArg Bool.not (equal_congr hu hv)
    | _ => exact absurd rfl hordering

end Value

/-! ## Predicates and records -/

/-- A record in place of another, with numbers restated at other types. -/
def Record.Restates (r r' : Record) : Prop :=
  ∀ field, Option.Rel Value.Restates (r.field? field) (r'.field? field)

/-- Rows restate each other value by value. -/
theorem Record.restates_ofRow {row row' : Row}
    (h : List.Forall₂ (fun a b => a.1 = b.1 ∧ a.2.Restates b.2) row row') :
    (Record.ofRow row).Restates (Record.ofRow row') := by
  intro field
  show Option.Rel _ (row.lookup field) (row'.lookup field)
  induction h with
  | nil => exact .none
  | @cons a b row row' hab _ ih =>
      obtain ⟨hname, hvalue⟩ := hab
      rw [List.lookup_cons, List.lookup_cons, hname]
      cases field == b.1 with
      | true => exact .some hvalue
      | false => exact ih

/-- A field is absent from both records, or has a value in both that is restated. -/
theorem Record.Restates.field_cases {r r' : Record} (h : r.Restates r') (field : String) :
    (r.field? field = none ∧ r'.field? field = none)
      ∨ ∃ u u', r.field? field = some u ∧ r'.field? field = some u' ∧ u.Restates u' := by
  have hrel := h field
  cases hu : r.field? field with
  | none =>
      rw [hu] at hrel
      cases hu' : r'.field? field with
      | none => exact Or.inl ⟨rfl, rfl⟩
      | some u' =>
          rw [hu'] at hrel
          cases hrel
  | some u =>
      rw [hu] at hrel
      cases hu' : r'.field? field with
      | none =>
          rw [hu'] at hrel
          cases hrel
      | some u' =>
          rw [hu'] at hrel
          cases hrel with
          | some h => exact Or.inr ⟨u, u', rfl, rfl, h⟩

namespace Predicate

/-- A leaf in place of another, with numbers restated, where they are asked of two records: what
    asks for an order asks for none of a number that meets an infinity and becomes a floating
    point number or ceases to be one. -/
inductive RestatesAt (r r' : Record) : Predicate → Predicate → Prop where
  | comparison {c : Comparison} {field : String} {v v' : Value} :
      v.Restates v' →
      (c.isOrdering = true → ∀ u u', r.field? field = some u → r'.field? field = some u' →
        Value.MeetAlike u u' v v') →
      RestatesAt r r' (.comparison c field v) (.comparison c field v')
  | membership {negated : Bool} {field : String} {vs vs' : List Value} :
      List.Forall₂ Value.Restates vs vs' →
      RestatesAt r r' (.membership negated field vs) (.membership negated field vs')
  | absence {negated : Bool} {field : String} :
      RestatesAt r r' (.absence negated field) (.absence negated field)

theorem any_equal_congr {u u' : Value} {vs vs' : List Value} (hu : u.Restates u')
    (hvs : List.Forall₂ Value.Restates vs vs') :
    (vs.any fun v => u.order v == some .eq) = vs'.any fun v' => u'.order v' == some .eq := by
  induction hvs with
  | nil => rfl
  | cons hv _ ih => rw [List.any_cons, List.any_cons, ih, Value.equal_congr hu hv]

/-- Leaves answer alike of restated records. -/
theorem evaluate_eq_of_restatesAt {r r' : Record} (hr : r.Restates r') {p p' : Predicate}
    (hp : RestatesAt r r' p p') : p.evaluate r = p'.evaluate r' := by
  cases hp with
  | @comparison c field v v' hv hmeet =>
      rw [evaluate, evaluate]
      rcases hr.field_cases field with ⟨hu, hu'⟩ | ⟨u, u', hu, hu', huu'⟩
      · rw [hu, hu']
      · rw [hu, hu']
        exact Value.holds_congr huu' hv fun hordering => hmeet hordering u u' hu hu'
  | @membership negated field vs vs' hvs =>
      rw [evaluate, evaluate]
      rcases hr.field_cases field with ⟨hu, hu'⟩ | ⟨u, u', hu, hu', huu'⟩
      · rw [hu, hu']
        rfl
      · rw [hu, hu']
        -- membership asks for equality only, which every restatement keeps
        exact congrArg (negated != ·) (any_equal_congr huu' hvs)
  | @absence negated field =>
      rw [evaluate, evaluate]
      rcases hr.field_cases field with ⟨hu, hu'⟩ | ⟨u, u', hu, hu', -⟩
      · rw [hu, hu']
      · rw [hu, hu']
        rfl

/-- **RESTATED PREDICATES ANSWER ALIKE** of restated records. -/
theorem evaluate_restated {r r' : Record} {p p' : Predicate} (hr : r.Restates r')
    (hp : SameTree (RestatesAt r r') p p') : p.evaluate r = p'.evaluate r' :=
  evaluate_eq_of_sameTree (fun _ _ => evaluate_eq_of_restatesAt hr) hp

/-- **NUMBERS COMPARE EXACTLY**: the finite values of the numeric types stand for rational
    numbers and compare as these do, whatever their types; so they are one total order, and a
    number may be restated at another type, in a record or in a predicate, without a change
    to any answer, unless it goes over to floating point numbers or leaves them where its order
    to an infinity is asked for.  An infinity is ordered against floating point numbers only. -/
theorem numbers_compare_exactly :
    (∀ a b : Value, a.isNumeric = true → a.IsFinite → b.isNumeric = true → b.IsFinite →
        ∃ p q, a.rational? = some p ∧ b.rational? = some q ∧ a.order b = some (compare p q))
      ∧ (∀ a b : Value, a.IsNumber → b.IsNumber → a.AtMost b ∨ b.AtMost a)
      ∧ (∀ a b c : Value, a.IsNumber → b.IsNumber → c.IsNumber →
        a.AtMost b → b.AtMost c → a.AtMost c)
      ∧ (∀ a b : Value, a.IsNumber → b.IsNumber → a.AtMost b → b.AtMost a →
        a.order b = some .eq)
      ∧ (∀ (r r' : Record) (p p' : Predicate), r.Restates r' → SameTree (RestatesAt r r') p p' →
        p.evaluate r = p'.evaluate r')
      ∧ ∀ (v : Value) (negative : Bool),
        (v.IsNumber → v.IsFloat →
          v.order (.float (.infinite negative)) = some (if negative then .gt else .lt))
          ∧ (¬ v.IsFloat → v.order (.float (.infinite negative)) = none
            ∧ Value.order (.float (.infinite negative)) v = none) := by
  refine ⟨?_, fun a b => Value.atMost_total, fun a b c => Value.atMost_trans,
    fun a b => Value.order_eq_of_atMost, fun r r' p p' => evaluate_restated, ?_⟩
  · intro a b ha ha' hb hb'
    obtain ⟨p, hp⟩ := Value.exists_rational_iff.mpr ⟨ha, ha'⟩
    obtain ⟨q, hq⟩ := Value.exists_rational_iff.mpr ⟨hb, hb'⟩
    exact ⟨p, q, hp, hq, Value.order_eq_compare hp hq⟩
  · intro v negative
    refine ⟨?_, fun hv => Value.order_infinite_of_not_isFloat hv negative⟩
    rintro ⟨q, hq⟩ hfloat
    exact Value.order_infinite hq hfloat negative

/-- Next to `2 ^ 53`, where the floating point numbers have no `2 ^ 53 + 1`, an integer and a
    decimal with places of zeros are told apart from it alike; and `1` is the member of a set
    and differs from an infinity at whichever type. -/
theorem numbers_compare_exactly_beyond_floats :
    let one : Double := .finite false ⟨1023 * 2 ^ 52, by decide⟩
    let power : Double := .finite false ⟨1076 * 2 ^ 52, by decide⟩
    let hundredths : Decimal := { unscaled := 900719925474099300, scale := 2 }
    let r := Record.ofRow [("x", .int64 9007199254740993), ("y", .decimal (.ofInt 1))]
    let r' := Record.ofRow [("x", .decimal hundredths), ("y", .float one)]
    let unequal : Predicate := .comparison .ne "y" (.float (.infinite false))
    let p : Predicate := .compound .and [.comparison .gt "x" (.float power),
      .membership false "y" [.text "1", .int64 1], unequal]
    let p' : Predicate := .compound .and [.comparison .gt "x" (.int64 9007199254740992),
      .membership false "y" [.text "1", .int32 1], unequal]
    r.Restates r' ∧ SameTree (RestatesAt r r') p p' ∧ p.evaluate r = true
      ∧ p'.evaluate r' = true := by
  intro one power hundredths r r' unequal p p'
  have hone : one.toRat? = some 1 := by
    norm_num [one, Double.toRat?, Double.finiteRat, Double.significand, Double.shift,
      Double.unitPlaces]
  have hpower : power.toRat? = some 9007199254740992 := by
    norm_num [power, Double.toRat?, Double.finiteRat, Double.significand, Double.shift,
      Double.unitPlaces]
  have hhundredths : hundredths.toRat = 9007199254740993 := by
    norm_num [hundredths, Decimal.toRat]
  have hx : Value.Restates (.int64 9007199254740993) (.decimal hundredths) :=
    Or.inr ⟨9007199254740993, rfl, congrArg some hhundredths⟩
  have hy : Value.Restates (.decimal (.ofInt 1)) (.float one) :=
    Or.inr ⟨1, congrArg some (Decimal.toRat_ofInt 1), hone⟩
  have hr : r.Restates r' :=
    Record.restates_ofRow (.cons ⟨rfl, hx⟩ (.cons ⟨rfl, hy⟩ .nil))
  have hp : SameTree (RestatesAt r r') p p' := by
    refine .compound (.cons (.leaf (.comparison (Or.inr ⟨_, hpower, rfl⟩) ?_))
      (.cons (.leaf (.membership (.cons (Or.inl rfl) (.cons (Or.inr ⟨1, rfl, rfl⟩) .nil))))
        (.cons (.leaf (.comparison (Or.inl rfl) ?_)) .nil)))
    · -- neither of the two numbers is an infinity
      rintro - u u' hu -
      obtain rfl := Option.some.inj hu
      exact ⟨fun h => absurd h (Value.not_isInfinite_of_isNumber ⟨_, hpower⟩),
        fun h => absurd h (Value.not_isInfinite_of_isNumber ⟨_, rfl⟩)⟩
    · -- no order is asked for, so the infinity does no harm
      intro hordering
      cases hordering
  have hanswers : p.evaluate r = p'.evaluate r' :=
    numbers_compare_exactly.2.2.2.2.1 r r' p p' hr hp
  have htrue : p'.evaluate r' = true := by decide +kernel
  exact ⟨hr, hp, hanswers.trans htrue, htrue⟩

/-- Below an infinity, `1` is found as a floating point number and not as an integer. -/
theorem numbers_compare_exactly_not_at_infinity :
    let one : Double := .finite false ⟨1023 * 2 ^ 52, by decide⟩
    let p : Predicate := .comparison .lt "x" (.float (.infinite false))
    (Record.ofRow [("x", .int32 1)]).Restates (Record.ofRow [("x", .float one)])
      ∧ p.evaluate (Record.ofRow [("x", .int32 1)]) = false
      ∧ p.evaluate (Record.ofRow [("x", .float one)]) = true := by
  intro one p
  have hone : one.toRat? = some 1 := by
    norm_num [one, Double.toRat?, Double.finiteRat, Double.significand, Double.shift,
      Double.unitPlaces]
  exact ⟨Record.restates_ofRow (.cons ⟨rfl, Or.inr ⟨1, rfl, hone⟩⟩ .nil), by decide, by decide⟩

end Predicate

end RecordFilter
