import RecordFilter.Proofs.Restatement

/-! # The algebra of operators

    Which values compare is a matter of their types (`Value.Comparable`): two values of one
    type do, and so do any two numbers, but for NaN, which compares with nothing, and the
    infinities, which compare with floating point numbers only.  `comparable_iff` says that
    these are the pairs that have an order.

    All the comparisons of a field with a value read this one order, so their answers hang
    together: of `lt`, `eq` and `gt` exactly one holds where the values compare and none where
    they do not, and the other operators are joined from these (`PresentLaws`).  An absent
    field has no order to read (`AbsentLaws`), and `ne` and the questions about sets part
    there. -/

namespace RecordFilter

namespace Value

/-! ## Values that compare -/

/-- The values are of one type or both numbers, neither of them is NaN, and an infinity is
    beside a floating point number. -/
structure Comparable (a b : Value) : Prop where
  types : a.fieldType = b.fieldType ∨ a.isNumeric = true ∧ b.isNumeric = true
  left_ne_nan : a ≠ .float .nan
  right_ne_nan : b ≠ .float .nan
  left_infinite : a.IsInfinite → b.IsFloat
  right_infinite : b.IsInfinite → a.IsFloat

/-- The numbers are what is left of the numeric types without NaN and the infinities. -/
theorem isNumber_iff {v : Value} :
    v.IsNumber ↔ v.isNumeric = true ∧ v ≠ .float .nan ∧ ¬ v.IsInfinite := by
  constructor
  · intro hv
    refine ⟨(exists_rational_iff.mp hv).1, ?_, not_isInfinite_of_isNumber hv⟩
    rintro rfl
    obtain ⟨q, hq⟩ := hv
    cases hq
  · rintro ⟨hnumeric, hnan, hinfinite⟩
    rcases number_cases v with hv | hv | hv | hv
    · exact hv
    · rw [hv] at hnumeric
      cases hnumeric
    · exact absurd hv hnan
    · exact absurd hv hinfinite

/-- What converts to a decimal is a number, and finite. -/
theorem exists_toDecimal_iff {v : Value} : (∃ d, v.toDecimal? = some d) ↔ v.IsNumber := by
  constructor
  · rintro ⟨d, hd⟩
    cases v with
    | int32 n => exact ⟨_, rfl⟩
    | int64 n => exact ⟨_, rfl⟩
    | decimal e => exact ⟨_, rfl⟩
    | float x =>
        cases x with
        | finite s rank => exact ⟨_, rfl⟩
        | nan => exact nomatch hd
        | infinite s => exact nomatch hd
    | _ => exact nomatch hd
  · rintro ⟨q, hq⟩
    obtain ⟨d, hd, -⟩ := exists_toDecimal_of_rational hq
    exact ⟨d, hd⟩

/-- Values that are compared as decimals have an order if both are numbers. -/
theorem exists_order_iff_of_decimalOrder {a b : Value} (h : a.order b = decimalOrder a b) :
    (∃ o, a.order b = some o) ↔ a.IsNumber ∧ b.IsNumber := by
  rw [h, ← exists_toDecimal_iff, ← exists_toDecimal_iff, decimalOrder]
  cases a.toDecimal? with
  | none => exact iff_of_false (by rintro ⟨_, ⟨⟩⟩) (by rintro ⟨⟨_, ⟨⟩⟩, -⟩)
  | some d =>
      cases b.toDecimal? with
      | none => exact iff_of_false (by rintro ⟨_, ⟨⟩⟩) (by rintro ⟨-, ⟨_, ⟨⟩⟩⟩)
      | some e => exact iff_of_true ⟨_, rfl⟩ ⟨⟨d, rfl⟩, ⟨e, rfl⟩⟩

/-- Values of two types have an order if both are numbers. -/
theorem exists_order_iff_of_ne {a b : Value} (h : a.fieldType ≠ b.fieldType) :
    (∃ o, a.order b = some o) ↔ a.IsNumber ∧ b.IsNumber := by
  -- across types every comparison goes through decimals, but for the two integer types
  cases a with
  | int32 m =>
      cases b with
      | int32 n => exact absurd rfl h
      | int64 n => exact iff_of_true ⟨_, rfl⟩ ⟨⟨_, rfl⟩, ⟨_, rfl⟩⟩
      | _ => exact exists_order_iff_of_decimalOrder rfl
  | int64 m =>
      cases b with
      | int64 n => exact absurd rfl h
      | int32 n => exact iff_of_true ⟨_, rfl⟩ ⟨⟨_, rfl⟩, ⟨_, rfl⟩⟩
      | _ => exact exists_order_iff_of_decimalOrder rfl
  | decimal d => cases b <;> exact exists_order_iff_of_decimalOrder rfl
  | float x =>
      cases b with
      | float y => exact absurd rfl h
      | _ => exact exists_order_iff_of_decimalOrder rfl
  | text s =>
      cases b with
      | text t => exact absurd rfl h
      | _ => exact exists_order_iff_of_decimalOrder rfl
  | bool p =>
      cases b with
      | bool q => exact absurd rfl h
      | _ => exact exists_order_iff_of_decimalOrder rfl
  | date d =>
      cases b with
      | date e => exact absurd rfl h
      | _ => exact exists_order_iff_of_decimalOrder rfl
  | dateTime t =>
      cases b with
      | dateTime u => exact absurd rfl h
      | _ => exact exists_order_iff_of_decimalOrder rfl

theorem exists_double_of_isFloat {v : Value} (h : v.IsFloat) : ∃ x, v = .float x := by
  cases v with
  | float x => exact ⟨x, rfl⟩
  | _ => cases h

/-- Floating point numbers have an order unless one of them is NaN. -/
theorem exists_doubleOrder_iff {x y : Double} :
    (∃ o, x.order y = some o) ↔ x ≠ .nan ∧ y ≠ .nan := by
  cases x with
  | nan => exact iff_of_false (by rintro ⟨_, ⟨⟩⟩) fun h => h.1 rfl
  | infinite s =>
      cases y with
      | nan => exact iff_of_false (by rintro ⟨_, ⟨⟩⟩) fun h => h.2 rfl
      | infinite t => exact iff_of_true ⟨_, rfl⟩ ⟨by rintro ⟨⟩, by rintro ⟨⟩⟩
      | finite t b => exact iff_of_true ⟨_, rfl⟩ ⟨by rintro ⟨⟩, by rintro ⟨⟩⟩
  | finite s a =>
      cases y with
      | nan => exact iff_of_false (by rintro ⟨_, ⟨⟩⟩) fun h => h.2 rfl
      | infinite t => exact iff_of_true ⟨_, rfl⟩ ⟨by rintro ⟨⟩, by rintro ⟨⟩⟩
      | finite t b => exact iff_of_true ⟨_, rfl⟩ ⟨by rintro ⟨⟩, by rintro ⟨⟩⟩

/-- Values of one type have an order unless one of them is NaN. -/
theorem exists_order_iff_of_eq {a b : Value} (h : a.fieldType = b.fieldType) :
    (∃ o, a.order b = some o) ↔ a ≠ .float .nan ∧ b ≠ .float .nan := by
  by_cases hfloat : a.IsFloat
  · obtain ⟨x, rfl⟩ := exists_double_of_isFloat hfloat
    obtain ⟨y, rfl⟩ := exists_double_of_isFloat (h.symm.trans hfloat)
    rw [Ne, Ne, Value.float.injEq, Value.float.injEq]
    exact exists_doubleOrder_iff
  · have hnan : ∀ {v : Value}, v.fieldType = a.fieldType → v ≠ .float .nan := by
      rintro v hv rfl
      exact hfloat hv.symm
    refine iff_of_true ?_ ⟨hnan rfl, hnan h.symm⟩
    cases a with
    | float x => exact absurd rfl hfloat
    | _ =>
        cases b <;> cases h
        exact ⟨_, rfl⟩

/-- **THE PAIRS THAT COMPARE** are those that have an order. -/
theorem comparable_iff {a b : Value} : a.Comparable b ↔ ∃ o, a.order b = some o := by
  by_cases htype : a.fieldType = b.fieldType
  · rw [exists_order_iff_of_eq htype]
    constructor
    · intro h
      exact ⟨h.left_ne_nan, h.right_ne_nan⟩
    · rintro ⟨ha, hb⟩
      refine ⟨Or.inl htype, ha, hb, ?_, ?_⟩
      · rintro ⟨s, rfl⟩
        exact htype.symm
      · rintro ⟨s, rfl⟩
        exact htype
  · rw [exists_order_iff_of_ne htype, isNumber_iff, isNumber_iff]
    constructor
    -- across types an infinity would have to meet a float
    · rintro ⟨htypes, ha, hb, hleft, hright⟩
      obtain ⟨hna, hnb⟩ := htypes.resolve_left htype
      refine ⟨⟨hna, ha, fun hinfinite => htype ?_⟩, hnb, hb, fun hinfinite => htype ?_⟩
      · obtain ⟨s, rfl⟩ := hinfinite
        exact (hleft ⟨s, rfl⟩).symm
      · obtain ⟨s, rfl⟩ := hinfinite
        exact hright ⟨s, rfl⟩
    · rintro ⟨⟨hna, ha, hinfa⟩, hnb, hb, hinfb⟩
      exact ⟨Or.inr ⟨hna, hnb⟩, ha, hb, fun h => absurd h hinfa, fun h => absurd h hinfb⟩

end Value

namespace Comparison

/-! ## Comparisons of one order -/

/-- The comparison that says the same with its two sides exchanged. -/
def turned : Comparison → Comparison
  | .eq => .eq
  | .ne => .ne
  | .lt => .gt
  | .le => .ge
  | .gt => .lt
  | .ge => .le

/-- Turning a comparison around goes with turning the order. -/
theorem holds_turned (c : Comparison) (o : Option Ordering) :
    c.turned.holds (o.map Ordering.swap) = c.holds o := by
  cases o with
  | none => cases c <;> rfl
  | some o => cases c <;> cases o <;> rfl

/-- No two of `lt`, `eq` and `gt` hold of one order. -/
theorem eq_of_holds (o : Option Ordering) :
    ∀ c ∈ [lt, eq, gt], ∀ d ∈ [lt, eq, gt], c.holds o = true → d.holds o = true → c = d := by
  cases o with
  | none => decide
  | some o => cases o <;> decide

/-- One of `lt`, `eq` and `gt` holds of every order. -/
theorem exists_holds_some (o : Ordering) : ∃ c ∈ [lt, eq, gt], c.holds (some o) = true := by
  cases o <;> decide

/-- Without an order no comparison holds but `ne`. -/
theorem holds_none : ∀ c ∈ [lt, le, eq, ge, gt], c.holds none = false := by
  decide

end Comparison

namespace Predicate

variable {r : Record} {field : String}

/-! ## Answers about one field -/

/-- A field that is there is compared with the value. -/
theorem evaluate_comparison_of_some {u : Value} (h : r.field? field = some u) (c : Comparison)
    (v : Value) : evaluate r (.comparison c field v) = c.holds (u.order v) := by
  rw [evaluate, h]

theorem evaluate_comparison_of_none (h : r.field? field = none) (c : Comparison) (v : Value) :
    evaluate r (.comparison c field v) = false := by
  rw [evaluate, h]

/-- **OUTSIDE IS NOT INSIDE**, of an absent field as well. -/
theorem evaluate_outside_eq_not (r : Record) (field : String) (vs : List Value) :
    evaluate r (.membership true field vs) = !evaluate r (.membership false field vs) := by
  rw [evaluate, evaluate, Bool.true_bne, Bool.false_bne]

/-- A field is in a set if it equals one of the values. -/
theorem evaluate_inside_of_some {u : Value} (h : r.field? field = some u) (vs : List Value) :
    evaluate r (.membership false field vs)
      = vs.any fun v => evaluate r (.comparison .eq field v) := by
  rw [evaluate, Bool.false_bne, h]
  refine congrArg vs.any (funext fun v => ?_)
  exact (evaluate_comparison_of_some h .eq v).symm

/-- A field is outside of a set if it differs from each of the values. -/
theorem evaluate_outside_of_some {u : Value} (h : r.field? field = some u) (vs : List Value) :
    evaluate r (.membership true field vs)
      = vs.all fun v => evaluate r (.comparison .ne field v) := by
  rw [evaluate_outside_eq_not, evaluate_inside_of_some h, List.not_any_eq_all_not]
  refine congrArg vs.all (funext fun v => ?_)
  rw [evaluate_comparison_of_some h, evaluate_comparison_of_some h]
  rfl

/-- How the answers about a field with the value `u` hang together. -/
structure PresentLaws (r : Record) (field : String) (u v : Value) (vs : List Value) : Prop where
  ne : evaluate r (.comparison .ne field v) = !evaluate r (.comparison .eq field v)
  le : evaluate r (.comparison .le field v)
    = (evaluate r (.comparison .lt field v) || evaluate r (.comparison .eq field v))
  ge : evaluate r (.comparison .ge field v)
    = (evaluate r (.comparison .gt field v) || evaluate r (.comparison .eq field v))
  atMostOne : ∀ c ∈ [Comparison.lt, .eq, .gt], ∀ d ∈ [Comparison.lt, .eq, .gt],
    evaluate r (.comparison c field v) = true → evaluate r (.comparison d field v) = true → c = d
  comparable : u.Comparable v →
    ∃ c ∈ [Comparison.lt, .eq, .gt], evaluate r (.comparison c field v) = true
  incomparable : ¬ u.Comparable v →
    ∀ c ∈ [Comparison.lt, .le, .eq, .ge, .gt], evaluate r (.comparison c field v) = false
  inside : evaluate r (.membership false field vs)
    = vs.any fun w => evaluate r (.comparison .eq field w)
  outside : evaluate r (.membership true field vs)
    = vs.all fun w => evaluate r (.comparison .ne field w)
  turned : ∀ (r' : Record) (field' : String), r'.field? field' = some v → ∀ c : Comparison,
    evaluate r' (.comparison c.turned field' u) = evaluate r (.comparison c field v)

/-- The answers about an absent field. -/
structure AbsentLaws (r : Record) (field : String) (v : Value) (vs : List Value) : Prop where
  comparison : ∀ c, evaluate r (.comparison c field v) = false
  inside : evaluate r (.membership false field vs) = false
  outside : evaluate r (.membership true field vs) = true

theorem presentLaws {u : Value} (h : r.field? field = some u) (v : Value) (vs : List Value) :
    PresentLaws r field u v vs := by
  have hread : ∀ c, evaluate r (.comparison c field v) = c.holds (u.order v) :=
    fun c => evaluate_comparison_of_some h c v
  refine ⟨?_, ?_, ?_, ?_, ?_, ?_, evaluate_inside_of_some h vs, evaluate_outside_of_some h vs, ?_⟩
  · rw [hread, hread]
    rfl
  · rw [hread, hread, hread]
    rfl
  · rw [hread, hread, hread]
    rfl
  · intro c hc d hd
    rw [hread, hread]
    exact Comparison.eq_of_holds (u.order v) c hc d hd
  · intro hcomparable
    obtain ⟨o, ho⟩ := Value.comparable_iff.mp hcomparable
    obtain ⟨c, hc, hholds⟩ := Comparison.exists_holds_some o
    exact ⟨c, hc, by rw [hread, ho, hholds]⟩
  · intro hincomparable c hc
    have hnone : u.order v = none :=
      Option.eq_none_iff_forall_ne_some.mpr fun o ho =>
        hincomparable (Value.comparable_iff.mpr ⟨o, ho⟩)
    rw [hread, hnone, Comparison.holds_none c hc]
  · intro r' field' h' c
    rw [hread, evaluate_comparison_of_some h', Value.order_swap, Comparison.holds_turned]

theorem absentLaws (h : r.field? field = none) (v : Value) (vs : List Value) :
    AbsentLaws r field v vs := by
  have hinside : evaluate r (.membership false field vs) = false := by
    rw [evaluate, h]
    rfl
  refine ⟨fun c => evaluate_comparison_of_none h c v, hinside, ?_⟩
  rw [evaluate_outside_eq_not, hinside]
  rfl

/-- **THE OPERATORS ARE CONSISTENT**: of a field with a value they follow the laws of one
    order, which turns round with its sides, and of an absent field only `outside` holds; the
    questions about sets and about absence are negations of each other on every record; and
    the values that compare are those of one type and the numbers of any two, but for NaN and
    for infinities beside other types. -/
theorem operators_are_consistent (r : Record) (field : String) (v : Value) (vs : List Value) :
    (∀ u, r.field? field = some u → PresentLaws r field u v vs)
      ∧ (r.field? field = none → AbsentLaws r field v vs)
      ∧ evaluate r (.membership true field vs) = !evaluate r (.membership false field vs)
      ∧ evaluate r (.absence true field) = !evaluate r (.absence false field)
      ∧ ∀ a b : Value, a.Comparable b ↔ ∃ o, a.order b = some o := by
  refine ⟨fun u h => presentLaws h v vs, fun h => absentLaws h v vs,
    evaluate_outside_eq_not r field vs, ?_, fun a b => Value.comparable_iff⟩
  rw [evaluate, evaluate, Bool.true_bne, Bool.false_bne]

/-- An infinity and an integer are both numbers and do not compare, so the one is neither above
    the other nor equal to it; it is found in a set as itself.  The absent field is outside. -/
theorem operators_are_consistent_at_infinity :
    let infinity : Value := .float (.infinite false)
    let r := Record.ofRow [("x", infinity)]
    (r.field? "x" = some infinity ∧ ¬ infinity.Comparable (.int64 7)
        ∧ PresentLaws r "x" infinity (.int64 7) [.text "7", infinity]
        ∧ evaluate r (.comparison .gt "x" (.int64 7)) = false
        ∧ evaluate r (.comparison .ne "x" (.int64 7)) = true
        ∧ evaluate r (.membership false "x" [.text "7", infinity]) = true)
      ∧ r.field? "y" = none ∧ AbsentLaws r "y" (.int64 7) [infinity] := by
  intro infinity r
  have hx : r.field? "x" = some infinity := rfl
  have hy : r.field? "y" = none := rfl
  have hincomparable : ¬ infinity.Comparable (.int64 7) := by
    intro h
    cases h.left_infinite ⟨false, rfl⟩
  have hpresent := (operators_are_consistent r "x" (.int64 7) [.text "7", infinity]).1 infinity hx
  have habsent := (operators_are_consistent r "y" (.int64 7) [infinity]).2.1 hy
  refine ⟨⟨hx, hincomparable, hpresent, ?_, ?_, rfl⟩, hy, habsent⟩
  · exact hpresent.incomparable hincomparable .gt (by decide)
  · rw [hpresent.ne, hpresent.incomparable hincomparable .eq (by decide)]
    rfl

end Predicate

end RecordFilter
