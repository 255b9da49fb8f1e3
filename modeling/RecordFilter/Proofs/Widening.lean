import RecordFilter.Proofs.IntegerTexts
import RecordFilter.Proofs.Restatement

/-! # Fields of wider types

    A field of integers may be declared anew with a wider type: 64 bits in place of 32, or
    decimals in place of either.  Every text that the narrower type accepts is accepted by the
    wider one as the same number (`exists_coerce_of_widens`), so a filter that compiles still
    compiles, to a predicate with its numbers restated (`exists_build_of_widens`).  None of
    them is a floating point number before or after, so the predicate answers as before
    whatever a record holds. -/

namespace RecordFilter

/-- The types are the same, or the second one holds every integer of the first. -/
inductive FieldType.Widens : FieldType → FieldType → Prop where
  | refl (t : FieldType) : Widens t t
  | int32_int64 : Widens .int32 .int64
  | int32_decimal : Widens .int32 .decimal
  | int64_decimal : Widens .int64 .decimal

/-- Whatever field the one resolver knows, the other one knows it at the same type or at a
    wider one. -/
def Resolver.Widens (a b : Resolver) : Prop :=
  ∀ entity field t, a entity field = .ok t → ∃ t', b entity field = .ok t' ∧ t.Widens t'

/-- The same fields, at the same types or at wider ones. -/
def Entity.Widens (e f : Entity) : Prop :=
  e.name = f.name ∧ List.Forall₂ (fun x y => x.name = y.name ∧ x.type.Widens y.type)
    e.fields f.fields

/-- The same entities under the same names, with fields of the same types or of wider ones. -/
def Bundle.Widens (a b : Bundle) : Prop :=
  ∀ name, Option.Rel Entity.Widens (a.entity? name) (b.entity? name)

/-- In lists that are related member by member, the members on the right may be exchanged for
    others that go with those on the left. -/
theorem exists_forall₂_of_forall₂ {α β γ : Type} {R : α → β → Prop} {S : α → γ → Prop}
    {T : β → γ → Prop} {as : List α} {bs : List β} (h : List.Forall₂ R as bs)
    (hnew : ∀ a ∈ as, ∀ b, R a b → ∃ c, S a c ∧ T b c) :
    ∃ cs, List.Forall₂ S as cs ∧ List.Forall₂ T bs cs := by
  induction h with
  | nil => exact ⟨[], .nil, .nil⟩
  | @cons a b as bs hab _ ih =>
      obtain ⟨c, hac, hbc⟩ := hnew a (List.mem_cons_self ..) b hab
      obtain ⟨cs, has, hbs⟩ := ih fun x hx => hnew x (List.mem_cons_of_mem _ hx)
      exact ⟨c :: cs, .cons hac has, .cons hbc hbs⟩

/-! ## Schemas -/

theorem Entity.Widens.fieldType? {e f : Entity} (h : e.Widens f) {field : String}
    {t : FieldType} (ht : e.fieldType? field = some t) :
    ∃ t', f.fieldType? field = some t' ∧ t.Widens t' := by
  obtain ⟨-, hfields⟩ := h
  rw [Entity.fieldType?, getField?] at ht ⊢
  generalize e.fields = xs at hfields ht
  generalize f.fields = ys at hfields
  -- the first field of the name stands in the same place of both lists
  induction hfields with
  | nil => exact nomatch ht
  | @cons x y xs ys hxy _ ih =>
      obtain ⟨hname, htype⟩ := hxy
      rw [List.find?_cons] at ht ⊢
      rw [← hname]
      cases hfield : x.name == field with
      | true =>
          rw [hfield] at ht
          obtain rfl := Option.some.inj ht
          exact ⟨y.type, rfl, htype⟩
      | false =>
          rw [hfield] at ht
          exact ih ht

theorem Bundle.Widens.empty : Bundle.Widens {} {} := by
  intro name
  rw [Bundle.entity?, Std.TreeMap.getElem?_emptyc]
  exact .none

/-- Schemas stay alike when entities of one name are added. -/
theorem Bundle.Widens.add {a b : Bundle} {e f : Entity} (h : a.Widens b) (hef : e.Widens f) :
    (a.add e).Widens (b.add f) := by
  intro name
  rw [Bundle.entity?, Bundle.entity?, Bundle.add, Bundle.add, Std.TreeMap.getElem?_insert,
    Std.TreeMap.getElem?_insert, ← hef.1]
  split_ifs
  · exact .some hef
  · exact h name

/-- A schema with wider fields resolves every field to a wider type. -/
theorem Bundle.Widens.resolver {a b : Bundle} (h : a.Widens b) :
    a.resolver.Widens b.resolver := by
  intro entity field t ht
  have hentity := h entity
  rw [Bundle.resolver] at ht ⊢
  generalize a.entity? entity = e? at hentity ht
  generalize b.entity? entity = f? at hentity ⊢
  cases hentity with
  | none => exact nomatch ht
  | @some e f hef =>
      dsimp only at ht ⊢
      rw [Entity.resolver] at ht ⊢
      rw [← hef.1]
      by_cases hname : entity = e.name
      · rw [if_pos hname] at ht ⊢
        cases htype : e.fieldType? field with
        | none =>
            rw [htype] at ht
            exact nomatch ht
        | some t₀ =>
            rw [htype] at ht
            obtain rfl : t₀ = t := Except.ok.inj ht
            obtain ⟨t', ht', hwidens⟩ := hef.fieldType? htype
            exact ⟨t', by rw [ht'], hwidens⟩
      · rw [if_neg hname] at ht
        exact nomatch ht

/-- A schema of one entity resolves as the entity does. -/
theorem Bundle.resolver_ofList_singleton (e : Entity) :
    (Bundle.ofList [e]).resolver = e.resolver := by
  funext entity field
  rw [Bundle.resolver, Bundle.ofList, List.foldl_cons, List.foldl_nil, Bundle.entity?, Bundle.add,
    Std.TreeMap.getElem?_insert, Std.TreeMap.getElem?_emptyc]
  by_cases hname : entity = e.name
  · rw [if_pos (Std.compare_eq_iff_eq.mpr hname.symm)]
  · rw [if_neg (fun h => hname (Std.compare_eq_iff_eq.mp h).symm)]
    exact (if_neg hname).symm

/-! ## Operands -/

/-- A value in place of one of a narrower type. -/
def Value.Widens (v w : Value) : Prop := v.Restates w ∧ (v.IsFloat ↔ w.IsFloat)

/-- Every value is as wide as itself. -/
theorem Value.Widens.refl (v : Value) : v.Widens v := ⟨Or.inl rfl, Iff.rfl⟩

/-- A number is widened by the same number, floats apart. -/
theorem Value.Widens.of_rational {v w : Value} {q : ℚ} (hv : v.rational? = some q)
    (hw : w.rational? = some q) (hv' : ¬ v.IsFloat) (hw' : ¬ w.IsFloat) : v.Widens w :=
  ⟨Or.inr ⟨q, hv, hw⟩, iff_of_false hv' hw'⟩

namespace FieldType

theorem isOrderable_of_widens {t t' : FieldType} (h : t.Widens t') :
    t'.isOrderable = t.isOrderable := by
  cases h <;> rfl

/-- What spells an integer is coerced to this integer as a decimal. -/
theorem coerceText_decimal_of_spelling {text : String} {n : Int}
    (h : IntegerSpelling text.toList n) :
    decimal.coerceText text = .ok (.decimal (.ofInt n)) :=
  coerceText_decimal_ok_iff.mpr (Decimal.read_of_integerSpelling h)

/-- **WIDER TYPES ACCEPT MORE**: what a literal is at a type it is, as a number, at every wider
    one. -/
theorem exists_coerce_of_widens {t t' : FieldType} (h : t.Widens t') {l : Literal} {v : Value}
    (hv : t.coerce l = .ok v) : ∃ w, t'.coerce l = .ok w ∧ v.Widens w := by
  have htype := (of_coerce_ok hv).1
  cases h with
  | refl => exact ⟨v, hv, .refl v⟩
  | int32_int64 =>
      -- one spelling for both, since the two integers are the same
      cases v with
      | int32 m =>
          have hspelling := coerceText_int32_ok_iff.mp hv
          rw [← m.toInt_toInt64] at hspelling
          exact ⟨_, coerceText_int64_ok_iff.mpr hspelling,
            .of_rational rfl (by rw [Value.rational?, m.toInt_toInt64]) nofun nofun⟩
      | _ => exact nomatch htype
  | int32_decimal =>
      cases v with
      | int32 m =>
          exact ⟨_, coerceText_decimal_of_spelling (coerceText_int32_ok_iff.mp hv),
            .of_rational rfl (congrArg some (Decimal.toRat_ofInt _)) nofun nofun⟩
      | _ => exact nomatch htype
  | int64_decimal =>
      cases v with
      | int64 m =>
          exact ⟨_, coerceText_decimal_of_spelling (coerceText_int64_ok_iff.mp hv),
            .of_rational rfl (congrArg some (Decimal.toRat_ofInt _)) nofun nofun⟩
      | _ => exact nomatch htype

end FieldType

/-! ## Trees -/

namespace Filter

open Predicate

/-- The same tree with values of wider types. -/
abbrev AlignedWider : Predicate → Predicate → Prop := Aligned fun _ => Value.Widens

/-- A leaf that is built at a type is built at a wider one, over wider values. -/
theorem exists_expresses_of_widens {t t' : FieldType} (h : t.Widens t') {field : String}
    {op : Operator} {operand : Operand} {p : Predicate} (hp : Expresses t field op operand p) :
    ∃ q, Expresses t' field op operand q ∧ AlignedWider p q := by
  cases hp with
  | comparison hv =>
      obtain ⟨w, hw, hvw⟩ := FieldType.exists_coerce_of_widens h hv
      exact ⟨_, .comparison hw, .comparison hvw⟩
  | membership hls hvs =>
      obtain ⟨ws, hws, hvws⟩ := exists_forall₂_of_forall₂ hvs
        fun l _ v hv => FieldType.exists_coerce_of_widens h hv
      exact ⟨_, .membership hls hws, .membership hvws⟩
  | absent => exact ⟨_, .absent, .absence⟩
  | present => exact ⟨_, .present, .absence⟩

variable {a b : Resolver} {entity : String}

/-- **TREES KEEP BUILDING** when the fields become wider, and their predicates are aligned. -/
theorem exists_build_of_widens (h : a.Widens b) {n : Node} {p : Predicate}
    (hp : build a entity n = .ok p) : ∃ q, build b entity n = .ok q ∧ AlignedWider p q := by
  induction n generalizing p with
  | leaf field op operand path =>
      obtain ⟨t, ht, hord, hexpresses⟩ := expresses_of_leafCondition_ok hp
      obtain ⟨t', ht', hwidens⟩ := h entity field t ht
      obtain ⟨q, hq, hpq⟩ := exists_expresses_of_widens hwidens hexpresses
      -- the operator suits the wider type as it suited the narrower one
      rw [← FieldType.isOrderable_of_widens hwidens] at hord
      exact ⟨q, leafCondition_of_expresses ht' hord hq path, hpq⟩
  | combinator k ns path ih =>
      obtain ⟨ps, hps, hcombine⟩ := exists_of_build_combinator_ok hp
      obtain ⟨qs, hqs, hpqs⟩ := exists_forall₂_of_forall₂ hps fun n hn q hq => ih n hn hq
      obtain ⟨q, hq, hpq⟩ := aligned_combine hpqs hcombine
      exact ⟨q, build_combinator_of_forall₂ hqs hq path, hpq⟩

/-- Values of wider types are compared as before with whatever a record holds: a number that
    meets an infinity there is no floating point number, before or after. -/
theorem evaluate_eq_of_wider {p q : Predicate} (h : AlignedWider p q) (r : Record) :
    p.evaluate r = q.evaluate r := by
  refine evaluate_eq_of_aligned ?_ r h
  rintro field v w ⟨hrestates, hfloat⟩ u
  exact Value.order_congr (Or.inl rfl) hrestates ⟨fun _ => Iff.rfl, fun _ => hfloat⟩

/-- A document that compiles compiles with wider fields, to a predicate of the same answers. -/
theorem exists_compileDocument_of_widens (h : a.Widens b) {limits : Limits}
    {d : Json.Document} {p : Predicate}
    (hp : Compiler.compileDocument ⟨a, entity, limits⟩ d = .ok p) :
    ∃ q, Compiler.compileDocument ⟨b, entity, limits⟩ d = .ok q
      ∧ ∀ r, p.evaluate r = q.evaluate r := by
  rw [Compiler.compileDocument] at hp ⊢
  cases hn : parse limits d with
  | error e =>
      rw [hn] at hp
      cases hp
  | ok n =>
      rw [hn] at hp
      obtain ⟨q, hq, hpq⟩ := exists_build_of_widens h (build_of_compileNode_ok hp)
      refine ⟨q, ?_, evaluate_eq_of_wider hpq⟩
      -- the limit on the depth was kept before the fields were looked up
      show Compiler.compileNode _ n = .ok q
      have hdepth : ¬ limits.maxDepth < n.depth := by
        intro hdepth
        cases (if_pos hdepth).symm.trans hp
      exact (if_neg hdepth).trans hq

/-- **WIDER FIELDS KEEP THE MEANING**: a filter that compiles still compiles when some fields
    of integers are declared with wider types, and its predicate answers as before of every
    record.  A text is an integer of 32 bits exactly if it is one of 64 bits in the smaller
    range, and an integer of 64 bits is the same number as a decimal. -/
theorem widening_keeps_meaning :
    (∀ x y : Bundle, x.Widens y → x.resolver.Widens y.resolver)
      ∧ (∀ (a b : Resolver), a.Widens b →
        ∀ (entity : String) (limits : Limits) (d : Json.Document) (p : Predicate),
          Compiler.compileDocument ⟨a, entity, limits⟩ d = .ok p →
          ∃ q, Compiler.compileDocument ⟨b, entity, limits⟩ d = .ok q
            ∧ ∀ r, p.evaluate r = q.evaluate r)
      ∧ (∀ (text : String) (n : Int),
        (∃ m, FieldType.int32.coerceText text = .ok (.int32 m) ∧ m.toInt = n)
          ↔ (∃ m, FieldType.int64.coerceText text = .ok (.int64 m) ∧ m.toInt = n)
            ∧ (IntegerRange.signed 32).Contains n)
      ∧ ∀ (text : String) (m : Int64), FieldType.int64.coerceText text = .ok (.int64 m) →
        ∃ e, FieldType.decimal.coerceText text = .ok (.decimal e) ∧ e = .ofInt m.toInt
          ∧ (Value.decimal e).order (.int64 m) = some .eq := by
  refine ⟨fun x y h => h.resolver, fun a b h entity limits d p =>
    exists_compileDocument_of_widens h, fun text n => ?_, fun text m h => ?_⟩
  · constructor
    · rintro ⟨m, hm, rfl⟩
      have hspelling := FieldType.coerceText_int32_ok_iff.mp hm
      rw [← m.toInt_toInt64] at hspelling
      exact ⟨⟨m.toInt64, FieldType.coerceText_int64_ok_iff.mpr hspelling, m.toInt_toInt64⟩,
        IntegerRange.contains_int32 m⟩
    · rintro ⟨⟨m, hm, rfl⟩, hrange⟩
      have hspelling := FieldType.coerceText_int64_ok_iff.mp hm
      have hsame := IntegerRange.toInt_ofInt_int32 hrange
      rw [← hsame] at hspelling
      exact ⟨_, FieldType.coerceText_int32_ok_iff.mpr hspelling, hsame⟩
  · refine ⟨_, FieldType.coerceText_decimal_of_spelling (FieldType.coerceText_int64_ok_iff.mp h),
      rfl, ?_⟩
    rw [Value.order_eq_compare rfl rfl, Decimal.toRat_ofInt, Std.compare_self]

/-- Signs and leading zeros are read alike, and a record with another type of number answers
    alike. -/
theorem widening_keeps_meaning_of_set :
    let narrow : Entity := ⟨"Person", [⟨"age", .int32⟩, ⟨"name", .text⟩, ⟨"height", .int64⟩]⟩
    let wide : Entity := ⟨"Person", [⟨"age", .decimal⟩, ⟨"name", .text⟩, ⟨"height", .decimal⟩]⟩
    let d : Json.Document := .object [("AND", .array [
      .object [("age", .object [("in", .array [.string "+007", .number "18"])])],
      .object [("height", .object [("gt", .string "-5")])]])]
    let p : Predicate := .compound .and [.membership false "age" [.int32 7, .int32 18],
      .comparison .gt "height" (.int64 (-5))]
    let r := Record.ofRow [("age", .int64 7),
      ("height", .decimal { unscaled := -49, scale := 1 })]
    (Bundle.ofList [narrow]).Widens (Bundle.ofList [wide])
      ∧ Compiler.compileDocument ⟨(Bundle.ofList [narrow]).resolver, "Person", .usual⟩ d = .ok p
      ∧ (∃ q, Compiler.compileDocument ⟨(Bundle.ofList [wide]).resolver, "Person", .usual⟩ d
        = .ok q ∧ q.evaluate r = true)
      ∧ (∃ e, FieldType.decimal.coerceText "+007" = .ok (.decimal e) ∧ e = .ofInt 7
          ∧ (Value.decimal e).order (.int64 7) = some .eq) := by
  intro narrow wide d p r
  have hentity : narrow.Widens wide :=
    ⟨rfl, .cons ⟨rfl, .int32_decimal⟩ (.cons ⟨rfl, .refl _⟩ (.cons ⟨rfl, .int64_decimal⟩ .nil))⟩
  have hbundle : (Bundle.ofList [narrow]).Widens (Bundle.ofList [wide]) :=
    Bundle.Widens.empty.add hentity
  obtain ⟨hresolver, hdocument, -, hdecimal⟩ := widening_keeps_meaning
  have hp : Compiler.compileDocument ⟨(Bundle.ofList [narrow]).resolver, "Person", .usual⟩ d
      = .ok p := by
    rw [Bundle.resolver_ofList_singleton]
    rfl
  obtain ⟨q, hq, hanswers⟩ := hdocument _ _ (hresolver _ _ hbundle) _ _ _ _ hp
  exact ⟨hbundle, hp, ⟨q, hq, (hanswers r).symm.trans (by decide +kernel)⟩,
    hdecimal "+007" 7 rfl⟩

end Filter

end RecordFilter
