import Mathlib.Data.List.Forall2
import RecordFilter.Filter.Compile
import RecordFilter.Proofs.Outcomes

/-! # What building can do

    A leaf becomes a condition in one of four ways, and `Expresses` lists them:
    this is all that the later proofs need to know of `leafCondition`.  A
    combinator is built from the predicates of its children, each of which
    builds on its own.  Coercion is the only place where values come from, so
    their types and their finiteness are settled here as well. -/

namespace RecordFilter

/-- A value that is a number, if it is a floating point number at all. -/
def Value.IsFinite (v : Value) : Prop := ∀ x, v = .float x → x.isFinite = true

/-- In lists that are related member by member, every member on the right has
    one on the left. -/
theorem exists_of_forall₂_of_mem_right {α β : Type} {R : α → β → Prop} {as : List α}
    {bs : List β} (h : List.Forall₂ R as bs) {b : β} (hb : b ∈ bs) : ∃ a ∈ as, R a b := by
  induction h with
  | nil => exact nomatch hb
  | @cons a b' as bs hab _ ih =>
      rcases List.mem_cons.mp hb with rfl | hb
      · exact ⟨a, List.mem_cons_self .., hab⟩
      · obtain ⟨a', ha', hr⟩ := ih hb
        exact ⟨a', List.mem_cons_of_mem _ ha', hr⟩

/-- What the members on the left carry over from one relation to another, the lists do. -/
theorem forall₂_of_mem_left {α β : Type} {R S : α → β → Prop} {as : List α} {bs : List β}
    (h : List.Forall₂ R as bs) (hRS : ∀ a ∈ as, ∀ b, R a b → S a b) : List.Forall₂ S as bs := by
  induction h with
  | nil => exact .nil
  | cons hab _ ih =>
      exact .cons (hRS _ (List.mem_cons_self ..) _ hab)
        (ih fun a ha => hRS a (List.mem_cons_of_mem _ ha))

namespace FieldType

/-- Reading at a type gives values of the type, and no NaN or infinity. -/
theorem of_readValue_ok {t : FieldType} {s : String} {v : Value}
    (h : t.readValue s = .ok v) : v.fieldType = t ∧ v.IsFinite := by
  cases t with
  | int32 =>
      obtain ⟨n, -, rfl⟩ := exists_of_mapError_map_ok h
      exact ⟨rfl, fun x hx => nomatch hx⟩
  | int64 =>
      obtain ⟨n, -, rfl⟩ := exists_of_mapError_map_ok h
      exact ⟨rfl, fun x hx => nomatch hx⟩
  | decimal =>
      obtain ⟨d, -, rfl⟩ := exists_of_mapError_map_ok h
      exact ⟨rfl, fun x hx => nomatch hx⟩
  | float =>
      -- the one type whose reader knows values that are refused
      rw [readValue] at h
      cases hr : Double.read s with
      | error fault => rw [hr] at h; exact nomatch h
      | ok x =>
          rw [hr] at h
          by_cases hx : x.isFinite = true
          · obtain rfl : Value.float x = v := Except.ok.inj ((if_pos hx).symm.trans h)
            exact ⟨rfl, fun y hy => (Value.float.inj hy) ▸ hx⟩
          · exact nomatch (if_neg hx).symm.trans h
  | text =>
      obtain rfl : Value.text s = v := Except.ok.inj h
      exact ⟨rfl, fun x hx => nomatch hx⟩
  | bool =>
      rw [readValue] at h
      split_ifs at h with h1 h2
      · obtain rfl := Except.ok.inj h
        exact ⟨rfl, fun x hx => nomatch hx⟩
      · obtain rfl := Except.ok.inj h
        exact ⟨rfl, fun x hx => nomatch hx⟩
  | date =>
      obtain ⟨d, -, rfl⟩ := exists_of_mapError_map_ok h
      exact ⟨rfl, fun x hx => nomatch hx⟩
  | dateTime =>
      obtain ⟨d, -, rfl⟩ := exists_of_mapError_map_ok h
      exact ⟨rfl, fun x hx => nomatch hx⟩

/-- Coercion is the reading of a text, with an error of its own. -/
theorem coerceText_ok_iff {t : FieldType} {text : String} {v : Value} :
    t.coerceText text = .ok v ↔ t.readValue text = .ok v :=
  mapError_eq_ok_iff

/-- What a text is coerced to is of the type asked for, and finite. -/
theorem of_coerceText_ok {t : FieldType} {text : String} {v : Value}
    (h : t.coerceText text = .ok v) : v.fieldType = t ∧ v.IsFinite :=
  of_readValue_ok (coerceText_ok_iff.mp h)

/-- Coercion to a type gives values of the type, and no NaN or infinity. -/
theorem of_coerce_ok {t : FieldType} {l : Literal} {v : Value} (h : t.coerce l = .ok v) :
    v.fieldType = t ∧ v.IsFinite :=
  of_coerceText_ok h

/-- Literals are coerced one by one, in their order. -/
theorem forall₂_of_coerceAll_ok {t : FieldType} {ls : List Literal} {vs : List Value}
    (h : t.coerceAll ls = .ok vs) : List.Forall₂ (fun l v => t.coerce l = .ok v) ls vs := by
  induction ls generalizing vs with
  | nil =>
      obtain rfl : [] = vs := Except.ok.inj h
      exact .nil
  | cons l ls ih =>
      rw [coerceAll] at h
      cases hl : t.coerce l with
      | error e => rw [hl] at h; exact nomatch h
      | ok v =>
          cases hls : t.coerceAll ls with
          | error e => rw [hl, hls] at h; exact nomatch h
          | ok ws =>
              rw [hl, hls] at h
              obtain rfl : v :: ws = vs := Except.ok.inj h
              exact .cons hl (ih hls)

/-- A list of literals is coerced if each of them is. -/
theorem coerceAll_of_forall₂ {t : FieldType} {ls : List Literal} {vs : List Value}
    (h : List.Forall₂ (fun l v => t.coerce l = .ok v) ls vs) : t.coerceAll ls = .ok vs := by
  induction h with
  | nil => rfl
  | cons hl _ ih => rw [coerceAll, hl, ih]

end FieldType

namespace Filter

/-- The condition that a field, an operator and an operand express at a type:
    a comparison or a membership for operands with values, a question of
    absence for null. -/
inductive Expresses (t : FieldType) (field : String) : Operator → Operand → Predicate → Prop where
  | comparison {c : Comparison} {l : Literal} {v : Value} :
      t.coerce l = .ok v →
      Expresses t field (.compare c) (.scalar l) (.comparison c field v)
  | membership {negated : Bool} {ls : List Literal} {vs : List Value} :
      ls ≠ [] → List.Forall₂ (fun l v => t.coerce l = .ok v) ls vs →
      Expresses t field (.member negated) (.set ls) (.membership negated field vs)
  | absent : Expresses t field (.compare .eq) .null (.absence false field)
  | present : Expresses t field (.compare .ne) .null (.absence true field)

variable {resolver : Resolver} {entity : String}

theorem expresses_of_nullCondition_ok {t : FieldType} {field : String} {op : Operator}
    {path : Path} {p : Predicate} (h : nullCondition field op path = .ok p) :
    Expresses t field op .null p := by
  cases op with
  | compare c =>
      cases c with
      | eq => obtain rfl := Except.ok.inj h; exact .absent
      | ne => obtain rfl := Except.ok.inj h; exact .present
      | lt => exact nomatch h
      | le => exact nomatch h
      | gt => exact nomatch h
      | ge => exact nomatch h
  | member negated => exact nomatch h

/-- On one literal a predicate compares the field with its value. -/
theorem expresses_of_scalarCondition_ok {t : FieldType} {field : String} {op : Operator}
    {l : Literal} {path : Path} {p : Predicate}
    (h : scalarCondition field t op l path = .ok p) : Expresses t field op (.scalar l) p := by
  cases op with
  | compare c =>
      rw [scalarCondition] at h
      cases hv : t.coerce l with
      | error e => simp only [hv] at h; exact nomatch h
      | ok v =>
          simp only [hv] at h
          obtain rfl := Except.ok.inj h
          exact .comparison hv
  | member negated => exact nomatch h

/-- On a set a predicate compares the field with all values, in their order. -/
theorem expresses_of_setCondition_ok {t : FieldType} {field : String} {op : Operator}
    {ls : List Literal} {path : Path} {p : Predicate}
    (h : setCondition field t op ls path = .ok p) : Expresses t field op (.set ls) p := by
  cases op with
  | compare c => exact nomatch h
  | member negated =>
      rw [setCondition] at h
      by_cases hls : ls = []
      · simp only [if_pos hls] at h; exact nomatch h
      · cases hv : t.coerceAll ls with
        | error e => simp only [if_neg hls, hv] at h; exact nomatch h
        | ok vs =>
            simp only [if_neg hls, hv] at h
            obtain rfl := Except.ok.inj h
            exact .membership hls (FieldType.forall₂_of_coerceAll_ok hv)

/-- **WHAT A LEAF BECOMES**: its field has a type, which has an order if the
    operator asks for one, and the condition is what the leaf expresses at that
    type. -/
theorem expresses_of_leafCondition_ok {field : String} {op : Operator} {operand : Operand}
    {path : Path} {p : Predicate}
    (h : leafCondition resolver entity field op operand path = .ok p) :
    ∃ t, resolver entity field = .ok t
      ∧ (op.isOrdering = true → t.isOrderable = true)
      ∧ Expresses t field op operand p := by
  rw [leafCondition] at h
  cases ht : resolver entity field with
  | error e => simp only [ht] at h; exact nomatch h
  | ok t =>
      simp only [ht] at h
      -- the operator has to suit the type before the operand is looked at
      by_cases ho : (op.isOrdering && !t.isOrderable) = true
      · rw [if_pos ho] at h; exact nomatch h
      · rw [if_neg ho] at h
        refine ⟨t, rfl, ?_, ?_⟩
        · intro hop
          cases htype : t.isOrderable with
          | true => rfl
          | false => exact absurd (by rw [hop, htype]; rfl) ho
        · cases operand with
          | null => exact expresses_of_nullCondition_ok h
          | scalar l => exact expresses_of_scalarCondition_ok h
          | set ls => exact expresses_of_setCondition_ok h

/-- What a leaf expresses at a type that suits its operator is what it becomes. -/
theorem leafCondition_of_expresses {t : FieldType} {field : String} {op : Operator}
    {operand : Operand} {p : Predicate} (ht : resolver entity field = .ok t)
    (hord : op.isOrdering = true → t.isOrderable = true) (h : Expresses t field op operand p)
    (path : Path) : leafCondition resolver entity field op operand path = .ok p := by
  have hsuits : (op.isOrdering && !t.isOrderable) = false := by
    cases hop : op.isOrdering with
    | true => rw [hord hop]; rfl
    | false => rfl
  rw [leafCondition, ht]
  dsimp only
  rw [hsuits, if_neg Bool.false_ne_true]
  cases h with
  | comparison hv =>
      dsimp only
      rw [scalarCondition, hv]
  | membership hls hvs =>
      dsimp only
      rw [setCondition, FieldType.coerceAll_of_forall₂ hvs]
      exact if_neg hls
  | absent => rfl
  | present => rfl

/-- Filter trees are built one by one, in their order. -/
theorem forall₂_of_buildAll_ok {ns : List Node} {ps : List Predicate}
    (h : buildAll resolver entity ns = .ok ps) :
    List.Forall₂ (fun n p => build resolver entity n = .ok p) ns ps := by
  induction ns generalizing ps with
  | nil =>
      obtain rfl : [] = ps := Except.ok.inj h
      exact .nil
  | cons n ns ih =>
      rw [buildAll_cons] at h
      obtain ⟨p, hn, hrest⟩ := bind_eq_ok h
      obtain ⟨qs, hns, rfl⟩ := map_eq_ok hrest
      exact .cons hn (ih hns)

/-- **WHAT A COMBINATOR BECOMES**: the combination of what its children become. -/
theorem exists_of_build_combinator_ok {k : Combinator} {ns : List Node} {path : Path}
    {p : Predicate} (h : build resolver entity (.combinator k ns path) = .ok p) :
    ∃ ps, List.Forall₂ (fun n q => build resolver entity n = .ok q) ns ps
      ∧ Predicate.combine k ps = some p := by
  rw [build_combinator] at h
  obtain ⟨ps, hps, h⟩ := bind_eq_ok h
  cases hp : Predicate.combine k ps with
  | none => simp only [hp] at h; exact nomatch h
  | some q =>
      simp only [hp] at h
      obtain rfl := Except.ok.inj h
      exact ⟨ps, forall₂_of_buildAll_ok hps, hp⟩

theorem buildAll_of_forall₂ {ns : List Node} {ps : List Predicate}
    (h : List.Forall₂ (fun n p => build resolver entity n = .ok p) ns ps) :
    buildAll resolver entity ns = .ok ps := by
  induction h with
  | nil => rfl
  | cons hp _ ih =>
      rw [buildAll, hp, ih]
      rfl

/-- A combinator is built if its children are and combine. -/
theorem build_combinator_of_forall₂ {k : Combinator} {ns : List Node} {ps : List Predicate}
    {p : Predicate} (hps : List.Forall₂ (fun n q => build resolver entity n = .ok q) ns ps)
    (h : Predicate.combine k ps = some p) (path : Path) :
    build resolver entity (.combinator k ns path) = .ok p := by
  rw [build_combinator, buildAll_of_forall₂ hps]
  dsimp only [Except.bind]
  rw [h]

theorem build_of_compileNode_ok {c : Compiler} {n : Node} {p : Predicate}
    (h : c.compileNode n = .ok p) : build c.resolver c.entity n = .ok p := by
  rw [Compiler.compileNode] at h
  by_cases hdepth : c.limits.maxDepth < n.depth
  · rw [if_pos hdepth] at h; exact nomatch h
  · rw [if_neg hdepth] at h; exact h

/-- A document that compiles goes through its tree. -/
theorem exists_of_compileDocument_ok {c : Compiler} {d : Json.Document} {p : Predicate}
    (h : c.compileDocument d = .ok p) :
    ∃ n, parse c.limits d = .ok n ∧ build c.resolver c.entity n = .ok p := by
  obtain ⟨n, hn, hp⟩ := bind_eq_ok h
  exact ⟨n, hn, build_of_compileNode_ok hp⟩

end Filter

end RecordFilter
