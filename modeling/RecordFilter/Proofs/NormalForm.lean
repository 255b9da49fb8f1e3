import RecordFilter.Proofs.Building
import RecordFilter.Proofs.Combine

/-! # The form of built predicates

    A predicate that is built from a filter tree is well typed, leaf by leaf;
    its inner nodes are in a normal form; and its leaves are those of the tree.

    The normal form says that the first child of a node is no node of the same
    combinator.  It survives the merging of first children because the child
    that is merged away is itself in normal form: what comes to stand first is
    that child's own first child. -/

namespace RecordFilter

namespace Predicate

/-- Every inner node has at least two children, and the first of them is no
    node of the same combinator. -/
inductive Normal : Predicate → Prop where
  | leaf {p : Predicate} : p.combinator? = none → Normal p
  | compound {k : Combinator} {first second : Predicate} {rest : List Predicate} :
      first.combinator? ≠ some k → (∀ p ∈ first :: second :: rest, Normal p) →
      Normal (.compound k (first :: second :: rest))

/-- The normal form is kept when predicates are combined. -/
theorem normal_combine {k : Combinator} {ps : List Predicate} {p : Predicate}
    (hps : ∀ q ∈ ps, Normal q) (h : combine k ps = some p) : Normal p := by
  rcases combine_cases h with rfl | ⟨first, q, qs, rfl, rfl⟩
  · exact hps p (List.mem_singleton.mpr rfl)
  · have hfirst : Normal first := hps first (List.mem_cons_self ..)
    have hrest : ∀ x ∈ q :: qs, Normal x := fun x hx => hps x (List.mem_cons_of_mem _ hx)
    rcases parts_cases k first with heq | ⟨hne, hparts⟩
    · -- the first predicate is merged, so its own first child comes first
      rw [heq] at hfirst
      generalize first.parts k = cs at hfirst ⊢
      cases hfirst with
      | leaf hleaf => exact nomatch hleaf
      | @compound _ head second rest hhead hall =>
          refine .compound hhead ?_
          intro x hx
          rcases List.mem_append.mp (show x ∈ (head :: second :: rest) ++ q :: qs from hx)
            with hx | hx
          · exact hall x hx
          · exact hrest x hx
    · rw [hparts]
      exact .compound hne hps

end Predicate

namespace Filter

variable {resolver : Resolver} {entity : String}

/-- A leaf whose values are of the type of its field and finite, whose order is
    asked for only if its field is numeric or temporal, and whose set is not
    empty. -/
inductive WellTyped (resolver : Resolver) (entity : String) : Predicate → Prop where
  | comparison {c : Comparison} {field : String} {v : Value} :
      resolver entity field = .ok v.fieldType → v.IsFinite →
      (c ∈ [Comparison.lt, .le, .gt, .ge] →
        v.fieldType.isNumeric = true ∨ v.fieldType.isTemporal = true) →
      WellTyped resolver entity (.comparison c field v)
  | membership {negated : Bool} {field : String} {vs : List Value} :
      vs ≠ [] → (∀ v ∈ vs, resolver entity field = .ok v.fieldType ∧ v.IsFinite) →
      WellTyped resolver entity (.membership negated field vs)
  | absence {negated : Bool} {field : String} {t : FieldType} :
      resolver entity field = .ok t → WellTyped resolver entity (.absence negated field)

/-- A leaf of a filter tree and the condition on the same field that it
    expresses. -/
inductive LeafMatches (resolver : Resolver) (entity : String) : Node → Predicate → Prop where
  | intro {field : String} {op : Operator} {operand : Operand} {path : Path} {t : FieldType}
      {p : Predicate} :
      resolver entity field = .ok t → Expresses t field op operand p →
      LeafMatches resolver entity (.leaf field op operand path) p

/-! ## One leaf -/

theorem combinator?_of_expresses {t : FieldType} {field : String} {op : Operator}
    {operand : Operand} {p : Predicate} (h : Expresses t field op operand p) :
    p.combinator? = none := by
  cases h <;> rfl

theorem wellTyped_of_leafCondition_ok {field : String} {op : Operator} {operand : Operand}
    {path : Path} {p : Predicate}
    (h : leafCondition resolver entity field op operand path = .ok p) :
    WellTyped resolver entity p := by
  obtain ⟨t, ht, hord, hp⟩ := expresses_of_leafCondition_ok h
  cases hp with
  | @comparison c l v hv =>
      obtain ⟨rfl, hfin⟩ := FieldType.of_coerce_ok hv
      refine .comparison ht hfin ?_
      -- among the comparisons only an order asks anything of the type
      intro hc
      have hordering : c.isOrdering = true := by
        cases c with
        | eq => exact absurd hc (by decide)
        | ne => exact absurd hc (by decide)
        | lt => rfl
        | le => rfl
        | gt => rfl
        | ge => rfl
      exact (Bool.or_eq_true ..).mp (hord hordering)
  | @membership negated ls vs hls hvs =>
      refine .membership ?_ ?_
      · rintro rfl
        exact hls (List.forall₂_nil_right_iff.mp hvs)
      · intro v hv
        obtain ⟨l, -, hl⟩ := exists_of_forall₂_of_mem_right hvs hv
        obtain ⟨rfl, hfin⟩ := FieldType.of_coerce_ok hl
        exact ⟨ht, hfin⟩
  | absent => exact .absence ht
  | present => exact .absence ht

/-! ## Whole trees -/

/-- The leaves of trees that are built one by one. -/
theorem forall₂_leavesOfAll {ns : List Node} {ps : List Predicate}
    {R : Node → Predicate → Prop}
    (h : List.Forall₂ (fun n p => List.Forall₂ R n.leaves p.leaves) ns ps) :
    List.Forall₂ R (Node.leavesOfAll ns) (Predicate.leavesOfAll ps) := by
  induction h with
  | nil => exact .nil
  | cons hnp _ ih => exact List.rel_append hnp ih

/-- **LEAF BY LEAF**: what relates every leaf to its condition relates the
    leaves of a tree to those of its predicate, in their order. -/
theorem forall₂_leaves_of_build_ok {R : Node → Predicate → Prop}
    (hleaf : ∀ field op operand path q,
      leafCondition resolver entity field op operand path = .ok q →
      R (.leaf field op operand path) q)
    {n : Node} {p : Predicate} (h : build resolver entity n = .ok p) :
    List.Forall₂ R n.leaves p.leaves := by
  induction n generalizing p with
  | leaf field op operand path =>
      obtain ⟨t, -, -, hp⟩ := expresses_of_leafCondition_ok h
      have hleaves : p.leaves = [p] := by cases hp <;> rfl
      rw [hleaves]
      exact .cons (hleaf field op operand path p h) .nil
  | combinator k ns path ih =>
      obtain ⟨ps, hps, hcombine⟩ := exists_of_build_combinator_ok h
      rw [Predicate.leaves_combine hcombine]
      exact forall₂_leavesOfAll (forall₂_of_mem_left hps fun n hn q => ih n hn)

/-- Every built predicate is in normal form. -/
theorem normal_of_build_ok {n : Node} {p : Predicate}
    (h : build resolver entity n = .ok p) : p.Normal := by
  induction n generalizing p with
  | leaf field op operand path =>
      obtain ⟨t, -, -, hp⟩ := expresses_of_leafCondition_ok h
      exact .leaf (combinator?_of_expresses hp)
  | combinator k ns path ih =>
      obtain ⟨ps, hps, hcombine⟩ := exists_of_build_combinator_ok h
      refine Predicate.normal_combine ?_ hcombine
      intro q hq
      obtain ⟨n, hn, hnq⟩ := exists_of_forall₂_of_mem_right hps hq
      exact ih n hn hnq

/-- **THE FORM OF BUILT PREDICATES**: whatever the tree, its leaves become
    well-typed conditions one for one and in their order, and the nodes above
    them are in normal form. -/
theorem build_ok_form (resolver : Resolver) (entity : String) (n : Node) (p : Predicate)
    (h : build resolver entity n = .ok p) :
    (∀ q ∈ p.leaves, WellTyped resolver entity q) ∧ p.Normal
      ∧ List.Forall₂ (LeafMatches resolver entity) n.leaves p.leaves
      ∧ p.leafCount = n.leafCount := by
  have htyped : List.Forall₂ (fun _ q => WellTyped resolver entity q) n.leaves p.leaves :=
    forall₂_leaves_of_build_ok (fun _ _ _ _ _ hq => wellTyped_of_leafCondition_ok hq) h
  have hmatch : List.Forall₂ (LeafMatches resolver entity) n.leaves p.leaves := by
    refine forall₂_leaves_of_build_ok ?_ h
    intro field op operand path q hq
    obtain ⟨t, ht, -, hexp⟩ := expresses_of_leafCondition_ok hq
    exact .intro ht hexp
  refine ⟨?_, normal_of_build_ok h, hmatch, hmatch.length_eq.symm⟩
  intro q hq
  obtain ⟨-, -, hqt⟩ := exists_of_forall₂_of_mem_right htyped hq
  exact hqt

/-- A first child of the same kind is merged, a single child is unwrapped, and the
    elements of a set become values of the type of their field. -/
theorem build_ok_form_merged :
    let person : Entity := ⟨"Person", [⟨"age", .int32⟩, ⟨"name", .text⟩]⟩
    let n : Node := .combinator .and [
      .combinator .and [.leaf "name" (.compare .ne) .null .root,
        .leaf "name" (.member true) (.set [.text "Bob", .bool true]) .root] .root,
      .combinator .or [.leaf "age" (.compare .ge) (.scalar (.number "18")) .root] .root] .root
    let p : Predicate := .compound .and [.absence true "name",
      .membership true "name" [.text "Bob", .text "true"], .comparison .ge "age" (.int32 18)]
    build person.resolver "Person" n = .ok p
      ∧ (∀ q ∈ p.leaves, WellTyped person.resolver "Person" q) ∧ p.Normal
      ∧ List.Forall₂ (LeafMatches person.resolver "Person") n.leaves p.leaves
      ∧ p.leafCount = n.leafCount :=
  ⟨rfl, build_ok_form _ _ _ _ rfl⟩

end Filter

end RecordFilter
