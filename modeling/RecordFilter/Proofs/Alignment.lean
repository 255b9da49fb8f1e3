import RecordFilter.Proofs.Building
import RecordFilter.Proofs.Combine

/-! # Predicates side by side

    Two predicates are aligned if they are one tree but for the values in its leaves, which
    are related place by place.  What is asked of the values may depend on the field that
    they are compared with.

    Aligned predicates combine to aligned predicates (`aligned_combine`), and they answer
    alike if related values compare alike (`evaluate_eq_of_aligned`).  Where two records are
    asked, or where it matters for which comparison a value is, whole leaves are related
    instead (`evaluate_eq_of_sameTree`). -/

namespace RecordFilter.Predicate

/-- The same tree with related values in the leaves. -/
inductive Aligned (R : String → Value → Value → Prop) : Predicate → Predicate → Prop where
  | comparison {c : Comparison} {field : String} {v w : Value} :
      R field v w → Aligned R (.comparison c field v) (.comparison c field w)
  | membership {negated : Bool} {field : String} {vs ws : List Value} :
      List.Forall₂ (R field) vs ws →
      Aligned R (.membership negated field vs) (.membership negated field ws)
  | absence {negated : Bool} {field : String} :
      Aligned R (.absence negated field) (.absence negated field)
  | compound {k : Combinator} {ps qs : List Predicate} :
      List.Forall₂ (Aligned R) ps qs → Aligned R (.compound k ps) (.compound k qs)

variable {R : String → Value → Value → Prop}

/-! ## The same predicate -/

theorem forall₂_of_sameValues {vs ws : List Value} (h : sameValues vs ws = true) :
    List.Forall₂ (fun v w => v.same w = true) vs ws := by
  induction vs generalizing ws with
  | nil =>
      cases ws with
      | nil => exact .nil
      | cons w ws => exact nomatch h
  | cons v vs ih =>
      cases ws with
      | nil => exact nomatch h
      | cons w ws =>
          obtain ⟨hv, hvs⟩ := Bool.and_eq_true_iff.mp h
          exact .cons hv (ih hvs)

/-- Children are compared in order, and both lists end together. -/
theorem forall₂_of_sameAll {ps qs : List Predicate} (h : sameAll ps qs = true) :
    List.Forall₂ (fun p q => p.same q = true) ps qs := by
  induction ps generalizing qs with
  | nil =>
      cases qs with
      | nil => exact .nil
      | cons q qs => simp [sameAll] at h
  | cons p ps ih =>
      cases qs with
      | nil => simp [sameAll] at h
      | cons q qs =>
          rw [sameAll, Bool.and_eq_true] at h
          exact .cons h.1 (ih h.2)

/-- Predicates that are the same are aligned with values that are the same. -/
theorem aligned_of_same {p q : Predicate} (h : p.same q = true) :
    Aligned (fun _ v w => v.same w = true) p q := by
  induction p generalizing q with
  | comparison c field v =>
      cases q with
      | comparison d g w =>
          simp only [same, Bool.and_eq_true, beq_iff_eq] at h
          obtain ⟨⟨rfl, rfl⟩, hv⟩ := h
          exact .comparison hv
      | _ => simp [same] at h
  | membership negated field vs =>
      cases q with
      | membership n g ws =>
          simp only [same, Bool.and_eq_true, beq_iff_eq] at h
          obtain ⟨⟨rfl, rfl⟩, hvs⟩ := h
          exact .membership (forall₂_of_sameValues hvs)
      | _ => simp [same] at h
  | absence negated field =>
      cases q with
      | absence n g =>
          simp only [same, Bool.and_eq_true, beq_iff_eq] at h
          obtain ⟨rfl, rfl⟩ := h
          exact .absence
      | _ => simp [same] at h
  | compound k ps ih =>
      cases q with
      | compound j qs =>
          simp only [same, Bool.and_eq_true, beq_iff_eq] at h
          obtain ⟨rfl, hps⟩ := h
          exact .compound (forall₂_of_mem_left (forall₂_of_sameAll hps) fun p hp q => ih p hp)
      | _ => simp [same] at h

/-! ## Combining -/

theorem aligned_parts {k : Combinator} {p q : Predicate} (h : Aligned R p q) :
    List.Forall₂ (Aligned R) (p.parts k) (q.parts k) := by
  cases h with
  | comparison hv => exact .cons (.comparison hv) .nil
  | membership hvs => exact .cons (.membership hvs) .nil
  | absence => exact .cons .absence .nil
  | @compound j ps qs hps =>
      show List.Forall₂ _ (if j = k then ps else [.compound j ps])
        (if j = k then qs else [.compound j qs])
      by_cases hj : j = k
      · rw [if_pos hj, if_pos hj]
        exact hps
      · rw [if_neg hj, if_neg hj]
        exact .cons (.compound hps) .nil

/-- **COMBINING KEEPS ALIGNMENT**, as the first predicates are merged or kept together. -/
theorem aligned_combine {k : Combinator} {ps qs : List Predicate} {p : Predicate}
    (hps : List.Forall₂ (Aligned R) ps qs) (h : combine k ps = some p) :
    ∃ q, combine k qs = some q ∧ Aligned R p q := by
  rcases combine_cases h with rfl | ⟨first, second, rest, rfl, rfl⟩
  · obtain ⟨q, hq, rfl⟩ : ∃ q, Aligned R p q ∧ qs = [q] := by
      cases hps with
      | cons hq hnil => cases hnil; exact ⟨_, hq, rfl⟩
    exact ⟨q, rfl, hq⟩
  · cases hps with
    | cons hfirst htail =>
        cases htail with
        | cons hsecond hrest =>
            refine ⟨_, combine_cons_cons k _ _ _, .compound ?_⟩
            exact List.rel_append (aligned_parts hfirst) (.cons hsecond hrest)

/-! ## Answers -/

/-- Nodes answer alike if their children do, one by one. -/
theorem evaluate_compound_congr {r r' : Record} {k : Combinator} {ps qs : List Predicate}
    (h : List.Forall₂ (fun p q => p.evaluate r = q.evaluate r') ps qs) :
    (compound k ps).evaluate r = (compound k qs).evaluate r' := by
  rw [evaluate_compound, evaluate_compound]
  refine congrArg k.fold ?_
  induction h with
  | nil => rfl
  | cons hp _ ih => rw [List.map_cons, List.map_cons, hp, ih]

/-- The same tree of nodes with related leaves. -/
inductive SameTree (L : Predicate → Predicate → Prop) : Predicate → Predicate → Prop where
  | leaf {p q : Predicate} : L p q → SameTree L p q
  | compound {k : Combinator} {ps qs : List Predicate} :
      List.Forall₂ (SameTree L) ps qs → SameTree L (.compound k ps) (.compound k qs)

/-- **TREES ANSWER AS THEIR LEAVES DO.** -/
theorem evaluate_eq_of_sameTree {L : Predicate → Predicate → Prop} {r r' : Record}
    (hL : ∀ p q, L p q → p.evaluate r = q.evaluate r') {p q : Predicate}
    (hpq : SameTree L p q) : p.evaluate r = q.evaluate r' := by
  induction p generalizing q with
  | compound k ps ih =>
      cases hpq with
      | leaf hleaf => exact hL _ _ hleaf
      | compound hps =>
          exact evaluate_compound_congr (forall₂_of_mem_left hps fun p hp q => ih p hp)
  | _ =>
      cases hpq with
      | leaf hleaf => exact hL _ _ hleaf

theorem any_order_congr {vs ws : List Value}
    (h : List.Forall₂ (fun v w => ∀ u : Value, u.order v = u.order w) vs ws) (u : Value) :
    (vs.any fun v => u.order v == some .eq) = ws.any fun w => u.order w == some .eq := by
  induction h with
  | nil => rfl
  | cons hv _ ih => rw [List.any_cons, List.any_cons, ih, hv u]

/-- **ALIGNED PREDICATES ANSWER ALIKE** if related values compare alike. -/
theorem evaluate_eq_of_aligned
    (hR : ∀ field v w, R field v w → ∀ u : Value, u.order v = u.order w) (r : Record)
    {p q : Predicate} (hpq : Aligned R p q) : p.evaluate r = q.evaluate r := by
  induction p generalizing q with
  | comparison c field v =>
      cases hpq with
      | comparison hv =>
          rw [evaluate, evaluate]
          cases r.field? field with
          | none => rfl
          -- the relation is only asked where the field is there: elsewhere both answers are fixed
          | some u => exact congrArg c.holds (hR _ _ _ hv u)
  | membership negated field vs =>
      cases hpq with
      | membership hvs =>
          rw [evaluate, evaluate]
          cases r.field? field with
          | none => rfl
          | some u => exact congrArg (negated != ·) (any_order_congr (hvs.imp (hR field)) u)
  | absence negated field =>
      cases hpq
      rfl
  | compound k ps ih =>
      cases hpq with
      | compound hps =>
          exact evaluate_compound_congr (forall₂_of_mem_left hps fun p hp q => ih p hp)

end RecordFilter.Predicate
