import RecordFilter.Predicate.Evaluate

/-! # What joining keeps

    Joining predicates from left to right merges the first of them into the
    node that is built, and only the first.  `Predicate.parts` is what it
    brings along, and `combine_cons_cons` writes the node out: its children are
    the parts of the first predicate, and the others as they are.  The answers
    and the leaves of the result are read off that form.

    A group of predicates may be combined before the rest.  In front this
    changes nothing, because the group is merged again; behind it stays a node
    of its own, with the same answers (`combine_is_lawful`). -/

namespace RecordFilter

/-- Truth values may be joined group by group. -/
theorem Combinator.fold_append (k : Combinator) (as bs : List Bool) :
    k.fold (as ++ bs) = k.fold [k.fold as, k.fold bs] := by
  cases k <;> simp [Combinator.fold]

/-- A truth value alone is its own join. -/
theorem Combinator.fold_singleton (k : Combinator) (a : Bool) : k.fold [a] = a := by
  cases k <;> simp [Combinator.fold]

namespace Predicate

/-- The children that a predicate brings along as the first one of a node: its
    own, if it is a node of the same combinator, and itself otherwise. -/
def parts (k : Combinator) (p : Predicate) : List Predicate :=
  match p with
  | .compound j children => if j = k then children else [p]
  | p => [p]

theorem parts_compound (k : Combinator) (ps : List Predicate) :
    parts k (.compound k ps) = ps :=
  if_pos rfl

/-- A predicate that is no node of the combinator brings itself. -/
theorem parts_of_ne {k : Combinator} {p : Predicate} (h : p.combinator? ≠ some k) :
    p.parts k = [p] := by
  cases p with
  | compound j ps => exact if_neg fun hj => h (congrArg some hj)
  | comparison c f v => rfl
  | membership m f vs => rfl
  | absence m f => rfl

/-- A predicate either is a node of the combinator or brings itself. -/
theorem parts_cases (k : Combinator) (p : Predicate) :
    p = .compound k (p.parts k) ∨ (p.combinator? ≠ some k ∧ p.parts k = [p]) := by
  by_cases h : p.combinator? = some k
  · cases p with
    | compound j ps =>
        obtain rfl : j = k := Option.some.inj h
        exact Or.inl (by rw [parts_compound])
    | comparison c f v => exact nomatch h
    | membership m f vs => exact nomatch h
    | absence m f => exact nomatch h
  · exact Or.inr ⟨h, parts_of_ne h⟩

theorem join_eq (k : Combinator) (p q : Predicate) :
    join k p q = .compound k (p.parts k ++ [q]) := by
  cases p with
  | compound j ps =>
      show (if j = k then compound k (ps ++ [q]) else compound k [compound j ps, q])
        = compound k ((if j = k then ps else [compound j ps]) ++ [q])
      by_cases hj : j = k
      · rw [if_pos hj, if_pos hj]
      · rw [if_neg hj, if_neg hj]; rfl
  | comparison c f v => rfl
  | membership m f vs => rfl
  | absence m f => rfl

/-- Once a node of the combinator is there, every further predicate becomes its
    last child. -/
theorem foldl_join_compound (k : Combinator) (qs ps : List Predicate) :
    qs.foldl (join k) (.compound k ps) = .compound k (ps ++ qs) := by
  induction qs generalizing ps with
  | nil => rw [List.foldl_nil, List.append_nil]
  | cons q qs ih =>
      rw [List.foldl_cons, join_eq, parts_compound, ih, List.append_assoc,
        List.singleton_append]

/-- **THE JOINED NODE**: the first of several predicates brings its parts, the
    others become children as they are. -/
theorem combine_cons_cons (k : Combinator) (p q : Predicate) (qs : List Predicate) :
    combine k (p :: q :: qs) = some (.compound k (p.parts k ++ q :: qs)) := by
  show some ((q :: qs).foldl (join k) p) = _
  rw [List.foldl_cons, join_eq, foldl_join_compound, List.append_assoc,
    List.singleton_append]

/-- The two ways in which predicates can be combined. -/
theorem combine_cases {k : Combinator} {ps : List Predicate} {p : Predicate}
    (h : combine k ps = some p) :
    ps = [p] ∨ ∃ first q qs, ps = first :: q :: qs
      ∧ p = .compound k (first.parts k ++ q :: qs) := by
  match ps with
  | [] => exact nomatch h
  | [first] => exact Or.inl (congrArg (fun x => [x]) (Option.some.inj h))
  | first :: q :: qs =>
      rw [combine_cons_cons] at h
      exact Or.inr ⟨first, q, qs, rfl, (Option.some.inj h).symm⟩

/-! ## Answers -/

/-- The parts of a predicate answer, joined, as the predicate does. -/
theorem fold_map_parts (r : Record) (k : Combinator) (p : Predicate) :
    k.fold ((p.parts k).map (evaluate r)) = p.evaluate r := by
  rcases parts_cases k p with h | ⟨-, h⟩
  · -- only the right side: the parts on the left are those of `p` itself
    conv => rhs; rw [h]
    rw [evaluate_compound]
  · rw [h]
    exact k.fold_singleton (p.evaluate r)

/-- Merging the first predicate does not change the answer of the node. -/
theorem evaluate_compound_parts (r : Record) (k : Combinator) (p : Predicate)
    (ps : List Predicate) :
    evaluate r (.compound k (p.parts k ++ ps)) = k.fold ((p :: ps).map (evaluate r)) := by
  calc evaluate r (.compound k (p.parts k ++ ps))
      = k.fold ((p.parts k).map (evaluate r) ++ ps.map (evaluate r)) := by
        rw [evaluate_compound, List.map_append]
    _ = k.fold [p.evaluate r, k.fold (ps.map (evaluate r))] := by
        rw [k.fold_append, fold_map_parts]
    _ = k.fold ([p.evaluate r] ++ ps.map (evaluate r)) := by
        rw [k.fold_append, k.fold_singleton]
    _ = k.fold ((p :: ps).map (evaluate r)) := rfl

/-- **ANSWERS ARE KEPT**: a record meets combined predicates as it meets all of
    them, or one of them, each taken on its own. -/
theorem evaluate_combine (r : Record) {k : Combinator} {ps : List Predicate} {p : Predicate}
    (h : combine k ps = some p) : p.evaluate r = k.fold (ps.map (evaluate r)) := by
  rcases combine_cases h with rfl | ⟨first, q, qs, rfl, rfl⟩
  · exact (k.fold_singleton (p.evaluate r)).symm
  · exact evaluate_compound_parts r k first (q :: qs)

/-! ## Leaves -/

theorem leavesOfAll_append (ps qs : List Predicate) :
    leavesOfAll (ps ++ qs) = leavesOfAll ps ++ leavesOfAll qs := by
  rw [leavesOfAll_eq_flatMap, leavesOfAll_eq_flatMap, leavesOfAll_eq_flatMap,
    List.flatMap_append]

theorem leavesOfAll_singleton (p : Predicate) : leavesOfAll [p] = p.leaves :=
  List.append_nil p.leaves

/-- The parts of a predicate have its leaves. -/
theorem leavesOfAll_parts (k : Combinator) (p : Predicate) :
    leavesOfAll (p.parts k) = p.leaves := by
  rcases parts_cases k p with h | ⟨-, h⟩
  · conv => rhs; rw [h]
    rfl
  · rw [h, leavesOfAll_singleton]

/-- **LEAVES ARE KEPT**: the leaves of combined predicates are theirs, in their
    order. -/
theorem leaves_combine {k : Combinator} {ps : List Predicate} {p : Predicate}
    (h : combine k ps = some p) : p.leaves = leavesOfAll ps := by
  rcases combine_cases h with rfl | ⟨first, q, qs, rfl, rfl⟩
  · exact (leavesOfAll_singleton p).symm
  · show leavesOfAll (first.parts k ++ q :: qs) = first.leaves ++ leavesOfAll (q :: qs)
    rw [leavesOfAll_append, leavesOfAll_parts]

/-! ## Combining group by group -/

theorem exists_combine (k : Combinator) {ps : List Predicate} (h : ps ≠ []) :
    ∃ p, combine k ps = some p := by
  cases ps with
  | nil => exact absurd rfl h
  | cons p ps => exact ⟨_, rfl⟩

/-- **A GROUP IN FRONT IS OPENED**: combining goes on from a combination as from its parts. -/
theorem combine_cons_of_combine {k : Combinator} {xs : List Predicate} {c : Predicate}
    (h : combine k xs = some c) (ys : List Predicate) :
    combine k (c :: ys) = combine k (xs ++ ys) := by
  cases xs with
  | nil => exact nomatch h
  | cons x xs =>
      obtain rfl := Option.some.inj h
      exact congrArg some List.foldl_append.symm

/-- **A GROUP BEHIND KEEPS THE ANSWER**: it becomes a node of its own and answers as its
    members do. -/
theorem evaluate_combine_group (r : Record) {k : Combinator} {xs ys : List Predicate}
    {c p q : Predicate} (hc : combine k ys = some c) (hp : combine k (xs ++ [c]) = some p)
    (hq : combine k (xs ++ ys) = some q) : p.evaluate r = q.evaluate r := by
  calc p.evaluate r
      = k.fold (xs.map (evaluate r) ++ [c.evaluate r]) := by
        rw [evaluate_combine r hp, List.map_append, List.map_singleton]
    _ = k.fold [k.fold (xs.map (evaluate r)), c.evaluate r] := by
        rw [k.fold_append, k.fold_singleton]
    _ = k.fold [k.fold (xs.map (evaluate r)), k.fold (ys.map (evaluate r))] := by
        rw [evaluate_combine r hc]
    _ = q.evaluate r := by
        rw [← k.fold_append, ← List.map_append, evaluate_combine r hq]

/-- Joining is associative in meaning, and in form only where the first one is a node. -/
theorem evaluate_join_assoc (r : Record) (k : Combinator) (p q s : Predicate) :
    (join k (join k p q) s).evaluate r = (join k p (join k q s)).evaluate r := by
  -- both sides answer as the three in a row
  have hleft : combine k [join k p q, s] = combine k [p, q, s] :=
    combine_cons_of_combine (show combine k [p, q] = some (join k p q) from rfl) [s]
  have hright : combine k ([p] ++ [join k q s]) = some (join k p (join k q s)) := rfl
  exact (evaluate_combine_group r (show combine k [q, s] = some (join k q s) from rfl) hright
    hleft.symm).symm

/-- **COMBINING IS A LAWFUL FOLD**: several predicates always combine, to one that has all their
    leaves and joins their answers.  A single one stays as it is; the first of several is merged
    if it is a node of the combinator, also one with a single child or none, and all the others
    are kept.  So a group in front may be combined before the rest without any change, and a
    group behind without a change of the answers. -/
theorem combine_is_lawful (k : Combinator) :
    (∀ ps, ps ≠ [] → ∃ p, combine k ps = some p ∧ p.leaves = ps.flatMap leaves
        ∧ ∀ r, p.evaluate r = k.fold (ps.map (evaluate r)))
      ∧ (∀ p, combine k [p] = some p)
      ∧ (∀ children q qs, combine k (.compound k children :: q :: qs)
          = some (.compound k (children ++ q :: qs)))
      ∧ (∀ p q qs, p.combinator? ≠ some k →
          combine k (p :: q :: qs) = some (.compound k (p :: q :: qs)))
      ∧ (∀ xs ys, xs ≠ [] →
          ∃ c, combine k xs = some c ∧ combine k (c :: ys) = combine k (xs ++ ys))
      ∧ (∀ xs ys, ys ≠ [] → ∃ c p q, combine k ys = some c ∧ combine k (xs ++ [c]) = some p
          ∧ combine k (xs ++ ys) = some q ∧ ∀ r, p.evaluate r = q.evaluate r)
      ∧ ∀ p q s r, (join k (join k p q) s).evaluate r = (join k p (join k q s)).evaluate r := by
  refine ⟨?_, fun p => rfl, ?_, ?_, ?_, ?_, fun p q s r => evaluate_join_assoc r k p q s⟩
  · intro ps hps
    obtain ⟨p, hp⟩ := exists_combine k hps
    exact ⟨p, hp, (leaves_combine hp).trans (leavesOfAll_eq_flatMap ps),
      fun r => evaluate_combine r hp⟩
  · intro children q qs
    rw [combine_cons_cons, parts_compound]
  · intro p q qs hne
    rw [combine_cons_cons, parts_of_ne hne, List.singleton_append]
  · intro xs ys hxs
    obtain ⟨c, hc⟩ := exists_combine k hxs
    exact ⟨c, hc, combine_cons_of_combine hc ys⟩
  -- on the right the merged chunk is a child, so only the answers agree
  · intro xs ys hys
    obtain ⟨c, hc⟩ := exists_combine k hys
    obtain ⟨p, hp⟩ :=
      exists_combine k (List.append_ne_nil_of_right_ne_nil xs (List.cons_ne_nil c []))
    obtain ⟨q, hq⟩ := exists_combine k (List.append_ne_nil_of_right_ne_nil xs hys)
    exact ⟨c, p, q, hc, hp, hq, fun r => evaluate_combine_group r hc hp hq⟩

/-- An empty conjunction in front is merged away, and behind it stays as a child; of the other
    combinator it stays in front as well. -/
theorem combine_is_lawful_of_empty :
    let empty : Predicate := .compound .and []
    let p : Predicate := .absence false "x"
    let q : Predicate := .absence true "y"
    (([empty, p, q] ≠ [] ∧ ∃ c, combine .and [empty, p, q] = some c
          ∧ c.leaves = [empty, p, q].flatMap leaves
          ∧ ∀ r, c.evaluate r = Combinator.fold .and ([empty, p, q].map (evaluate r)))
        ∧ combine .and [empty, p, q] = some (.compound .and [p, q]))
      ∧ (empty.combinator? ≠ some .or ∧ combine .or [empty, p] = some (.compound .or [empty, p]))
      ∧ ([empty, p] ≠ [] ∧ ∃ c, combine .and [empty, p] = some c
          ∧ combine .and [c, q] = combine .and [empty, p, q])
      ∧ ∃ c a b, combine .and [empty] = some c ∧ combine .and [p, c] = some a
          ∧ combine .and [p, empty] = some b ∧ ∀ r, a.evaluate r = b.evaluate r := by
  intro empty p q
  obtain ⟨hexists, -, hmerged, -, hfront, hbehind, -⟩ := combine_is_lawful .and
  obtain ⟨-, -, -, hkept, -⟩ := combine_is_lawful .or
  have hthree : [empty, p, q] ≠ [] := List.cons_ne_nil _ _
  have htwo : [empty, p] ≠ [] := List.cons_ne_nil _ _
  have hother : empty.combinator? ≠ some .or := by decide
  exact ⟨⟨⟨hthree, hexists _ hthree⟩, hmerged [] p [q]⟩, ⟨hother, hkept empty p [] hother⟩,
    ⟨htwo, hfront _ [q] htwo⟩, hbehind [p] [empty] (List.cons_ne_nil _ _)⟩

end Predicate

end RecordFilter
