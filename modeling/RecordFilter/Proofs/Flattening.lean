import RecordFilter.Predicate.Display
import RecordFilter.Proofs.NormalForm

/-! # Nodes inside of nodes

    A node that stands inside of a node of the same combinator can be opened, wherever it
    stands: the answer is the same (`evaluate_flatten`), and so is the shown condition, which
    has no parentheses there (`display_flatten`).  When all of them are opened the two
    combinators alternate from node to node (`alternates_flatten`), and a child of a node is a
    leaf or it stands in parentheses. -/

namespace RecordFilter.Predicate

mutual

/-- The predicate with nodes of one combinator inside of each other made one. -/
def flatten : Predicate → Predicate
  | .compound k children => .compound k (flattenAll k children)
  | leaf => leaf

/-- The children of a node, those of its own combinator opened. -/
def flattenAll (k : Combinator) : List Predicate → List Predicate
  | [] => []
  | p :: rest => p.flatten.parts k ++ flattenAll k rest

end

theorem flattenAll_eq_flatMap (k : Combinator) (ps : List Predicate) :
    flattenAll k ps = ps.flatMap fun p => p.flatten.parts k := by
  induction ps with
  | nil => rfl
  | cons p ps ih => simp [flattenAll, ih]

/-- Flattening keeps the combinator at the top. -/
@[simp] theorem combinator?_flatten (p : Predicate) : p.flatten.combinator? = p.combinator? := by
  cases p <;> rfl

/-! ## Answers and leaves -/

/-- A combinator may fold the answers of parts part by part. -/
theorem fold_flatMap (k : Combinator) {α : Type} (f : α → List Bool) (as : List α) :
    k.fold (as.flatMap f) = k.fold (as.map fun a => k.fold (f a)) := by
  induction as with
  | nil => rfl
  | cons a as ih =>
      calc k.fold (f a ++ as.flatMap f)
          = k.fold [k.fold (f a), k.fold (as.map fun a => k.fold (f a))] := by
            rw [k.fold_append, ih]
        _ = k.fold ([k.fold (f a)] ++ as.map fun a => k.fold (f a)) := by
            rw [k.fold_append [k.fold (f a)], k.fold_singleton]

/-- **OPENING NODES KEEPS THE ANSWER.** -/
theorem evaluate_flatten (r : Record) (p : Predicate) : p.flatten.evaluate r = p.evaluate r := by
  induction p with
  | compound k ps ih =>
      rw [flatten, evaluate_compound, evaluate_compound, flattenAll_eq_flatMap, List.map_flatMap,
        fold_flatMap]
      refine congrArg k.fold (List.map_congr_left ?_)
      intro p hp
      rw [fold_map_parts, ih p hp]
  | _ => rfl

/-- Opening nodes keeps the leaves in their order. -/
theorem leaves_flatten (p : Predicate) : p.flatten.leaves = p.leaves := by
  induction p with
  | compound k ps ih =>
      rw [flatten, leaves, leaves, flattenAll_eq_flatMap, leavesOfAll_eq_flatMap,
        leavesOfAll_eq_flatMap, List.flatMap_assoc]
      refine List.flatMap_congr ?_
      intro p hp
      rw [← leavesOfAll_eq_flatMap, leavesOfAll_parts, ih p hp]
  | _ => rfl

/-! ## The alternating form -/

/-- Every node has at least two children, and none of them is a node of its combinator. -/
inductive Alternates : Predicate → Prop where
  | leaf {p : Predicate} : p.combinator? = none → Alternates p
  | compound {k : Combinator} {ps : List Predicate} :
      1 < ps.length → (∀ p ∈ ps, p.combinator? ≠ some k) → (∀ p ∈ ps, Alternates p) →
      Alternates (.compound k ps)

/-- The parts of a predicate in alternating form are in that form, and there are some. -/
theorem Alternates.parts {k : Combinator} {p : Predicate} (h : Alternates p) :
    p.parts k ≠ [] ∧ ∀ q ∈ p.parts k, q.combinator? ≠ some k ∧ Alternates q := by
  rcases parts_cases k p with heq | ⟨hne, hparts⟩
  · rw [heq] at h
    generalize p.parts k = qs at h
    cases h with
    | leaf hleaf => exact nomatch hleaf
    | compound hlength hkinds halternate =>
        refine ⟨?_, fun q hq => ⟨hkinds q hq, halternate q hq⟩⟩
        rintro rfl
        exact absurd hlength (Nat.not_lt_zero 1)
  · rw [hparts]
    exact ⟨List.cons_ne_nil _ _, List.forall_mem_singleton.mpr ⟨hne, h⟩⟩

theorem length_le_flatMap {α β : Type} {f : α → List β} {as : List α}
    (h : ∀ a ∈ as, f a ≠ []) : as.length ≤ (as.flatMap f).length := by
  induction as with
  | nil => exact Nat.le_refl 0
  | cons a as ih =>
      have hhead := List.length_pos_iff.mpr (h a (List.mem_cons_self ..))
      have htail := ih fun b hb => h b (List.mem_cons_of_mem _ hb)
      rw [List.flatMap_cons, List.length_append, List.length_cons]
      omega

/-- **OPENED NODES ALTERNATE**, if there were two children at least in each. -/
theorem alternates_flatten {p : Predicate} (h : Normal p) : Alternates p.flatten := by
  induction p with
  | compound k ps ih =>
      cases h with
      | leaf hleaf => exact nomatch hleaf
      | @compound _ first second rest _ hall =>
          have hparts : ∀ p ∈ first :: second :: rest, p.flatten.parts k ≠ []
              ∧ ∀ q ∈ p.flatten.parts k, q.combinator? ≠ some k ∧ Alternates q := by
            intro p hp
            exact (ih p hp (hall p hp)).parts
          -- parts are never empty, so there are two of them at least
          have hlength := length_le_flatMap fun p hp => (hparts p hp).1
          have hmembers : ∀ q ∈ flattenAll k (first :: second :: rest),
              q.combinator? ≠ some k ∧ Alternates q := by
            intro q hq
            rw [flattenAll_eq_flatMap, List.mem_flatMap] at hq
            obtain ⟨p, hp, hmem⟩ := hq
            exact (hparts p hp).2 q hmem
          rw [flatten]
          refine .compound ?_ (fun q hq => (hmembers q hq).1) fun q hq => (hmembers q hq).2
          rw [flattenAll_eq_flatMap]
          exact Nat.lt_of_lt_of_le (by simp) hlength
  | _ => exact .leaf rfl

/-! ## Shown conditions -/

theorem displayChildren_eq_map (k : Combinator) (ps : List Predicate) :
    displayChildren k ps = ps.map fun p => displayChild k p p.display := by
  induction ps with
  | nil => rfl
  | cons p ps ih => simp [displayChildren, ih]

/-- What stands between the children of a node. -/
def separator (k : Combinator) : List Char := (" " ++ k.keyword ++ " ").toList

/-- A child of a node as it is shown. -/
def childText (k : Combinator) (p : Predicate) : List Char := (displayChild k p p.display).toList

/-- A compound is shown as its children with the separator between them. -/
theorem toList_display_compound (k : Combinator) (ps : List Predicate) :
    (compound k ps).display.toList = (separator k).intercalate (ps.map (childText k)) := by
  rw [display, String.toList_intercalate, displayChildren_eq_map, List.map_map]
  rfl

/-- The parts of a child are shown in a row as the child is. -/
theorem intercalate_parts (k : Combinator) (p : Predicate) :
    (separator k).intercalate ((p.parts k).map (childText k)) = childText k p := by
  rcases parts_cases k p with heq | ⟨-, hparts⟩
  · have hkind : p.combinator? = some k := by
      rw [heq]
      rfl
    rw [← toList_display_compound, ← heq, childText, displayChild, hkind]
    simp
  · rw [hparts]
    simp

/-- Rows of rows between one separator are one row. -/
theorem intercalate_append {α : Type} (sep : List α) {xs ys : List (List α)} (hxs : xs ≠ [])
    (hys : ys ≠ []) :
    sep.intercalate (xs ++ ys) = sep.intercalate xs ++ (sep ++ sep.intercalate ys) := by
  induction xs with
  | nil => exact absurd rfl hxs
  | cons x xs ih =>
      cases xs with
      | nil =>
          obtain ⟨y, ys, rfl⟩ := List.exists_cons_of_ne_nil hys
          simp
      | cons x' xs =>
          rw [List.cons_append, List.cons_append, List.intercalate_cons_cons, ← List.cons_append,
            ih (List.cons_ne_nil _ _), List.intercalate_cons_cons]
          simp

/-- Parts of parts are joined as the parts are, if none of them is empty. -/
theorem intercalate_flatMap {α β : Type} (sep : List β) {f : α → List (List β)} {as : List α}
    (h : ∀ a ∈ as, f a ≠ []) :
    sep.intercalate (as.flatMap f) = sep.intercalate (as.map fun a => sep.intercalate (f a)) := by
  induction as with
  | nil => rfl
  | cons a as ih =>
      obtain ⟨ha, has⟩ := List.forall_mem_cons.mp h
      cases as with
      | nil => simp
      | cons a' as =>
          have hrest : (a' :: as).flatMap f ≠ [] := by
            simp [has a' (List.mem_cons_self ..)]
          rw [List.flatMap_cons, intercalate_append sep ha hrest, ih has]
          simp [List.intercalate_cons_cons]

/-- **OPENING NODES KEEPS THE SHOWN CONDITION**: there were no parentheses to lose. -/
theorem display_flatten {p : Predicate} (h : Normal p) : p.flatten.display = p.display := by
  induction p with
  | compound k ps ih =>
      have hall : ∀ p ∈ ps, Normal p := by
        cases h with
        | leaf hleaf => exact nomatch hleaf
        | compound _ hall => exact hall
      have hchild : ∀ p ∈ ps,
          (separator k).intercalate ((p.flatten.parts k).map (childText k)) = childText k p := by
        intro p hp
        rw [intercalate_parts, childText, childText, displayChild, displayChild,
          combinator?_flatten, ih p hp (hall p hp)]
      refine String.toList_inj.mp ?_
      rw [flatten, toList_display_compound, toList_display_compound, flattenAll_eq_flatMap,
        List.map_flatMap, intercalate_flatMap, List.map_congr_left hchild]
      intro p hp hnil
      exact ((alternates_flatten (hall p hp)).parts (k := k)).1 (List.map_eq_nil_iff.mp hnil)
  | _ => rfl

end RecordFilter.Predicate
