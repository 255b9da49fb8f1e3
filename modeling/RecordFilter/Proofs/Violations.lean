import RecordFilter.Proofs.Grammar

/-! # Broken rules

    `violations` lists every rule of the grammar that a document breaks, in
    preorder: the rules of a node itself, then those of its children or of the
    elements of its set, from left to right.  Nothing is left out behind the
    first one, so the list is said without any order of checks but its own.

    A document without violations conforms, and a conforming one has none
    (`violations_eq_nil_iff`). -/

namespace RecordFilter.Filter

open Json

/-- A broken rule: the words for it, and the place where it is broken. -/
structure Violation where
  message : String
  path : Path

/-! ## The list of violations -/

/-- The elements of a set, from an index on, that are no scalars. -/
def elementViolations (op : Operator) (path : Path) (i : Nat) :
    List Document → List Violation
  | [] => []
  | d :: ds =>
      (if IsLiteral d then []
        else [⟨"operator '" ++ op.token ++ "' expects scalar values", path.index i⟩])
        ++ elementViolations op path (i + 1) ds

/-- The rules that the operand of an operator breaks. -/
def operandViolations (limits : Limits) (op : Operator) (path : Path) (d : Document) :
    List Violation :=
  match op, d with
  | .compare _, .array _ => [⟨"operator '" ++ op.token ++ "' expects a scalar value", path⟩]
  | .compare _, .object _ => [⟨"operator '" ++ op.token ++ "' expects a scalar value", path⟩]
  | .compare _, _ => []
  | .member _, .array [] =>
      [⟨"operator '" ++ op.token ++ "' expects a non-empty array", path⟩]
  | .member _, .array ds =>
      (if ds.length ≤ limits.maxSetLength then []
        else [⟨"operator '" ++ op.token ++ "' accepts at most "
          ++ integerText limits.maxSetLength ++ " values", path⟩])
        ++ elementViolations op path 0 ds
  | .member _, _ => [⟨"operator '" ++ op.token ++ "' expects an array", path⟩]

/-- The rules that the value under the name of a field breaks. -/
def leafViolations (limits : Limits) (path : Path) : Document → List Violation
  | .object [] => [⟨"missing operator/value", path⟩]
  | .object [(token, d)] =>
      match tokens.lookup token with
      | none => [⟨"unsupported operator '" ++ token ++ "'", path.key token⟩]
      | some op => operandViolations limits op (path.key token) d
  | .object (_ :: _ :: _) => [⟨"only one operator per predicate", path⟩]
  | _ => [⟨"object expected", path⟩]

mutual

/-- The rules that a document breaks inside of `depth` combinators. -/
def violations (limits : Limits) (depth : Nat) (path : Path) : Document → List Violation
  | .object [] => [⟨"empty predicate/logic node", path⟩]
  | .object [(key, d)] =>
      if key = "AND" ∨ key = "OR" then
        (if depth < limits.maxDepth then []
          else [⟨"maximum nesting depth exceeded", path.key key⟩])
          ++ conditionViolations limits depth key (path.key key) d
      else leafViolations limits (path.key key) d
  | .object (_ :: _ :: _) => [⟨"only one predicate per object", path⟩]
  | _ => [⟨"object expected", path⟩]

/-- The rules that the value under a keyword breaks. -/
def conditionViolations (limits : Limits) (depth : Nat) (key : String) (path : Path) :
    Document → List Violation
  | .array [] => [⟨key ++ " requires at least one condition", path⟩]
  | .array ds => childViolations limits (depth + 1) path 0 ds
  | _ => [⟨key ++ " expects an array of conditions", path⟩]

/-- The rules that the items of an array break, from an index on. -/
def childViolations (limits : Limits) (depth : Nat) (path : Path) (i : Nat) :
    List Document → List Violation
  | [] => []
  | d :: ds =>
      violations limits depth (path.index i) d ++ childViolations limits depth path (i + 1) ds

end

theorem violations_of_ne_object {limits : Limits} {depth : Nat} {path : Path} {d : Document}
    (h : ∀ entries, d ≠ .object entries) :
    violations limits depth path d = [⟨"object expected", path⟩] := by
  cases d with
  | object entries => exact absurd rfl (h entries)
  | null => rfl
  | bool b => rfl
  | number s => rfl
  | string s => rfl
  | array ds => rfl

/-! ## No violations -/

/-- A broken rule goes with what does not hold. -/
theorem broken_iff {v : Violation} {p : Prop} (h : ¬ p) : [v] = [] ↔ p :=
  iff_of_false (List.cons_ne_nil v []) h

/-- Elements conform if all of them are literals. -/
theorem elementViolations_eq_nil_iff {op : Operator} {path : Path} {i : Nat}
    {ds : List Document} : elementViolations op path i ds = [] ↔ ∀ d ∈ ds, IsLiteral d := by
  induction ds generalizing i with
  | nil => exact ⟨fun _ _ hd => (nomatch hd), fun _ => rfl⟩
  | cons d ds ih =>
      rw [elementViolations, List.append_eq_nil_iff, ih, List.forall_mem_cons]
      refine and_congr_left fun _ => ?_
      by_cases hd : IsLiteral d
      · rw [if_pos hd]
        exact iff_of_true rfl hd
      · rw [if_neg hd]
        exact broken_iff hd

/-- An operand conforms if and only if nothing in it violates the grammar. -/
theorem operandViolations_eq_nil_iff {limits : Limits} {op : Operator} {path : Path}
    {d : Document} : operandViolations limits op path d = [] ↔ OperandConforms limits op d := by
  cases op with
  | compare c =>
      cases d with
      | null => exact iff_of_true rfl (Or.inl rfl)
      | bool b => exact iff_of_true rfl (Or.inr trivial)
      | number s => exact iff_of_true rfl (Or.inr trivial)
      | string s => exact iff_of_true rfl (Or.inr trivial)
      | array ds => exact broken_iff (not_or.mpr ⟨by rintro ⟨⟩, not_false⟩)
      | object es => exact broken_iff (not_or.mpr ⟨by rintro ⟨⟩, not_false⟩)
  | member negated =>
      cases d with
      | null => exact broken_iff (by rintro ⟨_, ⟨⟩, _⟩)
      | bool b => exact broken_iff (by rintro ⟨_, ⟨⟩, _⟩)
      | number s => exact broken_iff (by rintro ⟨_, ⟨⟩, _⟩)
      | string s => exact broken_iff (by rintro ⟨_, ⟨⟩, _⟩)
      | object es => exact broken_iff (by rintro ⟨_, ⟨⟩, _⟩)
      | array ds =>
          cases ds with
          | nil =>
              refine broken_iff ?_
              rintro ⟨ds, heq, hne, -⟩
              exact hne (Document.array.inj heq).symm
          | cons x ds =>
              -- a set that is too long still has its elements looked at
              show (if (x :: ds).length ≤ limits.maxSetLength then [] else _)
                ++ elementViolations _ path 0 (x :: ds) = [] ↔ _
              rw [List.append_eq_nil_iff, elementViolations_eq_nil_iff]
              constructor
              · rintro ⟨hlen, hall⟩
                refine ⟨x :: ds, rfl, List.cons_ne_nil x ds, ?_, hall⟩
                by_contra hlong
                rw [if_neg hlong] at hlen
                exact List.cons_ne_nil _ _ hlen
              · rintro ⟨ds', heq, -, hlen, hall⟩
                obtain rfl := Document.array.inj heq
                exact ⟨if_pos hlen, hall⟩

/-- A leaf conforms if it is one operator with an operand that does. -/
theorem leafViolations_eq_nil_iff {limits : Limits} {path : Path} {d : Document} :
    leafViolations limits path d = [] ↔
      ∃ token op x, d = .object [(token, x)] ∧ (token, op) ∈ tokens
        ∧ OperandConforms limits op x := by
  cases d with
  | object entries =>
      rcases entries with _ | ⟨⟨token, x⟩, _ | ⟨entry, entries⟩⟩
      · exact broken_iff (by rintro ⟨_, _, _, ⟨⟩, _⟩)
      · rw [leafViolations]
        constructor
        · intro h
          cases hop : tokens.lookup token with
          | none =>
              rw [hop] at h
              exact absurd h (List.cons_ne_nil _ _)
          | some op =>
              rw [hop] at h
              exact ⟨token, op, x, rfl, mem_tokens_iff.mpr hop,
                operandViolations_eq_nil_iff.mp h⟩
        · rintro ⟨token', op, x', heq, htoken, hx⟩
          obtain ⟨rfl, rfl⟩ : token = token' ∧ x = x' := by simpa using heq
          rw [mem_tokens_iff.mp htoken]
          exact operandViolations_eq_nil_iff.mpr hx
      · exact broken_iff (by rintro ⟨_, _, _, ⟨⟩, _⟩)
  | null => exact broken_iff (by rintro ⟨_, _, _, ⟨⟩, _⟩)
  | bool b => exact broken_iff (by rintro ⟨_, _, _, ⟨⟩, _⟩)
  | number s => exact broken_iff (by rintro ⟨_, _, _, ⟨⟩, _⟩)
  | string s => exact broken_iff (by rintro ⟨_, _, _, ⟨⟩, _⟩)
  | array ds => exact broken_iff (by rintro ⟨_, _, _, ⟨⟩, _⟩)

/-- Conditions conform if they are some and each of them does. -/
theorem conditionViolations_eq_nil_iff {limits : Limits} {depth : Nat} {key : String}
    {path : Path} {d : Document} :
    conditionViolations limits depth key path d = [] ↔
      ∃ ds, d = .array ds ∧ ds ≠ [] ∧ childViolations limits (depth + 1) path 0 ds = [] := by
  cases d with
  | array ds =>
      cases ds with
      | nil =>
          refine broken_iff ?_
          rintro ⟨ds, heq, hne, -⟩
          exact hne (Document.array.inj heq).symm
      | cons d ds =>
          constructor
          · intro h
            exact ⟨d :: ds, rfl, List.cons_ne_nil d ds, h⟩
          · rintro ⟨ds', heq, -, h⟩
            obtain rfl := Document.array.inj heq
            exact h
  | null => exact broken_iff (by rintro ⟨_, ⟨⟩, _⟩)
  | bool b => exact broken_iff (by rintro ⟨_, ⟨⟩, _⟩)
  | number s => exact broken_iff (by rintro ⟨_, ⟨⟩, _⟩)
  | string s => exact broken_iff (by rintro ⟨_, ⟨⟩, _⟩)
  | object es => exact broken_iff (by rintro ⟨_, ⟨⟩, _⟩)

theorem childViolations_eq_nil_iff {limits : Limits} {depth : Nat} {path : Path} {i : Nat}
    {ds : List Document}
    (ih : ∀ d ∈ ds, ∀ path, violations limits depth path d = [] ↔ Conforms limits depth d) :
    childViolations limits depth path i ds = [] ↔ ∀ d ∈ ds, Conforms limits depth d := by
  induction ds generalizing i with
  | nil => exact ⟨fun _ _ hd => (nomatch hd), fun _ => rfl⟩
  | cons d ds ihs =>
      rw [childViolations, List.append_eq_nil_iff, ih d (List.mem_cons_self ..),
        ihs fun x hx => ih x (List.mem_cons_of_mem _ hx), List.forall_mem_cons]

/-- A node under a keyword conforms if the keyword may stand there and its value
    is an array of conforming nodes. -/
theorem conforms_combinator_iff {limits : Limits} {depth : Nat} {key : String} {d : Document}
    (hkey : key = "AND" ∨ key = "OR") :
    Conforms limits depth (.object [(key, d)]) ↔
      depth < limits.maxDepth
        ∧ ∃ ds, d = .array ds ∧ ds ≠ [] ∧ ∀ x ∈ ds, Conforms limits (depth + 1) x := by
  constructor
  · intro h
    cases h with
    | combinator _ hdepth hne hds => exact ⟨hdepth, _, rfl, hne, hds⟩
    | leaf hand hor _ _ => exact absurd hkey (not_or.mpr ⟨hand, hor⟩)
  · rintro ⟨hdepth, ds, rfl, hne, hds⟩
    exact .combinator hkey hdepth hne hds

/-- A node under the name of a field conforms if its value holds an operator
    and an operand that suits it. -/
theorem conforms_leaf_iff {limits : Limits} {depth : Nat} {key : String} {d : Document}
    (hkey : ¬ (key = "AND" ∨ key = "OR")) :
    Conforms limits depth (.object [(key, d)]) ↔
      ∃ token op x, d = .object [(token, x)] ∧ (token, op) ∈ tokens
        ∧ OperandConforms limits op x := by
  constructor
  · intro h
    cases h with
    | combinator hcomb _ _ _ => exact absurd hcomb hkey
    | leaf _ _ htoken hx => exact ⟨_, _, _, rfl, htoken, hx⟩
  · rintro ⟨token, op, x, rfl, htoken, hx⟩
    obtain ⟨hand, hor⟩ := not_or.mp hkey
    exact .leaf hand hor htoken hx

/-- **CONFORMING MEANS BREAKING NO RULE**. -/
theorem violations_eq_nil_iff (limits : Limits) (d : Document) :
    ∀ depth path, violations limits depth path d = [] ↔ Conforms limits depth d := by
  induction d using Document.induct_node with
  | other d hd =>
      intro depth path
      -- both ways to conform ask for an object
      have hnot : ¬ Conforms limits depth d := by
        intro h
        cases h with
        | combinator _ _ _ _ => exact hd _ rfl
        | leaf _ _ _ _ => exact hd _ rfl
      rw [violations_of_ne_object hd]
      exact broken_iff hnot
  | object entries ih =>
      intro depth path
      rcases entries with _ | ⟨⟨key, d⟩, _ | ⟨entry, entries⟩⟩
      · exact broken_iff (by rintro ⟨⟩)
      · rw [violations]
        by_cases hkey : key = "AND" ∨ key = "OR"
        · rw [if_pos hkey, List.append_eq_nil_iff, conforms_combinator_iff hkey,
            conditionViolations_eq_nil_iff]
          refine and_congr ?_ (exists_congr fun ds => and_congr_right ?_)
          · by_cases hdepth : depth < limits.maxDepth
            · rw [if_pos hdepth]
              exact iff_of_true rfl hdepth
            · rw [if_neg hdepth]
              exact broken_iff hdepth
          · rintro rfl
            refine and_congr_right fun _ => ?_
            exact childViolations_eq_nil_iff fun x hx =>
              ih key ds (List.mem_singleton.mpr rfl) x hx (depth + 1)
        · rw [if_neg hkey, conforms_leaf_iff hkey]
          exact leafViolations_eq_nil_iff
      · exact broken_iff (by rintro ⟨⟩)

end RecordFilter.Filter
