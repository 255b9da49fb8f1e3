import RecordFilter.Proofs.Violations

/-! # What parsing answers

    Every step of the parser answers for the rules that are its own: it gives
    what the document stands for if they are kept, and the first violation
    otherwise.  `Explains` says so of a result and a list of violations, and
    there is one lemma for every function of the parser, each built from those
    of the functions that it calls. -/

namespace RecordFilter.Filter

open Json

/-- An error of the structure of a document that is the first of its
    violations. -/
structure Blames (vs : List Violation) (e : Error) : Prop where
  structural : e.kind = .structural
  noCause : e.cause? = none
  first : vs.head? = some ⟨e.message, e.path⟩

/-- A result that goes with a list of violations: a good one if there are none,
    and otherwise the first violation. -/
def Explains {α : Type} (vs : List Violation) (good : α → Prop) : Except Error α → Prop
  | .ok a => vs = [] ∧ good a
  | .error e => Blames vs e

namespace Explains

variable {α β : Type} {vs ws : List Violation} {good : α → Prop} {x : Except Error α}

/-- A refusal explains itself by the first violation of the list. -/
theorem refuse {message : String} {problem : Problem} {path : Path}
    (hmessage : message = problem.message) (hkind : problem.kind = .structural)
    (hcause : problem.cause? = none) :
    Explains (⟨message, path⟩ :: vs) good (refuse problem path) := by
  subst hmessage
  exact ⟨hkind, hcause, rfl⟩

/-- What explains a result explains every change of it. -/
theorem map {good' : β → Prop} {f : α → β} (h : Explains vs good x)
    (hf : ∀ a, good a → good' (f a)) : Explains vs good' (x.map f) := by
  cases x with
  | error e => exact h
  | ok a => exact ⟨h.1, hf a h.2⟩

/-- A result without violations leaves it to the next one to explain them. -/
theorem bind {good' : β → Prop} {f : α → Except Error β} (h : Explains vs good x)
    (hf : ∀ a, good a → Explains ws good' (f a)) : Explains (vs ++ ws) good' (x.bind f) := by
  cases x with
  | error e =>
      refine ⟨h.structural, h.noCause, ?_⟩
      rw [List.head?_append, h.first]
      rfl
  | ok a =>
      rw [h.1]
      exact hf a h.2

end Explains

theorem append_literal {a b c d : String} (h : d = b ++ c) : a ++ d = a ++ b ++ c := by
  rw [h, String.append_assoc]

/-- Elements are literals one by one, up to the first that is none. -/
theorem explains_parseElements (op : Operator) (path : Path) (i : Nat) (ds : List Document) :
    Explains (elementViolations op path i ds) (List.Forall₂ LiteralOf ds)
      (parseElements op path i ds) := by
  induction ds generalizing i with
  | nil => exact ⟨rfl, .nil⟩
  | cons d ds ih =>
      rw [elementViolations, parseElements]
      cases hl : literalOf? d with
      | none =>
          rw [if_neg (literalOf?_eq_none.mp hl)]
          exact .refuse (append_literal rfl) rfl rfl
      | some l =>
          have hd : IsLiteral d := by
            by_contra hd
            rw [literalOf?_eq_none.mpr hd] at hl
            cases hl
          rw [if_pos hd]
          exact (ih (i + 1)).map fun ls hls => .cons (literalOf?_eq_some.mp hl) hls

/-- A set is refused for its kind, then its length, then its first bad element. -/
theorem explains_parseSet (limits : Limits) (negated : Bool) (path : Path) (d : Document) :
    Explains (operandViolations limits (.member negated) path d) (OperandOf d)
      (parseSet limits (.member negated) path d) := by
  cases d with
  | array ds =>
      cases ds with
      | nil => exact .refuse (append_literal rfl) rfl rfl
      | cons x ds =>
          show Explains ((if (x :: ds).length ≤ limits.maxSetLength then [] else _) ++ _) _
            (if limits.maxSetLength < (x :: ds).length then _ else _)
          by_cases hlen : (x :: ds).length ≤ limits.maxSetLength
          · rw [if_pos hlen, if_neg (Nat.not_lt.mpr hlen)]
            exact (explains_parseElements _ path 0 (x :: ds)).map fun ls hls => .set hls
          · -- the length comes before the elements, whatever they are
            rw [if_neg hlen, if_pos (Nat.lt_of_not_le hlen)]
            refine .refuse ?_ rfl rfl
            show _ = "operator '" ++ _ ++ "' " ++ ("accepts at most " ++ _ ++ " values")
            rw [show "' accepts at most " = "' " ++ "accepts at most " from rfl]
            simp only [String.append_assoc]
  | null => exact .refuse (append_literal rfl) rfl rfl
  | bool b => exact .refuse (append_literal rfl) rfl rfl
  | number s => exact .refuse (append_literal rfl) rfl rfl
  | string s => exact .refuse (append_literal rfl) rfl rfl
  | object es => exact .refuse (append_literal rfl) rfl rfl

theorem explains_parseScalar (limits : Limits) (c : Comparison) (path : Path) (d : Document) :
    Explains (operandViolations limits (.compare c) path d) (OperandOf d)
      (parseScalar (.compare c) path d) := by
  cases d with
  | null => exact ⟨rfl, .null⟩
  | bool b => exact ⟨rfl, .scalar (.bool b)⟩
  | number s => exact ⟨rfl, .scalar (.number s)⟩
  | string s => exact ⟨rfl, .scalar (.string s)⟩
  | array ds => exact .refuse (append_literal rfl) rfl rfl
  | object es => exact .refuse (append_literal rfl) rfl rfl

/-- An operand is refused for what its operator does not take. -/
theorem explains_parseOperand (limits : Limits) (op : Operator) (path : Path) (d : Document) :
    Explains (operandViolations limits op path d) (OperandOf d)
      (parseOperand limits op path d) := by
  cases op with
  | compare c => exact explains_parseScalar limits c path d
  | member negated => exact explains_parseSet limits negated path d

/-- A leaf is refused for its shape, then its operator, then its operand. -/
theorem explains_parseLeaf (limits : Limits) {field : String} {path : Path} (d : Document)
    (hand : field ≠ "AND") (hor : field ≠ "OR") :
    Explains (leafViolations limits (path.key field) d)
      (Represents path (.object [(field, d)]))
      (parseLeaf limits field (path.key field) d) := by
  cases d with
  | object entries =>
      rcases entries with _ | ⟨⟨token, x⟩, _ | ⟨entry, entries⟩⟩
      · exact .refuse rfl rfl rfl
      · rw [leafViolations, parseLeaf, ofToken?_eq_lookup]
        cases hop : tokens.lookup token with
        | none => exact .refuse rfl rfl rfl
        | some op =>
            exact (explains_parseOperand limits op ((path.key field).key token) x).map
              fun operand hx => .leaf hand hor (mem_tokens_iff.mpr hop) hx
      · exact .refuse rfl rfl rfl
  | null => exact .refuse rfl rfl rfl
  | bool b => exact .refuse rfl rfl rfl
  | number s => exact .refuse rfl rfl rfl
  | string s => exact .refuse rfl rfl rfl
  | array ds => exact .refuse rfl rfl rfl

/-- The first violation of the children is that of the first child that has one. -/
theorem explains_parseChildren (limits : Limits) (depth : Nat) (path : Path)
    {ds : List Document}
    (ih : ∀ d ∈ ds, ∀ path, Explains (violations limits depth path d) (Represents path d)
      (parseNode limits depth path d)) (i : Nat) :
    Explains (childViolations limits depth path i ds) (RepresentsAll path i ds)
      (parseChildren limits depth path i ds) := by
  induction ds generalizing i with
  | nil => exact ⟨rfl, .nil⟩
  | cons d ds ihs =>
      have hrest := ihs (fun x hx => ih x (List.mem_cons_of_mem _ hx)) (i + 1)
      rw [parseChildren_cons, childViolations]
      refine (ih d (List.mem_cons_self ..) (path.index i)).bind ?_
      intro n hn
      exact hrest.map fun ns hns => .cons hn hns

/-- A combinator is refused for its depth, then its shape, then its children. -/
theorem explains_parseCombinator (limits : Limits) (depth : Nat) (k : Combinator)
    (path : Path) {d : Document}
    (ih : ∀ ds, d = .array ds → ∀ x ∈ ds, ∀ path,
      Explains (violations limits (depth + 1) path x) (Represents path x)
        (parseNode limits (depth + 1) path x)) :
    Explains
      ((if depth < limits.maxDepth then []
          else [⟨"maximum nesting depth exceeded", path.key k.keyword⟩])
        ++ conditionViolations limits depth k.keyword (path.key k.keyword) d)
      (Represents path (.object [(k.keyword, d)]))
      (parseCombinator limits depth k (path.key k.keyword) d) := by
  rw [parseCombinator.eq_def]
  by_cases hdepth : depth < limits.maxDepth
  · rw [if_pos hdepth, if_neg (Nat.not_le.mpr hdepth), List.nil_append]
    cases d with
    | array ds =>
        cases ds with
        | nil => exact .refuse rfl rfl rfl
        | cons x ds =>
            exact (explains_parseChildren limits (depth + 1) (path.key k.keyword)
              (ih (x :: ds) rfl) 0).map fun ns hns => .combinator hns
    | null => exact .refuse rfl rfl rfl
    | bool b => exact .refuse rfl rfl rfl
    | number s => exact .refuse rfl rfl rfl
    | string s => exact .refuse rfl rfl rfl
    | object es => exact .refuse rfl rfl rfl
  · -- the depth comes before the value under the keyword
    rw [if_neg hdepth, if_pos (Nat.le_of_not_lt hdepth)]
    exact .refuse rfl rfl rfl

theorem keyword_eq (k : Combinator) : k.keyword = "AND" ∨ k.keyword = "OR" := by
  cases k with
  | and => exact Or.inl rfl
  | or => exact Or.inr rfl

/-- **WHAT A NODE ANSWERS**: its tree if no rule is broken at it or below it,
    and the first violation otherwise. -/
theorem explains_parseNode (limits : Limits) (d : Document) : ∀ depth path,
    Explains (violations limits depth path d) (Represents path d)
      (parseNode limits depth path d) := by
  induction d using Document.induct_node with
  | other d hd =>
      intro depth path
      rw [violations_of_ne_object hd, parseNode_of_ne_object hd]
      exact .refuse rfl rfl rfl
  | object entries ih =>
      intro depth path
      -- none, one or several entries: only one can be a node
      rcases entries with _ | ⟨⟨key, d⟩, _ | ⟨entry, entries⟩⟩
      · exact .refuse rfl rfl rfl
      · rw [violations, parseNode]
        cases hkey : Combinator.ofKeyword? key with
        | some k =>
            obtain rfl := ofKeyword?_eq_some.mp hkey
            rw [if_pos (keyword_eq k)]
            refine explains_parseCombinator limits depth k path ?_
            rintro ds rfl x hx
            exact ih k.keyword ds (List.mem_singleton.mpr rfl) x hx (depth + 1)
        | none =>
            obtain ⟨hand, hor⟩ := ofKeyword?_eq_none.mp hkey
            rw [if_neg (not_or.mpr ⟨hand, hor⟩)]
            exact explains_parseLeaf limits d hand hor
      · exact .refuse rfl rfl rfl

/-- A document that parses has no violations and stands for its tree. -/
theorem represents_of_parse_ok {limits : Limits} {d : Document} {n : Node}
    (h : parse limits d = .ok n) :
    violations limits 0 .root d = [] ∧ Represents .root d n := by
  have hnode := explains_parseNode limits d 0 .root
  rw [show parseNode limits 0 .root d = .ok n from h] at hnode
  exact hnode

/-- A document that does not parse is refused for its first violation. -/
theorem blames_of_parse_error {limits : Limits} {d : Document} {e : Error}
    (h : parse limits d = .error e) : Blames (violations limits 0 .root d) e := by
  have hnode := explains_parseNode limits d 0 .root
  rw [show parseNode limits 0 .root d = .error e from h] at hnode
  exact hnode

/-- **PARSING IS EXACT**: the documents that parse are the conforming ones, what
    they give is the tree that they stand for, and every other document is
    refused, as an error of structure without a cause, for the first rule that
    it breaks in preorder. -/
theorem parse_exact (limits : Limits) (d : Document) :
    ((∃ n, parse limits d = .ok n) ↔ Conforms limits 0 d)
      ∧ (∀ n, parse limits d = .ok n → Represents .root d n)
      ∧ ∀ e, parse limits d = .error e →
          e.kind = .structural ∧ e.cause? = none
            ∧ (violations limits 0 .root d).head? = some ⟨e.message, e.path⟩ := by
  refine ⟨?_, ?_, ?_⟩
  · rw [← violations_eq_nil_iff limits d 0 .root]
    constructor
    · rintro ⟨n, hn⟩
      exact (represents_of_parse_ok hn).1
    · intro hnone
      cases hparse : parse limits d with
      | ok n => exact ⟨n, rfl⟩
      | error e =>
          have hfirst := (blames_of_parse_error hparse).first
          rw [hnone] at hfirst
          cases hfirst
  · intro n hn
    exact (represents_of_parse_ok hn).2
  · intro e he
    obtain ⟨hkind, hcause, hfirst⟩ := blames_of_parse_error he
    exact ⟨hkind, hcause, hfirst⟩

/-- A document with several defects is refused for the outermost one of its first
    child. -/
theorem parse_exact_several_defects :
    let limits : Limits := { maxDepth := 1 }
    let d : Document := .object [("AND", .array [.object [("OR", .array [])],
      .object [("age", .object [("in", .array [.null])])]])]
    let path := ((Path.root.key "AND").index 0).key "OR"
    parse limits d = .error ⟨.tooDeep, path⟩
      ∧ (violations limits 0 .root d).head? = some ⟨"maximum nesting depth exceeded", path⟩ :=
  ⟨rfl, ((parse_exact _ _).2.2 ⟨.tooDeep, ((Path.root.key "AND").index 0).key "OR"⟩ rfl).2.2⟩

end RecordFilter.Filter
