import Mathlib.Data.List.Forall2
import RecordFilter.Filter.Parse

/-! # The grammar of filter documents

    Which documents are filters (`Conforms`), and which tree a filter document
    stands for (`Represents`), said without the parser.  A document conforms
    inside of a number of combinators, because their nesting is limited; its
    tree also knows the place of every node.

    Documents are followed by `Json.Document.induct_node`: the nodes below a
    node are the items of an array under one of its keys. -/

namespace RecordFilter.Json.Document

/-- An induction over the nodes of filter documents: an object may assume the
    statement of the items of the arrays under its keys. -/
@[elab_as_elim]
theorem induct_node {motive : Document → Prop}
    (other : ∀ d, (∀ entries, d ≠ .object entries) → motive d)
    (object : ∀ entries : List (String × Document),
      (∀ key items, (key, .array items) ∈ entries → ∀ d ∈ items, motive d) →
      motive (.object entries)) (d : Document) : motive d := by
  -- carry the statement of the items along, for the object above an array
  suffices h : motive d ∧ ∀ items, d = .array items → ∀ x ∈ items, motive x from h.1
  induction d with
  | null => exact ⟨other _ (by rintro _ ⟨⟩), by rintro _ ⟨⟩⟩
  | bool b => exact ⟨other _ (by rintro _ ⟨⟩), by rintro _ ⟨⟩⟩
  | number s => exact ⟨other _ (by rintro _ ⟨⟩), by rintro _ ⟨⟩⟩
  | string s => exact ⟨other _ (by rintro _ ⟨⟩), by rintro _ ⟨⟩⟩
  | array items ih =>
      refine ⟨other _ (by rintro _ ⟨⟩), ?_⟩
      intro items' heq x hx
      obtain rfl : items = items' := Document.array.inj heq
      exact (ih x hx).1
  | object entries ih =>
      refine ⟨object entries ?_, by rintro _ ⟨⟩⟩
      intro key items hmem x hx
      exact (ih key _ hmem).2 items rfl x hx

end RecordFilter.Json.Document

namespace RecordFilter.Filter

open Json

/-! ## Tokens and literals -/

/-- The tokens of operators; two operators have a second one. -/
def tokens : List (String × Operator) :=
  [("eq", .compare .eq), ("!eq", .compare .ne), ("neq", .compare .ne), ("gt", .compare .gt),
    ("ge", .compare .ge), ("lt", .compare .lt), ("le", .compare .le), ("in", .member false),
    ("!in", .member true), ("nin", .member true)]

/-- Strings, numbers and booleans. -/
def IsLiteral : Document → Prop
  | .bool _ | .number _ | .string _ => True
  | .null | .array _ | .object _ => False

instance : DecidablePred IsLiteral
  | .bool _ | .number _ | .string _ => isTrue trivial
  | .null | .array _ | .object _ => isFalse not_false

/-- A string, a number or a boolean and the literal that keeps it. -/
inductive LiteralOf : Document → Literal → Prop where
  | bool (b : Bool) : LiteralOf (.bool b) (.bool b)
  | number (s : String) : LiteralOf (.number s) (.number s)
  | string (s : String) : LiteralOf (.string s) (.text s)

/-- Null, a scalar, or an array of scalars, and the operand that keeps it. -/
inductive OperandOf : Document → Operand → Prop where
  | null : OperandOf .null .null
  | scalar {d : Document} {l : Literal} : LiteralOf d l → OperandOf d (.scalar l)
  | set {ds : List Document} {ls : List Literal} :
      List.Forall₂ LiteralOf ds ls → OperandOf (.array ds) (.set ls)

/-! ## Conforming documents -/

/-- The operands that an operator takes. -/
def OperandConforms (limits : Limits) : Operator → Document → Prop
  | .compare _, d => d = .null ∨ IsLiteral d
  | .member _, d =>
      ∃ ds, d = .array ds ∧ ds ≠ [] ∧ ds.length ≤ limits.maxSetLength ∧ ∀ x ∈ ds, IsLiteral x

/-- The documents that are filters inside of `depth` combinators. -/
inductive Conforms (limits : Limits) : (depth : Nat) → Document → Prop where
  | combinator {depth : Nat} {key : String} {ds : List Document} :
      key = "AND" ∨ key = "OR" → depth < limits.maxDepth → ds ≠ [] →
      (∀ d ∈ ds, Conforms limits (depth + 1) d) →
      Conforms limits depth (.object [(key, .array ds)])
  | leaf {depth : Nat} {field token : String} {op : Operator} {d : Document} :
      field ≠ "AND" → field ≠ "OR" → (token, op) ∈ tokens → OperandConforms limits op d →
      Conforms limits depth (.object [(field, .object [(token, d)])])

/-! ## The tree of a document -/

mutual

/-- A document at a place and the filter tree that it stands for. -/
inductive Represents : Path → Document → Node → Prop where
  | combinator {path : Path} {k : Combinator} {ds : List Document} {ns : List Node} :
      RepresentsAll (path.key k.keyword) 0 ds ns →
      Represents path (.object [(k.keyword, .array ds)])
        (.combinator k ns (path.key k.keyword))
  | leaf {path : Path} {field token : String} {op : Operator} {d : Document}
      {operand : Operand} :
      field ≠ "AND" → field ≠ "OR" → (token, op) ∈ tokens → OperandOf d operand →
      Represents path (.object [(field, .object [(token, d)])])
        (.leaf field op operand ((path.key field).key token))

/-- The items of an array from an index on and the filter trees that they stand
    for. -/
inductive RepresentsAll : Path → Nat → List Document → List Node → Prop where
  | nil {path : Path} {i : Nat} : RepresentsAll path i [] []
  | cons {path : Path} {i : Nat} {d : Document} {n : Node} {ds : List Document}
      {ns : List Node} :
      Represents (path.index i) d n → RepresentsAll path (i + 1) ds ns →
      RepresentsAll path i (d :: ds) (n :: ns)

end

/-! ## Tokens, keywords and literals are recognised -/

/-- A token has one operator. -/
theorem mem_tokens_iff {token : String} {op : Operator} :
    (token, op) ∈ tokens ↔ tokens.lookup token = some op := by
  constructor
  · intro h
    simp only [tokens, List.mem_cons, Prod.mk.injEq, List.not_mem_nil, or_false] at h
    rcases h with h | h | h | h | h | h | h | h | h | h <;>
      obtain ⟨rfl, rfl⟩ := h <;> rfl
  · intro h
    obtain ⟨before, after, heq, -⟩ := List.lookup_eq_some_iff.mp h
    rw [heq]
    exact List.mem_append_right before (List.mem_cons_self ..)

theorem token_mem_tokens (op : Operator) : (op.token, op) ∈ tokens := by
  cases op with
  | compare c => cases c <;> decide
  | member negated => cases negated <;> decide

/-- The operator of a token is the one that the table gives it. -/
theorem ofToken?_eq_lookup (token : String) :
    Operator.ofToken? token = tokens.lookup token := by
  cases h : tokens.lookup token with
  | some op =>
      have hmem := mem_tokens_iff.mpr h
      simp only [tokens, List.mem_cons, Prod.mk.injEq, List.not_mem_nil, or_false] at hmem
      rcases hmem with h | h | h | h | h | h | h | h | h | h <;>
        obtain ⟨rfl, rfl⟩ := h <;> rfl
  | none =>
      -- no second token, and not the first one of any operator
      have hne : ∀ entry ∈ tokens, token ≠ entry.1 := fun entry hentry =>
        bne_iff_ne.mp (List.lookup_eq_none_iff.mp h entry hentry)
      have hneq : token ≠ "neq" := hne ("neq", .compare .ne) (by decide)
      have hnin : token ≠ "nin" := hne ("nin", .member true) (by decide)
      rw [Operator.ofToken?, if_neg hneq, if_neg hnin, List.find?_eq_none]
      intro op _ heq
      exact hne (op.token, op) (token_mem_tokens op) (eq_of_beq heq).symm

/-- A key is a keyword of the combinator that it spells. -/
theorem ofKeyword?_eq_some {key : String} {k : Combinator} :
    Combinator.ofKeyword? key = some k ↔ key = k.keyword := by
  constructor
  · intro h
    rw [Combinator.ofKeyword?] at h
    split_ifs at h with hand hor
    · obtain rfl := Option.some.inj h
      exact hand
    · obtain rfl := Option.some.inj h
      exact hor
  · rintro rfl
    exact Combinator.ofKeyword?_keyword k

theorem ofKeyword?_eq_none {key : String} :
    Combinator.ofKeyword? key = none ↔ key ≠ "AND" ∧ key ≠ "OR" := by
  rw [Combinator.ofKeyword?]
  split_ifs with hand hor
  · exact ⟨(nomatch ·), fun h => absurd hand h.1⟩
  · exact ⟨(nomatch ·), fun h => absurd hor h.2⟩
  · exact ⟨fun _ => ⟨hand, hor⟩, fun _ => rfl⟩

/-- The parser takes as literals what the grammar calls so. -/
theorem literalOf?_eq_some {d : Document} {l : Literal} :
    literalOf? d = some l ↔ LiteralOf d l := by
  constructor
  · intro h
    cases d with
    | bool b => obtain rfl := Option.some.inj h; exact .bool b
    | number s => obtain rfl := Option.some.inj h; exact .number s
    | string s => obtain rfl := Option.some.inj h; exact .string s
    | null => exact nomatch h
    | array items => exact nomatch h
    | object entries => exact nomatch h
  · intro h
    cases h <;> rfl

/-- What the parser does not take as a literal is none. -/
theorem literalOf?_eq_none {d : Document} : literalOf? d = none ↔ ¬ IsLiteral d := by
  cases d with
  | bool b => exact ⟨(nomatch ·), fun h => absurd trivial h⟩
  | number s => exact ⟨(nomatch ·), fun h => absurd trivial h⟩
  | string s => exact ⟨(nomatch ·), fun h => absurd trivial h⟩
  | null => exact ⟨fun _ => not_false, fun _ => rfl⟩
  | array items => exact ⟨fun _ => not_false, fun _ => rfl⟩
  | object entries => exact ⟨fun _ => not_false, fun _ => rfl⟩

end RecordFilter.Filter
