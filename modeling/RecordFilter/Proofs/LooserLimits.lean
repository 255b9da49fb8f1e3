import RecordFilter.Filter.Compile
import RecordFilter.Proofs.Grammar

/-! # Looser limits

    A limit has no part in what a filter means: where it is asked, it refuses or it stands
    aside.  So a compiler with tighter limits answers like one with looser limits, a predicate
    or an error alike, unless one of its own limits is in the way, and then it says which
    (`OnlyRejects`).  What a limit hides is behind the place where it is asked, and a looser
    one uncovers nothing in front of it.

    There is one lemma for every function that asks for a limit or calls one that does. -/

namespace RecordFilter.Filter

open Json

/-- Each of the limits is at most as loose. -/
structure Limits.AtMost (a b : Limits) : Prop where
  depth : a.maxDepth ≤ b.maxDepth
  setLength : a.maxSetLength ≤ b.maxSetLength
  textLength : a.maxTextLength ≤ b.maxTextLength

/-- The words for what goes beyond one of the limits. -/
inductive LimitWords (limits : Limits) : String → Prop where
  | text : LimitWords limits
      ("filter document exceeds " ++ integerText limits.maxTextLength ++ " bytes")
  | depth : LimitWords limits "maximum nesting depth exceeded"
  | set (op : Operator) : LimitWords limits
      ("operator '" ++ op.token ++ "' accepts at most " ++ integerText limits.maxSetLength
        ++ " values")

/-- An error of structure, without a cause, in the words of one of the limits. -/
structure LimitError (limits : Limits) (e : Error) : Prop where
  structural : e.kind = .structural
  noCause : e.cause? = none
  words : LimitWords limits e.message

/-- A result under limits that is an error of theirs, or else the result without them. -/
def OnlyRejects {α : Type} (limits : Limits) (x y : Except Error α) : Prop :=
  (∃ e, x = .error e ∧ LimitError limits e) ∨ x = y

variable {tight loose : Limits}

/-- The refusal of a long text names the limit that it exceeds. -/
theorem limitError_textTooLong (limits : Limits) (path : Path) :
    LimitError limits ⟨.textTooLong limits.maxTextLength, path⟩ :=
  ⟨rfl, rfl, .text⟩

/-- The refusal of a deep document is one of the limits, though it names none. -/
theorem limitError_tooDeep (limits : Limits) (path : Path) :
    LimitError limits ⟨.tooDeep, path⟩ :=
  ⟨rfl, rfl, .depth⟩

theorem limitError_setTooLong (limits : Limits) (op : Operator) (path : Path) :
    LimitError limits ⟨.setTooLong op limits.maxSetLength, path⟩ := by
  refine ⟨rfl, rfl, ?_⟩
  have hwords : Error.message ⟨.setTooLong op limits.maxSetLength, path⟩
      = "operator '" ++ op.token ++ "' accepts at most " ++ integerText limits.maxSetLength
        ++ " values" := by
    show "operator '" ++ op.token ++ "' " ++ ("accepts at most " ++ _ ++ " values") = _
    rw [show "' accepts at most " = "' " ++ "accepts at most " from rfl]
    simp only [String.append_assoc]
  rw [hwords]
  exact .set op

/-! ## Results that only reject -/

namespace OnlyRejects

variable {α β : Type} {limits : Limits} {x y : Except Error α}

theorem refl (x : Except Error α) : OnlyRejects limits x x := Or.inr rfl

theorem refuse {problem : Problem} {path : Path} (h : LimitError limits ⟨problem, path⟩) :
    OnlyRejects limits (refuse problem path) y :=
  Or.inl ⟨_, rfl, h⟩

/-- An error of a limit stays one, whatever was to follow. -/
theorem bind {f g : α → Except Error β} (h : OnlyRejects limits x y)
    (hf : ∀ a, OnlyRejects limits (f a) (g a)) : OnlyRejects limits (x.bind f) (y.bind g) := by
  rcases h with ⟨e, rfl, he⟩ | rfl
  · exact Or.inl ⟨e, rfl, he⟩
  · cases x with
    | error e => exact .refl _
    | ok a => exact hf a

theorem map {f : α → β} (h : OnlyRejects limits x y) :
    OnlyRejects limits (x.map f) (y.map f) := by
  rcases h with ⟨e, rfl, he⟩ | rfl
  · exact Or.inl ⟨e, rfl, he⟩
  · exact .refl _

/-- **A LIMIT IS ASKED**: where the looser one is exceeded, so is the tighter one. -/
theorem test {p q : Prop} [Decidable p] [Decidable q] {problem problem' : Problem} {path : Path}
    (hpq : q → p) (hproblem : LimitError limits ⟨problem, path⟩) (h : OnlyRejects limits x y) :
    OnlyRejects limits (if p then Filter.refuse problem path else x)
      (if q then Filter.refuse problem' path else y) := by
  by_cases hp : p
  · rw [if_pos hp]
    exact .refuse hproblem
  · rw [if_neg hp, if_neg (mt hpq hp)]
    exact h

end OnlyRejects

/-! ## Parsing -/

/-- A set is the one operand with a limit: its length is checked before its elements. -/
theorem onlyRejects_parseSet (h : tight.AtMost loose) (op : Operator) (path : Path)
    (d : Document) :
    OnlyRejects tight (parseSet tight op path d) (parseSet loose op path d) := by
  cases d with
  | array ds =>
      cases ds with
      | nil => exact .refl _
      | cons x ds =>
          exact .test (Nat.lt_of_le_of_lt h.setLength) (limitError_setTooLong tight op path)
            (.refl _)
  | null => exact .refl _
  | bool b => exact .refl _
  | number s => exact .refl _
  | string s => exact .refl _
  | object es => exact .refl _

/-- No operand but a set has a limit. -/
theorem onlyRejects_parseOperand (h : tight.AtMost loose) (op : Operator) (path : Path)
    (d : Document) :
    OnlyRejects tight (parseOperand tight op path d) (parseOperand loose op path d) := by
  rw [parseOperand, parseOperand]
  by_cases hset : op.isSet = true
  · rw [if_pos hset, if_pos hset]
    exact onlyRejects_parseSet h op path d
  · rw [if_neg hset, if_neg hset]
    exact .refl _

/-- A leaf has the limits of its operand. -/
theorem onlyRejects_parseLeaf (h : tight.AtMost loose) (field : String) (path : Path)
    (d : Document) :
    OnlyRejects tight (parseLeaf tight field path d) (parseLeaf loose field path d) := by
  cases d with
  | object entries =>
      rcases entries with _ | ⟨⟨token, x⟩, _ | ⟨entry, entries⟩⟩
      · exact .refl _
      · rw [parseLeaf, parseLeaf]
        cases Operator.ofToken? token with
        | none => exact .refl _
        | some op => exact (onlyRejects_parseOperand h op (path.key token) x).map
      · exact .refl _
  | null => exact .refl _
  | bool b => exact .refl _
  | number s => exact .refl _
  | string s => exact .refl _
  | array ds => exact .refl _

/-- Children are only refused by a limit if one of them is, since all in front of it agree. -/
theorem onlyRejects_parseChildren {depth : Nat} {ds : List Document}
    (ih : ∀ d ∈ ds, ∀ path,
      OnlyRejects tight (parseNode tight depth path d) (parseNode loose depth path d))
    (path : Path) (i : Nat) :
    OnlyRejects tight (parseChildren tight depth path i ds)
      (parseChildren loose depth path i ds) := by
  induction ds generalizing i with
  | nil => exact .refl _
  | cons d ds ihs =>
      rw [parseChildren_cons, parseChildren_cons]
      -- the first child decides unless both sides have the same tree for it
      refine (ih d (List.mem_cons_self ..) (path.index i)).bind fun n => ?_
      exact (ihs (fun x hx => ih x (List.mem_cons_of_mem _ hx)) (i + 1)).map

/-- A combinator has a limit of its own, on its depth, and those of its children. -/
theorem onlyRejects_parseCombinator (h : tight.AtMost loose) (depth : Nat) (k : Combinator)
    (path : Path) {d : Document}
    (ih : ∀ ds, d = .array ds → ∀ x ∈ ds, ∀ path,
      OnlyRejects tight (parseNode tight (depth + 1) path x)
        (parseNode loose (depth + 1) path x)) :
    OnlyRejects tight (parseCombinator tight depth k path d)
      (parseCombinator loose depth k path d) := by
  rw [parseCombinator.eq_def, parseCombinator.eq_def]
  -- the depth is compared before the value of the keyword is looked at
  refine .test (Nat.le_trans h.depth) (limitError_tooDeep tight path) ?_
  cases d with
  | array ds =>
      cases ds with
      | nil => exact .refl _
      | cons x ds => exact (onlyRejects_parseChildren (ih (x :: ds) rfl) path 0).map
  | null => exact .refl _
  | bool b => exact .refl _
  | number s => exact .refl _
  | string s => exact .refl _
  | object es => exact .refl _

/-- **PARSING UNDER TIGHTER LIMITS**, at whatever depth and place. -/
theorem onlyRejects_parseNode (h : tight.AtMost loose) (d : Document) : ∀ depth path,
    OnlyRejects tight (parseNode tight depth path d) (parseNode loose depth path d) := by
  induction d using Document.induct_node with
  | other d hd =>
      intro depth path
      rw [parseNode_of_ne_object hd, parseNode_of_ne_object hd]
      exact .refl _
  | object entries ih =>
      intro depth path
      rcases entries with _ | ⟨⟨key, d⟩, _ | ⟨entry, entries⟩⟩
      · exact .refl _
      · rw [parseNode, parseNode]
        cases Combinator.ofKeyword? key with
        | some k =>
            refine onlyRejects_parseCombinator h depth k (path.key key) ?_
            rintro ds rfl x hx
            exact ih key ds (List.mem_singleton.mpr rfl) x hx (depth + 1)
        | none => exact onlyRejects_parseLeaf h key (path.key key) d
      · exact .refl _

/-- A text has a limit on its length, checked before all else, and those of its document. -/
theorem onlyRejects_parseText (h : tight.AtMost loose) (text : String) :
    OnlyRejects tight (parseText tight text) (parseText loose text) := by
  rw [parseText, parseText]
  refine .test (Nat.lt_of_le_of_lt h.textLength) (limitError_textTooLong tight .root) ?_
  -- reading and the search for repeated keys ask for no limit
  cases readDocument .usual text with
  | error e => exact .refl _
  | ok d =>
      dsimp only
      cases firstRepetition? d with
      | some e => exact .refl _
      | none => exact onlyRejects_parseNode h d.collapse 0 .root

/-! ## Compiling -/

/-- A tree that was built by hand has the limit on its depth only. -/
theorem onlyRejects_compileNode (resolver : Resolver) (entity : String)
    (h : tight.AtMost loose) (n : Node) :
    OnlyRejects tight (Compiler.compileNode ⟨resolver, entity, tight⟩ n)
      (Compiler.compileNode ⟨resolver, entity, loose⟩ n) := by
  rw [Compiler.compileNode, Compiler.compileNode]
  exact .test (Nat.lt_of_le_of_lt h.depth) (limitError_tooDeep tight n.path) (.refl _)

/-- **LIMITS ONLY REJECT**: under tighter limits a text, a document or a tree is refused by
    one of them, in its words, or compiles to what it compiles to under the looser ones, the
    same predicate or the same error at the same place. -/
theorem limits_only_reject (resolver : Resolver) (entity : String)
    (h : tight.AtMost loose) :
    let c : Compiler := ⟨resolver, entity, tight⟩
    let c' : Compiler := ⟨resolver, entity, loose⟩
    (∀ text, OnlyRejects tight (c.compileText text) (c'.compileText text))
      ∧ (∀ d, OnlyRejects tight (c.compileDocument d) (c'.compileDocument d))
      ∧ ∀ n, OnlyRejects tight (c.compileNode n) (c'.compileNode n) := by
  intro c c'
  have hnode : ∀ n, OnlyRejects tight (c.compileNode n) (c'.compileNode n) :=
    onlyRejects_compileNode resolver entity h
  refine ⟨?_, ?_, hnode⟩
  · intro text
    exact (onlyRejects_parseText h text).bind hnode
  · intro d
    exact (onlyRejects_parseNode h d 0 .root).bind hnode

/-- A set of three values hides, by its length, that one of them is no integer; a set of two
    does not, and its error is the one under the usual limits. -/
theorem limits_only_reject_long_set :
    let person : Entity := ⟨"Person", [⟨"age", .int32⟩]⟩
    let tight : Limits := { maxDepth := 1, maxSetLength := 2, maxTextLength := 80 }
    let c : Compiler := ⟨person.resolver, "Person", tight⟩
    let c' : Compiler := ⟨person.resolver, "Person", .usual⟩
    let filter (items : List Document) : Document := .object [("AND", .array [
      .object [("age", .object [("in", .array items)])],
      .object [("height", .object [("eq", .null)])]])]
    let long := filter [.number "1", .number "2", .string "x"]
    let short := filter [.number "1", .string "x"]
    let place := (((Path.root.key "AND").index 0).key "age").key "in"
    let tooLong : Error := ⟨.setTooLong (.member false) 2, place⟩
    let noInteger : Error := ⟨.invalidValue "age" ⟨"x", .int32, .integer .invalidDigit⟩, place⟩
    tight.AtMost .usual
      ∧ (c.compileDocument long = .error tooLong ∧ c'.compileDocument long = .error noInteger
        ∧ LimitError tight tooLong)
      ∧ c.compileDocument short = .error noInteger
      ∧ c'.compileDocument short = .error noInteger := by
  intro person tight c c' filter long short place tooLong noInteger
  have hle : tight.AtMost .usual := ⟨by decide, by decide, by decide⟩
  have hlong : c.compileDocument long = .error tooLong := rfl
  have hlong' : c'.compileDocument long = .error noInteger := rfl
  have hshort : c.compileDocument short = .error noInteger := rfl
  obtain ⟨-, hdocument, -⟩ := limits_only_reject person.resolver "Person" hle
  refine ⟨hle, ⟨hlong, hlong', ?_⟩, hshort, ?_⟩
  · rcases hdocument long with ⟨e, he, hlimit⟩ | hsame
    · obtain rfl := Except.error.inj (hlong.symm.trans he)
      exact hlimit
    · have hkind : tooLong.kind = noInteger.kind :=
        congrArg Error.kind (Except.error.inj (hlong.symm.trans (hsame.trans hlong')))
      exact absurd hkind (by decide)
  · rcases hdocument short with ⟨e, he, hlimit⟩ | hsame
    · obtain rfl := Except.error.inj (hshort.symm.trans he)
      cases hlimit.structural
    · exact hsame.symm.trans hshort

end RecordFilter.Filter
