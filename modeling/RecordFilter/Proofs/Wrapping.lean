import RecordFilter.Proofs.ErrorKinds

/-! # Combinators around one node

    A combinator with one child is built to what the child is built to, so it adds nothing to a
    filter but a level and a step to the places inside of it.  `wrapped` puts such combinators
    around the nodes of a document, as many and of the kinds that are given for each place.  An
    outer combinator gets the same operands as before, and merges the first of them or not as
    before; only the limit on the depth can tell the difference.

    Parsing and building hand places on and put them into errors, and never look at them.
    `Alike` says of two results that they differ in no more than the place of an error, and the
    functions that hand a place on have one lemma each. -/

namespace RecordFilter

open RecordFilter.Filter

namespace Json.Document

/-- A document inside of combinators with one child each, the first one outermost. -/
def wrap (ks : List Combinator) (d : Document) : Document :=
  ks.foldr (fun k d => .object [(k.keyword, .array [d])]) d

mutual

/-- A node at a place, with combinators around it and around the nodes below it: `around` has
    those for each place. -/
def wrapped (around : Path → List Combinator) (path : Path) : Document → Document
  | .object entries => wrap (around path) (.object (wrappedEntries around path entries))
  | d => wrap (around path) d

/-- The entries of a node, with the nodes under keywords wrapped. -/
def wrappedEntries (around : Path → List Combinator) (path : Path) :
    List (String × Document) → List (String × Document)
  | [] => []
  | (key, d) :: rest =>
      (key, if key = "AND" ∨ key = "OR" then wrappedConditions around (path.key key) d else d)
        :: wrappedEntries around path rest

/-- The value of a keyword, with the nodes in it wrapped. -/
def wrappedConditions (around : Path → List Combinator) (path : Path) : Document → Document
  | .array items => .array (wrappedItems around path 0 items)
  | d => d

/-- The items of an array from an index on, each wrapped as a node. -/
def wrappedItems (around : Path → List Combinator) (path : Path) (i : Nat) :
    List Document → List Document
  | [] => []
  | d :: rest => wrapped around (path.index i) d :: wrappedItems around path (i + 1) rest

end

mutual

/-- How many combinators of a document are nested in each other at most. -/
def combinatorDepth : Document → Nat
  | .object [(key, d)] => if key = "AND" ∨ key = "OR" then 1 + conditionsDepth d else 0
  | _ => 0

/-- How many combinators are nested in each other in the value of a keyword at most. -/
def conditionsDepth : Document → Nat
  | .array items => greatestCombinatorDepth items
  | _ => 0

/-- The greatest depth of items. -/
def greatestCombinatorDepth : List Document → Nat
  | [] => 0
  | d :: rest => max d.combinatorDepth (greatestCombinatorDepth rest)

end

/-- What is no object is a node without children: only the node itself is wrapped. -/
theorem wrapped_of_ne_object {around : Path → List Combinator} {path : Path} {d : Document}
    (h : ∀ entries, d ≠ .object entries) : wrapped around path d = wrap (around path) d := by
  cases d with
  | object entries => exact absurd rfl (h entries)
  | null => rfl
  | bool b => rfl
  | number s => rfl
  | string s => rfl
  | array ds => rfl

/-- A combinator is one deeper than its conditions. -/
theorem combinatorDepth_combinator (k : Combinator) (d : Document) :
    combinatorDepth (.object [(k.keyword, d)]) = 1 + conditionsDepth d := by
  rw [combinatorDepth, if_pos (keyword_eq k)]

/-- Every wrapper adds one to the depth. -/
theorem combinatorDepth_wrap (ks : List Combinator) (d : Document) :
    (wrap ks d).combinatorDepth = ks.length + d.combinatorDepth := by
  induction ks with
  | nil => exact (Nat.zero_add _).symm
  | cons k ks ih =>
      show combinatorDepth (.object [(k.keyword, .array [wrap ks d])]) = _
      rw [combinatorDepth_combinator, conditionsDepth, greatestCombinatorDepth,
        greatestCombinatorDepth, ih, List.length_cons]
      omega

end Json.Document

namespace Filter

open Json Document

/-! ## Results up to the place of an error -/

/-- Two results that are related, or two errors with one problem. -/
inductive Alike {α β : Type} (R : α → β → Prop) : Except Error α → Except Error β → Prop where
  | ok {a : α} {b : β} : R a b → Alike R (.ok a) (.ok b)
  | error {e e' : Error} : e'.problem = e.problem → Alike R (.error e) (.error e')

namespace Alike

variable {α β γ δ : Type} {R : α → β → Prop} {S : γ → δ → Prop} {x : Except Error α}
  {y : Except Error β}

/-- Beside a result stands a related one. -/
theorem exists_of_ok {a : α} (h : Alike R (.ok a) y) : ∃ b, y = .ok b ∧ R a b := by
  cases h with
  | @ok _ b hab => exact ⟨b, rfl, hab⟩

theorem exists_of_error {e : Error} (h : Alike R (.error e) y) :
    ∃ e', y = .error e' ∧ e'.problem = e.problem := by
  cases h with
  | @error _ e' he => exact ⟨e', rfl, he⟩

/-- Steps that are alike may follow runs that are alike. -/
theorem bind {f : α → Except Error γ} {g : β → Except Error δ} (h : Alike R x y)
    (hf : ∀ a b, R a b → Alike S (f a) (g b)) : Alike S (x.bind f) (y.bind g) := by
  cases h with
  | ok hab => exact hf _ _ hab
  | error he => exact .error he

theorem map {f : α → γ} {g : β → δ} (h : Alike R x y) (hf : ∀ a b, R a b → S (f a) (g b)) :
    Alike S (x.map f) (y.map g) := by
  cases h with
  | ok hab => exact .ok (hf _ _ hab)
  | error he => exact .error he

theorem map_right {g : β → δ} {S : α → δ → Prop} (h : Alike R x y)
    (hg : ∀ a b, R a b → S a (g b)) : Alike S x (y.map g) := by
  cases h with
  | ok hab => exact .ok (hg _ _ hab)
  | error he => exact .error he

end Alike

/-! ## Building at another place -/

variable {resolver : Resolver} {entity : String}

/-- A condition on null depends on its place in errors only. -/
theorem alike_nullCondition (field : String) (op : Operator) (path path' : Path) :
    Alike (· = ·) (nullCondition field op path) (nullCondition field op path') := by
  cases op with
  | compare c => cases c <;> first | exact .ok rfl | exact .error rfl
  | member negated => exact .error rfl

theorem alike_scalarCondition (field : String) (type : FieldType) (op : Operator) (l : Literal)
    (path path' : Path) :
    Alike (· = ·) (scalarCondition field type op l path)
      (scalarCondition field type op l path') := by
  cases op with
  | compare c =>
      rw [scalarCondition, scalarCondition]
      cases type.coerce l with
      | error e => exact .error rfl
      | ok v => exact .ok rfl
  | member negated => exact .error rfl

theorem alike_setCondition (field : String) (type : FieldType) (op : Operator)
    (ls : List Literal) (path path' : Path) :
    Alike (· = ·) (setCondition field type op ls path)
      (setCondition field type op ls path') := by
  cases op with
  | compare c => exact .error rfl
  | member negated =>
      rw [setCondition, setCondition]
      by_cases hls : ls = []
      · rw [if_pos hls, if_pos hls]
        exact .error rfl
      · rw [if_neg hls, if_neg hls]
        cases type.coerceAll ls with
        | error e => exact .error rfl
        | ok vs => exact .ok rfl

/-- The lookup of the field comes first, and names the place in errors only. -/
theorem alike_leafCondition (field : String) (op : Operator) (operand : Operand)
    (path path' : Path) :
    Alike (· = ·) (leafCondition resolver entity field op operand path)
      (leafCondition resolver entity field op operand path') := by
  rw [leafCondition, leafCondition]
  cases resolver entity field with
  | error e => exact .error rfl
  | ok type =>
      dsimp only
      split_ifs with hord
      · exact .error rfl
      · cases operand with
        | null => exact alike_nullCondition field op path path'
        | scalar l => exact alike_scalarCondition field type op l path path'
        | set ls => exact alike_setCondition field type op ls path path'

/-- Trees that are built to the same predicate or refused for the same problem, whatever the
    resolver. -/
def BuildsAlike (n m : Node) : Prop :=
  ∀ (resolver : Resolver) (entity : String),
    Alike (· = ·) (build resolver entity n) (build resolver entity m)

/-- The same leaf at two places is built alike. -/
theorem buildsAlike_leaf (field : String) (op : Operator) (operand : Operand)
    (path path' : Path) :
    BuildsAlike (.leaf field op operand path) (.leaf field op operand path') := by
  intro resolver entity
  rw [build, build]
  exact alike_leafCondition field op operand path path'

/-- Lists of trees are built alike if their trees are, one by one. -/
theorem alike_buildAll {ns ms : List Node} (h : List.Forall₂ BuildsAlike ns ms) :
    Alike (· = ·) (buildAll resolver entity ns) (buildAll resolver entity ms) := by
  induction h with
  | nil => exact .ok rfl
  | cons hnm _ ih =>
      rw [buildAll_cons, buildAll_cons]
      refine (hnm resolver entity).bind ?_
      rintro p _ rfl
      refine ih.map ?_
      rintro ps _ rfl
      rfl

/-- A combinator is built alike from children that are. -/
theorem buildsAlike_combinator {ns ms : List Node} (h : List.Forall₂ BuildsAlike ns ms)
    (k : Combinator) (path path' : Path) :
    BuildsAlike (.combinator k ns path) (.combinator k ms path') := by
  intro resolver entity
  rw [build_combinator, build_combinator]
  refine (alike_buildAll h).bind ?_
  rintro ps _ rfl
  cases Predicate.combine k ps with
  | none => exact .error rfl
  | some p => exact .ok rfl

/-- A combinator around one tree is built to what the tree is built to. -/
theorem build_singleton (k : Combinator) (n : Node) (path : Path) :
    build resolver entity (.combinator k [n] path) = build resolver entity n := by
  rw [build, buildAll_cons]
  cases build resolver entity n <;> rfl

/-! ## Parsing at another place -/

variable {limits : Limits} {around : Path → List Combinator}

theorem alike_parseElements (op : Operator) (ds : List Document) (path path' : Path) (i : Nat) :
    Alike (· = ·) (parseElements op path i ds) (parseElements op path' i ds) := by
  induction ds generalizing i with
  | nil => exact .ok rfl
  | cons d ds ih =>
      rw [parseElements, parseElements]
      cases literalOf? d with
      | none => exact .error rfl
      | some l => exact (ih (i + 1)).map fun _ _ => congrArg (l :: ·)

theorem alike_parseSet (limits : Limits) (op : Operator) (d : Document) (path path' : Path) :
    Alike (· = ·) (parseSet limits op path d) (parseSet limits op path' d) := by
  cases d with
  | array ds =>
      cases ds with
      | nil => exact .error rfl
      | cons x ds =>
          rw [parseSet.eq_def, parseSet.eq_def]
          dsimp only
          split_ifs with hlength
          · exact .error rfl
          · exact (alike_parseElements op (x :: ds) path path' 0).map fun _ _ => congrArg _
  | null => exact .error rfl
  | bool b => exact .error rfl
  | number s => exact .error rfl
  | string s => exact .error rfl
  | object es => exact .error rfl

theorem alike_parseOperand (limits : Limits) (op : Operator) (d : Document)
    (path path' : Path) :
    Alike (· = ·) (parseOperand limits op path d) (parseOperand limits op path' d) := by
  rw [parseOperand, parseOperand]
  split_ifs with hset
  · exact alike_parseSet limits op d path path'
  · cases d with
    | null => exact .ok rfl
    | bool b => exact .ok rfl
    | number s => exact .ok rfl
    | string s => exact .ok rfl
    | array ds => exact .error rfl
    | object es => exact .error rfl

/-- A leaf is parsed alike at two places, into leaves that are built alike. -/
theorem alike_parseLeaf (limits : Limits) (field : String) (d : Document) (path path' : Path) :
    Alike BuildsAlike (parseLeaf limits field path d) (parseLeaf limits field path' d) := by
  cases d with
  | object entries =>
      rcases entries with _ | ⟨⟨token, x⟩, _ | ⟨entry, entries⟩⟩
      · exact .error rfl
      · rw [parseLeaf, parseLeaf]
        cases Operator.ofToken? token with
        | none => exact .error rfl
        | some op =>
            refine (alike_parseOperand limits op x (path.key token) (path'.key token)).map ?_
            rintro operand _ rfl
            exact buildsAlike_leaf field op operand _ _
      · exact .error rfl
  | null => exact .error rfl
  | bool b => exact .error rfl
  | number s => exact .error rfl
  | string s => exact .error rfl
  | array ds => exact .error rfl

/-! ## Wrapped documents -/

/-- **WRAPPERS ARE TRANSPARENT**: combinators around a node parse like the node inside of them,
    where the limit leaves room for them. -/
theorem alike_wrap {x : Except Error Node} {d : Document} (ks : List Combinator) :
    ∀ depth path, depth + ks.length ≤ limits.maxDepth →
      (∀ path', Alike BuildsAlike x (parseNode limits (depth + ks.length) path' d)) →
      Alike BuildsAlike x (parseNode limits depth path (wrap ks d)) := by
  induction ks with
  | nil =>
      intro depth path _ hx
      exact hx path
  | cons k ks ih =>
      intro depth path hdepth hx
      rw [List.length_cons, Nat.add_comm ks.length, ← Nat.add_assoc] at hdepth hx
      have hinner := ih (depth + 1) ((path.key k.keyword).index 0) hdepth hx
      show Alike BuildsAlike x
        (parseNode limits depth path (.object [(k.keyword, .array [wrap ks d])]))
      rw [parseNode, Combinator.ofKeyword?_keyword]
      dsimp only
      rw [parseCombinator_singleton (by omega)]
      refine hinner.map_right ?_
      intro n m hnm resolver entity
      rw [build_singleton]
      exact hnm resolver entity

/-- A document parses like itself with combinators around its nodes, at any places and below
    any number of combinators more. -/
def ParsesAlike (limits : Limits) (around : Path → List Combinator) (d : Document) : Prop :=
  ∀ depth depth' path path', depth ≤ depth' →
    depth' + (d.wrapped around path).combinatorDepth ≤ limits.maxDepth →
    Alike BuildsAlike (parseNode limits depth path d)
      (parseNode limits depth' path' (d.wrapped around path))

/-- Wrapped children are parsed alike to the bare ones if each of them is and the depth suffices. -/
theorem alike_parseChildren {ds : List Document} (ih : ∀ d ∈ ds, ParsesAlike limits around d)
    {depth depth' : Nat} (hle : depth ≤ depth') (path path' : Path) (i : Nat)
    (hdepth : depth' + greatestCombinatorDepth (wrappedItems around path i ds)
      ≤ limits.maxDepth) :
    Alike (List.Forall₂ BuildsAlike) (parseChildren limits depth path i ds)
      (parseChildren limits depth' path' i (wrappedItems around path i ds)) := by
  induction ds generalizing i with
  | nil => exact .ok .nil
  | cons d ds ihs =>
      rw [wrappedItems, greatestCombinatorDepth] at hdepth
      rw [wrappedItems, parseChildren_cons, parseChildren_cons]
      refine (ih d (List.mem_cons_self ..) depth depth' _ _ hle (by omega)).bind ?_
      intro n m hnm
      have hrest := ihs (fun x hx => ih x (List.mem_cons_of_mem _ hx)) (i + 1) (by omega)
      exact hrest.map fun _ _ hnms => .cons hnm hnms

/-- A combinator over wrapped children is parsed alike to one over the bare ones, at any two
    depths that suffice. -/
theorem alike_parseCombinator {d : Document}
    (ih : ∀ ds, d = .array ds → ∀ x ∈ ds, ParsesAlike limits around x)
    {depth depth' : Nat} (hle : depth ≤ depth') (k : Combinator) (path path' : Path)
    (hdepth : depth' + (1 + conditionsDepth (wrappedConditions around path d))
      ≤ limits.maxDepth) :
    Alike BuildsAlike (parseCombinator limits depth k path d)
      (parseCombinator limits depth' k path' (wrappedConditions around path d)) := by
  -- neither side has come to the limit, so only the value of the keyword counts
  rw [parseCombinator.eq_def, parseCombinator.eq_def, if_neg (by omega), if_neg (by omega)]
  cases d with
  | array ds =>
      cases ds with
      | nil => exact .error rfl
      | cons x ds =>
          have hchildren := alike_parseChildren (ih (x :: ds) rfl) (Nat.succ_le_succ hle)
            path path' 0 (Nat.add_assoc depth' 1 _ ▸ hdepth)
          exact hchildren.map fun _ _ hnms => buildsAlike_combinator hnms k path path'
  | null => exact .error rfl
  | bool b => exact .error rfl
  | number s => exact .error rfl
  | string s => exact .error rfl
  | object es => exact .error rfl

/-- **WRAPPED DOCUMENTS PARSE ALIKE**, to trees that are built alike. -/
theorem parsesAlike (limits : Limits) (around : Path → List Combinator) (d : Document) :
    ParsesAlike limits around d := by
  induction d using Document.induct_node with
  | other d hd =>
      intro depth depth' path path' _ hdepth
      rw [wrapped_of_ne_object hd, combinatorDepth_wrap] at hdepth
      rw [wrapped_of_ne_object hd, parseNode_of_ne_object hd]
      refine alike_wrap _ depth' path' (by omega) fun path'' => ?_
      rw [parseNode_of_ne_object hd]
      exact .error rfl
  | object entries ih =>
      intro depth depth' path path' hle hdepth
      rw [wrapped, combinatorDepth_wrap] at hdepth
      rw [wrapped]
      -- the wrappers first, and then the node at the depth inside of them
      refine alike_wrap _ depth' path' (by omega) fun path'' => ?_
      rcases entries with _ | ⟨⟨key, d⟩, _ | ⟨entry, entries⟩⟩
      · exact .error rfl
      · rw [wrappedEntries, wrappedEntries] at hdepth ⊢
        rw [parseNode, parseNode]
        cases hkey : Combinator.ofKeyword? key with
        | some k =>
            obtain rfl := ofKeyword?_eq_some.mp hkey
            rw [if_pos (keyword_eq k)] at hdepth ⊢
            rw [combinatorDepth_combinator] at hdepth
            refine alike_parseCombinator ?_ (by omega) k _ _ (by omega)
            rintro ds rfl x hx
            exact ih k.keyword ds (List.mem_singleton.mpr rfl) x hx
        | none =>
            obtain ⟨hand, hor⟩ := ofKeyword?_eq_none.mp hkey
            rw [if_neg (not_or.mpr ⟨hand, hor⟩)]
            exact alike_parseLeaf limits key d _ _
      · exact .error rfl

/-- Documents that are parsed into trees that are built alike are compiled alike. -/
theorem alike_compileDocument (c : Compiler) {d d' : Document}
    (h : Alike BuildsAlike (parse c.limits d) (parse c.limits d')) :
    Alike (· = ·) (c.compileDocument d) (c.compileDocument d') := by
  cases hn : parse c.limits d with
  | error e =>
      rw [hn] at h
      obtain ⟨e', hm, he⟩ := h.exists_of_error
      rw [compileDocument_of_parse_error hn, compileDocument_of_parse_error hm]
      exact .error he
  | ok n =>
      rw [hn] at h
      obtain ⟨m, hm, hnm⟩ := h.exists_of_ok
      rw [(compileDocument_of_parse_ok hn).2, (compileDocument_of_parse_ok hm).2]
      exact hnm c.resolver c.entity

/-- **SINGLE-CHILD COMBINATORS ARE TRANSPARENT**: whatever combinators are put around the nodes
    of a document, it compiles to the very same predicate, or is refused with the same kind, the
    same words and the same cause, if the limit on the depth leaves room for them. -/
theorem single_child_is_transparent (c : Compiler) (around : Path → List Combinator)
    (d : Document) (hdepth : (d.wrapped around .root).combinatorDepth ≤ c.limits.maxDepth) :
    (∀ p, c.compileDocument d = .ok p → c.compileDocument (d.wrapped around .root) = .ok p)
      ∧ ∀ e, c.compileDocument d = .error e →
          ∃ e', c.compileDocument (d.wrapped around .root) = .error e'
            ∧ e'.kind = e.kind ∧ e'.message = e.message ∧ e'.cause? = e.cause? := by
  have hparse : Alike BuildsAlike (parse c.limits d) (parse c.limits (d.wrapped around .root)) :=
    parsesAlike c.limits around d 0 0 .root .root (Nat.le_refl 0) (by omega)
  have hcompile := alike_compileDocument c hparse
  constructor
  · intro p hp
    rw [hp] at hcompile
    obtain ⟨q, hq, rfl⟩ := hcompile.exists_of_ok
    exact hq
  · intro e he
    rw [he] at hcompile
    obtain ⟨e', he', hproblem⟩ := hcompile.exists_of_error
    exact ⟨e', he', congrArg Problem.kind hproblem, congrArg Problem.message hproblem,
      congrArg Problem.cause? hproblem⟩

/-- An `OR` that is the first child of an `OR` is merged into it, with an `AND` around it or not;
    and with an operand that is no integer, the error is the same at another place. -/
theorem single_child_is_transparent_of_merged :
    let person : Entity := ⟨"Person", [⟨"age", .int32⟩]⟩
    let c : Compiler := ⟨person.resolver, "Person", { maxDepth := 5 }⟩
    let leaf (token : String) (operand : Document) : Document :=
      .object [("age", .object [(token, operand)])]
    let filter (operand : Document) : Document := .object [("OR", .array [
      .object [("OR", .array [leaf "lt" (.number "1"), leaf "gt" operand])],
      leaf "eq" .null])]
    let first := (Path.root.key "OR").index 0
    let around : Path → List Combinator := fun path =>
      if path = .root then [.or, .and] else if path = first then [.and] else []
    let filter' : Document → Document := fun operand => .object [("OR", .array [
      .object [("AND", .array [.object [("OR", .array [
        .object [("AND", .array [
          .object [("OR", .array [leaf "lt" (.number "1"), leaf "gt" operand])]])],
        leaf "eq" .null])]])]])]
    let p : Predicate := .compound .or [.comparison .lt "age" (.int32 1),
      .comparison .gt "age" (.int32 9), .absence false "age"]
    let e : Error := ⟨.invalidValue "age" ⟨"x", .int32, .integer .invalidDigit⟩,
      (((first.key "OR").index 1).key "age").key "gt"⟩
    ((filter (.number "9")).wrapped around .root = filter' (.number "9")
        ∧ (filter' (.number "9")).combinatorDepth ≤ c.limits.maxDepth
        ∧ c.compileDocument (filter (.number "9")) = .ok p
        ∧ c.compileDocument (filter' (.number "9")) = .ok p)
      ∧ (filter (.string "x")).wrapped around .root = filter' (.string "x")
        ∧ (filter' (.string "x")).combinatorDepth ≤ c.limits.maxDepth
        ∧ c.compileDocument (filter (.string "x")) = .error e
        ∧ ∃ e', c.compileDocument (filter' (.string "x")) = .error e'
            ∧ e'.kind = e.kind ∧ e'.message = e.message ∧ e'.cause? = e.cause? := by
  intro person c leaf filter first around filter' p e
  have hok : c.compileDocument (filter (.number "9")) = .ok p := rfl
  have herror : c.compileDocument (filter (.string "x")) = .error e := rfl
  have hnumber : (filter (.number "9")).wrapped around .root = filter' (.number "9") := rfl
  have hstring : (filter (.string "x")).wrapped around .root = filter' (.string "x") := rfl
  have hdepth (operand : Document) : (filter' operand).combinatorDepth ≤ c.limits.maxDepth := by
    simp [c, filter', leaf, combinatorDepth, conditionsDepth, greatestCombinatorDepth]
  have hsame := (single_child_is_transparent c around (filter (.number "9"))
    (hnumber ▸ hdepth (.number "9"))).1 p hok
  have hrefused := (single_child_is_transparent c around (filter (.string "x"))
    (hstring ▸ hdepth (.string "x"))).2 e herror
  rw [hnumber] at hsame
  rw [hstring] at hrefused
  exact ⟨⟨hnumber, hdepth _, hok, hsame⟩, hstring, hdepth _, herror, hrefused⟩

end Filter

end RecordFilter
