import RecordFilter.Proofs.Building

/-! # What building refuses

    `objections` lists every reason to refuse a node of a filter tree, its
    children apart, in the order in which the reasons count.  Nothing is left
    out behind the first one, so the list is said without any order of checks
    but its own; a node without objections is `Buildable`.

    Building a tree fails exactly if some node has an objection, and the error
    is the first objection to the first such node in preorder
    (`build_first_objection`). -/

namespace RecordFilter.Filter

/-! ## Reasons to refuse a node -/

/-- A reason to refuse a node, and the kind of error that it is. -/
structure Objection where
  kind : Kind
  problem : Problem
  kind_eq : problem.kind = kind

/-- The operators that ask for an order. -/
def orderings : List Operator := [.compare .gt, .compare .ge, .compare .lt, .compare .le]

/-- The types without an order. -/
def unordered : List FieldType := [.text, .bool]

/-- The reason to refuse an operand for its shape. -/
def shapeObjections (op : Operator) : Operand → List Objection
  | .null =>
      match op with
      | .compare .eq | .compare .ne => []
      | .compare _ => [⟨.type, .nullOrdering op, rfl⟩]
      | .member _ => [⟨.structural, .setExpected op, rfl⟩]
  | .scalar _ =>
      match op with
      | .compare _ => []
      | .member _ => [⟨.structural, .setExpected op, rfl⟩]
  | .set ls =>
      match op with
      | .compare _ => [⟨.structural, .scalarExpected op, rfl⟩]
      | .member _ => if ls = [] then [⟨.structural, .emptySet op, rfl⟩] else []

/-- The reason to refuse a literal at a type: the error names its text and the
    type. -/
def literalObjections (field : String) (t : FieldType) (l : Literal) : List Objection :=
  match t.readValue l.toText with
  | .ok _ => []
  | .error reason => [⟨.coercion, .invalidValue field ⟨l.toText, t, reason⟩, rfl⟩]

/-- The reasons to refuse a leaf. -/
def leafObjections (resolver : Resolver) (entity field : String) (op : Operator)
    (operand : Operand) : List Objection :=
  match resolver entity field with
  | .error e => [⟨.unknownField, .unknownField e, rfl⟩]
  | .ok t =>
      (if op ∈ orderings ∧ t ∈ unordered then [⟨.type, .notOrderable op, rfl⟩] else [])
        ++ shapeObjections op operand
        ++ operand.literals.flatMap (literalObjections field t)

/-- The reasons to refuse a node, its children apart. -/
def objections (resolver : Resolver) (entity : String) : Node → List Objection
  | .combinator k [] _ => [⟨.structural, .noConditions k, rfl⟩]
  | .combinator _ (_ :: _) _ => []
  | .leaf field op operand _ => leafObjections resolver entity field op operand

/-! ## Nodes without objections -/

/-- The operand is of the shape that the operator takes. -/
inductive Suits : Operator → Operand → Prop where
  | null {c : Comparison} : c = .eq ∨ c = .ne → Suits (.compare c) .null
  | scalar {c : Comparison} {l : Literal} : Suits (.compare c) (.scalar l)
  | set {negated : Bool} {ls : List Literal} : ls ≠ [] → Suits (.member negated) (.set ls)

/-- A combinator with a child; or a leaf whose field is known and has an order
    if the operator asks for one, and whose operand is of the right shape and can
    be coerced. -/
inductive Buildable (resolver : Resolver) (entity : String) : Node → Prop where
  | combinator {k : Combinator} {children : List Node} {path : Path} :
      children ≠ [] → Buildable resolver entity (.combinator k children path)
  | leaf {field : String} {op : Operator} {operand : Operand} {path : Path} {t : FieldType} :
      resolver entity field = .ok t →
      (op ∈ orderings → t.isNumeric = true ∨ t.isTemporal = true) → Suits op operand →
      (∀ l ∈ operand.literals, ∃ v, t.coerce l = .ok v) →
      Buildable resolver entity (.leaf field op operand path)

variable {resolver : Resolver} {entity : String}

/-- Numbers and dates are the types that are ordered. -/
theorem not_mem_unordered_iff {t : FieldType} :
    t ∉ unordered ↔ t.isNumeric = true ∨ t.isTemporal = true := by
  cases t <;> decide

theorem mem_orderings_iff {op : Operator} : op ∈ orderings ↔ op.isOrdering = true := by
  cases op with
  | compare c => cases c <;> decide
  | member negated => cases negated <;> decide

/-- Nothing is objected to an operand that suits its operator. -/
theorem shapeObjections_eq_nil_iff {op : Operator} {operand : Operand} :
    shapeObjections op operand = [] ↔ Suits op operand := by
  cases operand with
  | null =>
      cases op with
      | compare c =>
          cases c with
          | eq => exact iff_of_true rfl (.null (Or.inl rfl))
          | ne => exact iff_of_true rfl (.null (Or.inr rfl))
          | gt => exact iff_of_false (List.cons_ne_nil _ _) (by rintro ⟨h | h⟩ <;> cases h)
          | ge => exact iff_of_false (List.cons_ne_nil _ _) (by rintro ⟨h | h⟩ <;> cases h)
          | lt => exact iff_of_false (List.cons_ne_nil _ _) (by rintro ⟨h | h⟩ <;> cases h)
          | le => exact iff_of_false (List.cons_ne_nil _ _) (by rintro ⟨h | h⟩ <;> cases h)
      | member negated => exact iff_of_false (List.cons_ne_nil _ _) (by rintro ⟨⟩)
  | scalar l =>
      cases op with
      | compare c => exact iff_of_true rfl .scalar
      | member negated => exact iff_of_false (List.cons_ne_nil _ _) (by rintro ⟨⟩)
  | set ls =>
      cases op with
      | compare c => exact iff_of_false (List.cons_ne_nil _ _) (by rintro ⟨⟩)
      | member negated =>
          by_cases hls : ls = []
          · subst hls
            refine iff_of_false (List.cons_ne_nil _ _) ?_
            rintro (_ | _ | hne)
            exact hne rfl
          · exact iff_of_true (if_neg hls) (.set hls)

/-- Coercion fails with the text of the literal and the type. -/
theorem coerce_eq_error_iff {t : FieldType} {l : Literal} {e : CoercionError} :
    t.coerce l = .error e ↔
      ∃ reason, t.readValue l.toText = .error reason ∧ e = ⟨l.toText, t, reason⟩ :=
  mapError_eq_error_iff

theorem literalObjections_of_coerce_ok {field : String} {t : FieldType} {l : Literal}
    {v : Value} (h : t.coerce l = .ok v) : literalObjections field t l = [] := by
  rw [literalObjections]
  cases hr : t.readValue l.toText with
  | ok w => rfl
  | error reason =>
      rw [coerce_eq_error_iff.mpr ⟨reason, hr, rfl⟩] at h
      exact nomatch h

/-- To any other literal the failure of its coercion is objected. -/
theorem literalObjections_of_coerce_error {field : String} {t : FieldType} {l : Literal}
    {e : CoercionError} (h : t.coerce l = .error e) :
    literalObjections field t l = [⟨.coercion, .invalidValue field e, rfl⟩] := by
  obtain ⟨reason, hr, rfl⟩ := coerce_eq_error_iff.mp h
  rw [literalObjections, hr]

/-- Nothing is objected to a literal if and only if it is coerced. -/
theorem literalObjections_eq_nil_iff {field : String} {t : FieldType} {l : Literal} :
    literalObjections field t l = [] ↔ ∃ v, t.coerce l = .ok v := by
  cases h : t.coerce l with
  | ok v => exact iff_of_true (literalObjections_of_coerce_ok h) ⟨v, rfl⟩
  | error e =>
      rw [literalObjections_of_coerce_error h]
      exact iff_of_false (List.cons_ne_nil _ _) (by rintro ⟨_, ⟨⟩⟩)

/-- **BUILDABLE MEANS BEYOND OBJECTION**. -/
theorem objections_eq_nil_iff {n : Node} :
    objections resolver entity n = [] ↔ Buildable resolver entity n := by
  cases n with
  | combinator k children path =>
      cases children with
      | nil =>
          refine iff_of_false (List.cons_ne_nil _ _) ?_
          rintro (hne | _)
          exact hne rfl
      | cons n ns => exact iff_of_true rfl (.combinator (List.cons_ne_nil n ns))
  | leaf field op operand path =>
      rw [objections, leafObjections]
      cases ht : resolver entity field with
      | error e =>
          refine iff_of_false (List.cons_ne_nil _ _) ?_
          rintro (_ | ⟨ht', _, _, _⟩)
          rw [ht] at ht'
          exact nomatch ht'
      | ok t =>
          simp only [List.append_eq_nil_iff, List.flatMap_eq_nil_iff,
            shapeObjections_eq_nil_iff, literalObjections_eq_nil_iff, ite_eq_right_iff,
            List.cons_ne_nil, imp_false, not_and, not_mem_unordered_iff]
          constructor
          · rintro ⟨⟨hord, hsuits⟩, hls⟩
            exact .leaf ht hord hsuits hls
          -- the type of the field is unique, so both sides speak of the same
          · rintro (_ | ⟨ht', hord, hsuits, hls⟩)
            obtain rfl : t = _ := Except.ok.inj (ht.symm.trans ht')
            exact ⟨⟨hord, hsuits⟩, hls⟩

/-! ## Results that go with errors -/

/-- A result that goes with a list of errors: a good one if there are none, and
    otherwise the first of them. -/
def Meets {α : Type} (es : List Error) : Except Error α → Prop
  | .ok _ => es = []
  | .error e => es.head? = some e

namespace Meets

variable {α β : Type} {es fs : List Error} {x : Except Error α}

theorem map {f : α → β} (h : Meets es x) : Meets es (x.map f) := by
  cases x with
  | error e => exact h
  | ok a => exact h

/-- A result without errors leaves it to the next one to meet them. -/
theorem bind {f : α → Except Error β} (h : Meets es x) (hf : ∀ a, x = .ok a → Meets fs (f a)) :
    Meets (es ++ fs) (x.bind f) := by
  cases x with
  | error e =>
      show (es ++ fs).head? = some e
      rw [List.head?_append, show es.head? = some e from h]
      rfl
  | ok a =>
      rw [show es = [] from h]
      exact hf a rfl

/-- There is a result if and only if there is nothing to object. -/
theorem ok_iff (h : Meets es x) : (∃ a, x = .ok a) ↔ es = [] := by
  cases x with
  | ok a => exact iff_of_true ⟨a, rfl⟩ h
  | error e =>
      refine iff_of_false (by rintro ⟨_, ⟨⟩⟩) ?_
      rintro rfl
      exact nomatch h

end Meets

/-! ## What a node and a tree meet -/

/-- An objection as an error at a place. -/
def Objection.error (path : Path) (o : Objection) : Error := ⟨o.problem, path⟩

/-- The errors at a node: its objections, at its place. -/
def errorsAt (resolver : Resolver) (entity : String) (n : Node) : List Error :=
  (objections resolver entity n).map (Objection.error n.path)

theorem meets_nullCondition (field : String) (op : Operator) (path : Path) :
    Meets ((shapeObjections op .null).map (Objection.error path))
      (nullCondition field op path) := by
  cases op with
  | compare c => cases c <;> rfl
  | member negated => rfl

/-- Coercing a set stops at the first literal that is refused. -/
theorem meets_coerceAll (field : String) (t : FieldType) (path : Path) (ls : List Literal) :
    Meets ((ls.flatMap (literalObjections field t)).map (Objection.error path))
      ((t.coerceAll ls).mapError fun e => ⟨.invalidValue field e, path⟩) := by
  induction ls with
  | nil => rfl
  | cons l ls ih =>
      rw [FieldType.coerceAll, List.flatMap_cons]
      cases hl : t.coerce l with
      | error e =>
          rw [literalObjections_of_coerce_error hl]
          rfl
      | ok v =>
          rw [literalObjections_of_coerce_ok hl, List.nil_append]
          revert ih
          cases t.coerceAll ls with
          | error e => exact id
          | ok vs => exact id

/-- A condition on a literal meets those to its shape, and then those to the literal. -/
theorem meets_scalarCondition (field : String) (t : FieldType) (op : Operator) (l : Literal)
    (path : Path) :
    Meets ((shapeObjections op (.scalar l) ++ literalObjections field t l).map
        (Objection.error path))
      (scalarCondition field t op l path) := by
  cases op with
  | member negated => rfl
  | compare c =>
      rw [scalarCondition]
      cases hl : t.coerce l with
      | error e =>
          rw [literalObjections_of_coerce_error hl]
          rfl
      | ok v =>
          rw [literalObjections_of_coerce_ok hl]
          rfl

/-- A condition on a set meets those to its shape, and then those to its literals in their order. -/
theorem meets_setCondition (field : String) (t : FieldType) (op : Operator) (ls : List Literal)
    (path : Path) :
    Meets ((shapeObjections op (.set ls) ++ ls.flatMap (literalObjections field t)).map
        (Objection.error path))
      (setCondition field t op ls path) := by
  cases op with
  | compare c => rfl
  | member negated =>
      have hls := meets_coerceAll field t path ls
      rw [setCondition, shapeObjections]
      by_cases hnil : ls = []
      · rw [if_pos hnil, if_pos hnil]
        rfl
      · rw [if_neg hnil, if_neg hnil, List.nil_append]
        revert hls
        cases t.coerceAll ls with
        | error e => exact id
        | ok vs => exact id

/-- A leaf meets the objections of its node, the unknown field first of all. -/
theorem meets_leafCondition (field : String) (op : Operator) (operand : Operand)
    (path : Path) :
    Meets (errorsAt resolver entity (.leaf field op operand path))
      (leafCondition resolver entity field op operand path) := by
  rw [errorsAt, objections, leafObjections, leafCondition]
  cases resolver entity field with
  | error e => rfl
  | ok t =>
      -- the gate of ordered types, as a condition on both lists
      have hgate : (op.isOrdering && !t.isOrderable) = true ↔ op ∈ orderings ∧ t ∈ unordered := by
        rw [Bool.and_eq_true, mem_orderings_iff]
        refine and_congr_right fun _ => ?_
        cases t <;> decide
      by_cases hop : op ∈ orderings ∧ t ∈ unordered
      · simp only [if_pos hop, if_pos (hgate.mpr hop)]
        rfl
      · simp only [if_neg hop, if_neg (mt hgate.mp hop), List.nil_append]
        cases operand with
        | null =>
            rw [Operand.literals, List.flatMap_nil, List.append_nil]
            exact meets_nullCondition field op path
        | scalar l =>
            rw [Operand.literals, List.flatMap_singleton]
            exact meets_scalarCondition field t op l path
        | set ls => exact meets_setCondition field t op ls path

/-- Trees meet the objections of their nodes, tree by tree. -/
theorem meets_buildAll {ns : List Node}
    (ih : ∀ n ∈ ns, Meets (n.preorder.flatMap (errorsAt resolver entity))
      (build resolver entity n)) :
    Meets ((Node.preorderOfAll ns).flatMap (errorsAt resolver entity))
      (buildAll resolver entity ns) := by
  induction ns with
  | nil => rfl
  | cons n ns ihs =>
      rw [buildAll_cons, Node.preorderOfAll, List.flatMap_append]
      refine (ih n (List.mem_cons_self ..)).bind fun p _ => ?_
      exact (ihs fun m hm => ih m (List.mem_cons_of_mem _ hm)).map

/-- **WHAT A TREE MEETS**: the errors at its nodes, in preorder. -/
theorem meets_build (resolver : Resolver) (entity : String) (n : Node) :
    Meets (n.preorder.flatMap (errorsAt resolver entity)) (build resolver entity n) := by
  induction n with
  | leaf field op operand path =>
      show Meets ([Node.leaf field op operand path].flatMap _) _
      rw [List.flatMap_singleton]
      exact meets_leafCondition field op operand path
  | combinator k ns path ih =>
      show Meets ((Node.combinator k ns path :: Node.preorderOfAll ns).flatMap _) _
      rw [List.flatMap_cons, build]
      have hns := meets_buildAll ih
      cases ns with
      | nil => rfl
      | cons n ns =>
          -- with a child there is no objection to the combinator itself
          show Meets ([] ++ (Node.preorderOfAll (n :: ns)).flatMap _) _
          rw [List.nil_append]
          cases hps : buildAll resolver entity (n :: ns) with
          | error e =>
              rw [hps] at hns
              exact hns
          | ok ps =>
              rw [hps] at hns
              cases forall₂_of_buildAll_ok hps with
              | cons _ _ => exact hns

/-- The first of the errors at nodes is the first one at the first node that has
    errors. -/
theorem exists_first_of_head?_flatMap {ns : List Node} {f : Node → List Error} {e : Error}
    (h : (ns.flatMap f).head? = some e) :
    ∃ before n after, ns = before ++ n :: after ∧ (∀ m ∈ before, f m = [])
      ∧ (f n).head? = some e := by
  induction ns with
  | nil => exact nomatch h
  | cons n ns ih =>
      rw [List.flatMap_cons, List.head?_append] at h
      cases hn : f n with
      | nil =>
          rw [hn] at h
          obtain ⟨before, m, after, rfl, hbefore, hm⟩ := ih h
          refine ⟨n :: before, m, after, rfl, ?_, hm⟩
          intro x hx
          rcases List.mem_cons.mp hx with rfl | hx
          · exact hn
          · exact hbefore x hx
      | cons e' es =>
          rw [hn] at h
          refine ⟨[], n, ns, rfl, fun _ hx => (nomatch hx), ?_⟩
          rw [hn]
          exact h

/-! ## The first failure -/

/-- An error is the first objection to a node, at its place. -/
def FirstObjection (resolver : Resolver) (entity : String) (n : Node) (e : Error) : Prop :=
  ∃ o, (objections resolver entity n).head? = some o
    ∧ e.kind = o.kind ∧ e.problem = o.problem ∧ e.path = n.path

/-- What stands first among the errors of a node is its first objection. -/
theorem firstObjection_of_head?_errorsAt {n : Node} {e : Error}
    (h : (errorsAt resolver entity n).head? = some e) : FirstObjection resolver entity n e := by
  rw [errorsAt, List.head?_map] at h
  obtain ⟨o, ho, rfl⟩ := Option.map_eq_some_iff.mp h
  exact ⟨o, ho, o.kind_eq, rfl, rfl⟩

theorem errorsAt_eq_nil_iff {n : Node} :
    errorsAt resolver entity n = [] ↔ Buildable resolver entity n :=
  List.map_eq_nil_iff.trans objections_eq_nil_iff

/-- **BUILDING REPORTS THE FIRST FAILURE**: a tree builds exactly if all its nodes
    are buildable, and otherwise the error is the first objection to the first
    node in preorder that is not.  A compiler does the same with the trees that
    keep its limit on the depth, and refuses every deeper one at its root. -/
theorem build_first_objection (c : Compiler) (n : Node) :
    ((∃ p, build c.resolver c.entity n = .ok p) ↔
        ∀ m ∈ n.preorder, Buildable c.resolver c.entity m)
      ∧ (∀ e, build c.resolver c.entity n = .error e →
          ∃ before m after, n.preorder = before ++ m :: after
            ∧ (∀ b ∈ before, Buildable c.resolver c.entity b)
            ∧ ¬ Buildable c.resolver c.entity m ∧ FirstObjection c.resolver c.entity m e)
      ∧ (n.depth ≤ c.limits.maxDepth → c.compileNode n = build c.resolver c.entity n)
      ∧ (c.limits.maxDepth < n.depth →
          ∃ e, c.compileNode n = .error e ∧ e.kind = .structural ∧ e.path = n.path
            ∧ e.message = "maximum nesting depth exceeded" ∧ e.cause? = none) := by
  have hmeets := meets_build c.resolver c.entity n
  refine ⟨?_, ?_, ?_, ?_⟩
  · rw [hmeets.ok_iff, List.flatMap_eq_nil_iff]
    exact forall₂_congr fun m _ => errorsAt_eq_nil_iff
  · intro e he
    rw [he] at hmeets
    obtain ⟨before, m, after, hsplit, hbefore, hm⟩ := exists_first_of_head?_flatMap hmeets
    refine ⟨before, m, after, hsplit, fun b hb => errorsAt_eq_nil_iff.mp (hbefore b hb), ?_,
      firstObjection_of_head?_errorsAt hm⟩
    intro hbuildable
    rw [errorsAt_eq_nil_iff.mpr hbuildable] at hm
    exact nomatch hm
  · intro hdepth
    exact if_neg (Nat.not_lt.mpr hdepth)
  · intro hdepth
    exact ⟨⟨.tooDeep, n.path⟩, if_pos hdepth, rfl, rfl, rfl, rfl⟩

/-- The second leaf breaks three rules, of which the type of its field counts first,
    and hides the unknown field behind it; one combinator more is too deep. -/
theorem build_first_objection_several :
    let person : Entity := ⟨"Person", [⟨"age", .int32⟩, ⟨"name", .text⟩]⟩
    let c : Compiler := ⟨person.resolver, "Person", { maxDepth := 2 }⟩
    let path := ((Path.root.key "AND").index 1).key "name"
    let n : Node := .combinator .and [
      .combinator .or [.leaf "age" (.compare .ge) (.scalar (.number "18")) .root] .root,
      .leaf "name" (.compare .lt) (.set []) path,
      .leaf "height" (.compare .eq) .null .root] .root
    (build c.resolver c.entity n = .error ⟨.notOrderable (.compare .lt), path⟩
      ∧ ∃ before m after, n.preorder = before ++ m :: after
        ∧ (∀ b ∈ before, Buildable c.resolver c.entity b)
        ∧ ¬ Buildable c.resolver c.entity m
        ∧ FirstObjection c.resolver c.entity m ⟨.notOrderable (.compare .lt), path⟩)
      ∧ (n.depth ≤ c.limits.maxDepth ∧ c.compileNode n = build c.resolver c.entity n)
      ∧ c.limits.maxDepth < (Node.combinator .or [n] .root).depth
      ∧ ∃ e, c.compileNode (.combinator .or [n] .root) = .error e ∧ e.kind = .structural
        ∧ e.path = .root ∧ e.message = "maximum nesting depth exceeded" ∧ e.cause? = none := by
  intro person c path n
  have hbuild : build c.resolver c.entity n = .error ⟨.notOrderable (.compare .lt), path⟩ := rfl
  have hdepth : n.depth ≤ c.limits.maxDepth := by decide
  have hdeeper : c.limits.maxDepth < (Node.combinator .or [n] .root).depth := by decide
  exact ⟨⟨hbuild, (build_first_objection c n).2.1 _ hbuild⟩,
    ⟨hdepth, (build_first_objection c n).2.2.1 hdepth⟩, hdeeper,
    (build_first_objection c (.combinator .or [n] .root)).2.2.2 hdeeper⟩

end RecordFilter.Filter
