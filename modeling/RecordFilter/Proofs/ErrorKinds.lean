import RecordFilter.Proofs.Objections
import RecordFilter.Proofs.ParsedTrees
import RecordFilter.Proofs.RepeatedKeys

/-! # Kinds and causes of errors

    Parsing answers for the structure of a filter and building for its fields,
    types and values.  A parsed tree is well shaped and within the limit on its
    depth, so none of its nodes has a structural objection; and a document that
    does not parse is refused before any field is looked up.

    Each kind of error goes with one kind of cause, and a fault of the JSON text
    is the cause of an error only where a text is read. -/

namespace RecordFilter.Filter

open Json

/-! ## Objections to well-shaped nodes -/

/-- An operand of the wrong kind is an error of types. -/
theorem kind_of_mem_shapeObjections {op : Operator} {operand : Operand} {field : String}
    {path : Path} {o : Objection} (hshape : WellShaped (.leaf field op operand path))
    (h : o ∈ shapeObjections op operand) : o.kind = .type := by
  cases hshape with
  | @null _ c _ =>
      cases c with
      | eq => cases h
      | ne => cases h
      | gt => rw [List.mem_singleton.mp h]
      | ge => rw [List.mem_singleton.mp h]
      | lt => rw [List.mem_singleton.mp h]
      | le => rw [List.mem_singleton.mp h]
  | scalar => cases h
  | @set _ _ l ls _ =>
      rw [shapeObjections, if_neg (List.cons_ne_nil l ls)] at h
      cases h

/-- A literal that does not fit is an error of coercion. -/
theorem kind_of_mem_literalObjections {field : String} {t : FieldType} {l : Literal}
    {o : Objection} (h : o ∈ literalObjections field t l) : o.kind = .coercion := by
  cases hl : t.coerce l with
  | ok v =>
      rw [literalObjections_of_coerce_ok hl] at h
      exact nomatch h
  | error e =>
      rw [literalObjections_of_coerce_error hl] at h
      rw [List.mem_singleton.mp h]

theorem cause?_of_mem_shapeObjections {op : Operator} {operand : Operand} {o : Objection}
    (h : o ∈ shapeObjections op operand) : o.problem.cause? = none := by
  cases operand with
  | null =>
      cases op with
      | compare c =>
          cases c with
          | eq => cases h
          | ne => cases h
          | gt => rw [List.mem_singleton.mp h]; rfl
          | ge => rw [List.mem_singleton.mp h]; rfl
          | lt => rw [List.mem_singleton.mp h]; rfl
          | le => rw [List.mem_singleton.mp h]; rfl
      | member negated => rw [List.mem_singleton.mp h]; rfl
  | scalar l =>
      cases op with
      | compare c => cases h
      | member negated => rw [List.mem_singleton.mp h]; rfl
  | set ls =>
      cases op with
      | compare c => rw [List.mem_singleton.mp h]; rfl
      | member negated =>
          rw [shapeObjections] at h
          split_ifs at h
          · rw [List.mem_singleton.mp h]; rfl
          · cases h

/-! ## Kinds and causes -/

/-- The kinds of errors with a cause are told by it, and a type error has none. -/
theorem kind_iff_cause (e : Error) :
    (e.kind = .unknownField ↔ ∃ r, e.cause? = some (.resolve r))
      ∧ (e.kind = .coercion ↔ ∃ x, e.cause? = some (.coercion x))
      ∧ (e.kind = .type → e.cause? = none) := by
  obtain ⟨problem, path⟩ := e
  cases problem <;> simp [Error.kind, Error.cause?, Problem.kind, Problem.cause?]

variable {resolver : Resolver} {entity : String}

/-- **NO STRUCTURAL OBJECTION** is made to a well-shaped node. -/
theorem kind_ne_structural_of_mem_objections {n : Node} {o : Objection} (hn : WellShaped n)
    (h : o ∈ objections resolver entity n) : o.kind ≠ .structural := by
  intro hkind
  cases n with
  | combinator k ns path =>
      cases hn with
      | combinator => cases h
  | leaf field op operand path =>
      rw [objections, leafObjections] at h
      cases ht : resolver entity field with
      | error e =>
          rw [ht] at h
          rw [List.mem_singleton.mp h] at hkind
          cases hkind
      | ok t =>
          rw [ht] at h
          simp only [List.mem_append, List.mem_flatMap] at h
          -- an order on an unordered type, an operand of the wrong kind, a literal that does not
          -- fit
          rcases h with (h | h) | ⟨l, -, h⟩
          · split_ifs at h
            · rw [List.mem_singleton.mp h] at hkind
              cases hkind
            · cases h
          · rw [kind_of_mem_shapeObjections hn h] at hkind
            cases hkind
          · rw [kind_of_mem_literalObjections h] at hkind
            cases hkind

/-- No objection has a fault of a JSON text behind it. -/
theorem cause?_ne_json_of_mem_objections {n : Node} {o : Objection}
    (h : o ∈ objections resolver entity n) (j : Json.Error) :
    o.problem.cause? ≠ some (.json j) := by
  intro hcause
  cases n with
  | combinator k ns path =>
      cases ns with
      | nil =>
          rw [List.mem_singleton.mp h] at hcause
          cases hcause
      | cons n ns => cases h
  | leaf field op operand path =>
      rw [objections, leafObjections] at h
      cases ht : resolver entity field with
      | error e =>
          rw [ht] at h
          rw [List.mem_singleton.mp h] at hcause
          cases hcause
      | ok t =>
          rw [ht] at h
          simp only [List.mem_append, List.mem_flatMap] at h
          rcases h with (h | h) | ⟨l, -, h⟩
          · split_ifs at h
            · rw [List.mem_singleton.mp h] at hcause
              cases hcause
            · cases h
          · rw [cause?_of_mem_shapeObjections h] at hcause
            cases hcause
          · -- only a coercion is behind an objection to a literal
            have hkind := (kind_iff_cause ⟨o.problem, path⟩).2.1.mp
              (o.kind_eq.trans (kind_of_mem_literalObjections h))
            obtain ⟨x, hx⟩ := hkind
            cases hcause.symm.trans hx

/-! ## Errors of the ways in -/

/-- An error of building is an objection to a node of the tree. -/
theorem exists_objection_of_build_error {n : Node} {e : Error}
    (h : build resolver entity n = .error e) :
    ∃ m ∈ n.preorder, ∃ o ∈ objections resolver entity m, e = o.error m.path := by
  have hmeets : (n.preorder.flatMap (errorsAt resolver entity)).head? = some e := by
    have hall := meets_build resolver entity n
    rw [h] at hall
    exact hall
  obtain ⟨m, hm, he⟩ := List.mem_flatMap.mp (List.mem_of_mem_head? hmeets)
  obtain ⟨o, ho, rfl⟩ := List.mem_map.mp he
  exact ⟨m, hm, o, ho, rfl⟩

theorem compileDocument_of_parse_error {c : Compiler} {d : Document} {e : Error}
    (h : parse c.limits d = .error e) : c.compileDocument d = .error e := by
  rw [Compiler.compileDocument, h]
  rfl

/-- The tree of a document keeps the limit, so it is built. -/
theorem compileDocument_of_parse_ok {c : Compiler} {d : Document} {n : Node}
    (h : parse c.limits d = .ok n) :
    n.depth ≤ c.limits.maxDepth ∧ c.compileDocument d = build c.resolver c.entity n := by
  obtain ⟨hconf, hrep⟩ := conforms_of_parse_ok h
  have hdepth : n.depth ≤ c.limits.maxDepth := depth_le_of_represents hconf hrep
  refine ⟨hdepth, ?_⟩
  rw [Compiler.compileDocument, h]
  exact if_neg (Nat.not_lt.mpr hdepth)

/-- A document that parses is never refused for its structure. -/
theorem kind_ne_structural_of_parse_ok {c : Compiler} {d : Document} {n : Node} {e : Error}
    (hn : parse c.limits d = .ok n) (he : c.compileDocument d = .error e) :
    e.kind ≠ .structural := by
  obtain ⟨hconf, hrep⟩ := conforms_of_parse_ok hn
  obtain ⟨-, hbuild⟩ := compileDocument_of_parse_ok hn
  obtain ⟨m, hm, o, ho, rfl⟩ := exists_objection_of_build_error (hbuild.symm.trans he)
  intro hkind
  exact kind_ne_structural_of_mem_objections (wellShaped_of_represents hconf hrep m hm) ho
    (o.kind_eq.symm.trans hkind)

/-- No tree fails for a fault of JSON. -/
theorem cause?_of_compileNode_error {c : Compiler} {n : Node} {e : Error}
    (h : c.compileNode n = .error e) (j : Json.Error) : e.cause? ≠ some (.json j) := by
  rw [Compiler.compileNode] at h
  split_ifs at h with hdepth
  · obtain rfl := Except.error.inj h
    exact (Option.some_ne_none _).symm
  · obtain ⟨m, -, o, ho, rfl⟩ := exists_objection_of_build_error h
    exact cause?_ne_json_of_mem_objections ho j

theorem cause?_of_compileDocument_error {c : Compiler} {d : Document} {e : Error}
    (h : c.compileDocument d = .error e) (j : Json.Error) : e.cause? ≠ some (.json j) := by
  cases hn : parse c.limits d with
  | error e' =>
      rw [compileDocument_of_parse_error hn] at h
      obtain rfl := Except.error.inj h
      rw [(blames_of_parse_error hn).noCause]
      exact nofun
  | ok n =>
      rw [Compiler.compileDocument, hn] at h
      exact cause?_of_compileNode_error h j

/-- The first repetition of a key has no cause. -/
theorem cause?_of_firstRepetition? {d : Document} {e : Error}
    (h : firstRepetition? d = some e) : e.cause? = none := by
  rw [firstRepetition?, show Role.node = roleAt .root from rfl,
    repetition?_eq_firstRepeated?] at h
  obtain ⟨o, -, rfl⟩ := Option.map_eq_some_iff.mp h
  exact o.blamedBy_error.cause

/-- A fault of the JSON text behind an error of reading is reported at the root. -/
theorem place_of_parseText_error {limits : Limits} {text : String} {e : Error} {j : Json.Error}
    (h : parseText limits text = .error e) (hj : e.cause? = some (.json j)) :
    e.kind = .structural ∧ e.path = .root := by
  rw [parseText] at h
  split_ifs at h with hlength
  · obtain rfl := Except.error.inj h
    cases hj
  · cases hd : readDocument .usual text with
    | error j' =>
        rw [hd] at h
        obtain rfl := Except.error.inj h
        exact ⟨rfl, rfl⟩
    | ok d =>
        simp only [hd] at h
        -- the two checks behind the reader give errors without a cause
        cases hfirst : firstRepetition? d with
        | some e' =>
            rw [hfirst] at h
            obtain rfl := Except.error.inj h
            rw [cause?_of_firstRepetition? hfirst] at hj
            cases hj
        | none =>
            rw [hfirst] at h
            rw [(blames_of_parse_error h).noCause] at hj
            cases hj

/-- **KINDS GO WITH PHASES AND CAUSES**: a document that parses is never refused
    for its structure, and one that does not is refused for that alone, whatever
    the resolver.  Errors of unknown fields and of coercion are those with such a
    cause, type errors have none, and a fault of the JSON text is a cause only
    where a text is read, of a structural error at the root. -/
theorem error_kinds (c : Compiler) :
    (∀ d n, parse c.limits d = .ok n →
        n.depth ≤ c.limits.maxDepth
          ∧ (∀ m ∈ n.preorder, ∀ o ∈ objections c.resolver c.entity m, o.kind ≠ .structural)
          ∧ ∀ e, c.compileDocument d = .error e → e.kind ≠ .structural)
      ∧ (∀ d e, parse c.limits d = .error e → ∀ resolver : Resolver,
          Compiler.compileDocument { c with resolver } d = .error e)
      ∧ (∀ e : Error,
          (e.kind = .unknownField ↔ ∃ r, e.cause? = some (.resolve r))
            ∧ (e.kind = .coercion ↔ ∃ x, e.cause? = some (.coercion x))
            ∧ (e.kind = .type → e.cause? = none))
      ∧ ∀ e j, e.cause? = some (.json j) →
          (∀ n, c.compileNode n ≠ .error e) ∧ (∀ d, c.compileDocument d ≠ .error e)
            ∧ ∀ s, c.compileText s = .error e → e.kind = .structural ∧ e.path = .root := by
  refine ⟨?_, ?_, kind_iff_cause, ?_⟩
  · intro d n hn
    obtain ⟨hconf, hrep⟩ := conforms_of_parse_ok hn
    have hshape := wellShaped_of_represents hconf hrep
    exact ⟨(compileDocument_of_parse_ok hn).1,
      fun m hm o ho => kind_ne_structural_of_mem_objections (hshape m hm) ho,
      fun e he => kind_ne_structural_of_parse_ok hn he⟩
  · intro d e he resolver
    exact compileDocument_of_parse_error he
  · intro e j hj
    refine ⟨fun n hn => cause?_of_compileNode_error hn j hj,
      fun d hd => cause?_of_compileDocument_error hd j hj, ?_⟩
    intro s hs
    cases hn : parseText c.limits s with
    | error e' =>
        rw [Compiler.compileText, hn] at hs
        obtain rfl := Except.error.inj hs
        exact place_of_parseText_error hn hj
    | ok n =>
        rw [Compiler.compileText, hn] at hs
        exact absurd hj (cause?_of_compileNode_error hs j)

/-- One limit on the depth decides between the phases: at the limit the value is
    refused, beyond it the structure, whoever knows the field; and a text that is
    cut off is refused at its root. -/
theorem error_kinds_at_limit :
    let person : Entity := ⟨"Person", [⟨"age", .int32⟩]⟩
    let c : Compiler := ⟨person.resolver, "Person", { maxDepth := 1 }⟩
    let d : Document := .object [("AND", .array [.object [("age", .object [("gt", .string "x")])]])]
    let place := (((Path.root.key "AND").index 0).key "age").key "gt"
    let e : Error := ⟨.invalidValue "age" ⟨"x", .int32, .integer .invalidDigit⟩, place⟩
    let n : Node := .combinator .and
      [.leaf "age" (.compare .gt) (.scalar (.text "x")) place] (Path.root.key "AND")
    let deeper : Document := .object [("OR", .array [d])]
    let tooDeep : Error := ⟨.tooDeep, ((Path.root.key "OR").index 0).key "AND"⟩
    let cut : Error := ⟨.malformed (.fault .endInObject), .root⟩
    (parse c.limits d = .ok n ∧ c.compileDocument d = .error e
        ∧ n.depth ≤ c.limits.maxDepth ∧ e.kind ≠ .structural)
      ∧ (parse c.limits deeper = .error tooDeep ∧ ∀ resolver : Resolver,
          Compiler.compileDocument { c with resolver } deeper = .error tooDeep)
      ∧ (cut.cause? = some (.json (.fault .endInObject)) ∧ c.compileText "\x7b" = .error cut
        ∧ cut.kind = .structural ∧ cut.path = .root) := by
  intro person c d place e n deeper tooDeep cut
  have hn : parse c.limits d = .ok n := rfl
  have he : c.compileDocument d = .error e := rfl
  have hdeeper : parse c.limits deeper = .error tooDeep := rfl
  have hread : readDocument .usual "\x7b" = .error (.fault .endInObject) := by decide +kernel
  have hcut : c.compileText "\x7b" = .error cut := by
    rw [Compiler.compileText, parseText, if_neg (by decide), hread]
    rfl
  obtain ⟨hdepth, -, hkind⟩ := (error_kinds c).1 d n hn
  exact ⟨⟨hn, he, hdepth, hkind e he⟩, ⟨hdeeper, (error_kinds c).2.1 deeper tooDeep hdeeper⟩,
    rfl, hcut, ((error_kinds c).2.2.2 cut _ rfl).2.2 _ hcut⟩

end RecordFilter.Filter
