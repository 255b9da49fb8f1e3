import RecordFilter.Proofs.Rewriting

/-! # The spelling of operands and of tokens

    A number, a boolean and the string of its text are one operand: wherever a scalar may stand
    in a filter document they are accepted or refused alike, and a coercion sees the text only.
    Nor does it count which of its two tokens names an operator, except that an error inside of
    a leaf has the token in its place.

    Both are rewritings of a document node by node.  The one keeps every place and changes the
    literals of the tree; the other one keeps the tree, but for its places. -/

namespace RecordFilter

open RecordFilter.Filter

/-! ## Literals and operands -/

/-- The string that holds the text of a literal. -/
def Literal.inText (l : Literal) : Literal := .text l.toText

namespace Filter

/-- The operand with every literal as its text. -/
def Operand.inText : Operand → Operand
  | .null => .null
  | .scalar l => .scalar l.inText
  | .set ls => .set (ls.map Literal.inText)

/-- The first of the two tokens of an operator, in place of the second one. -/
def canonicalToken (token : String) : String :=
  if token = "neq" then "!eq" else if token = "nin" then "!in" else token

/-- The steps behind the field of a leaf, with a canonical token. -/
def canonicalLeafSteps : List Step → List Step
  | .key token :: rest => .key (canonicalToken token) :: rest
  | steps => steps

/-- The steps with a canonical token: it is the step behind the first key that is no keyword. -/
def canonicalSteps : List Step → List Step
  | [] => []
  | .index i :: rest => .index i :: canonicalSteps rest
  | .key key :: rest =>
      .key key :: (if key = "AND" ∨ key = "OR" then canonicalSteps rest
        else canonicalLeafSteps rest)

/-- The place in the document with canonical tokens. -/
def Path.canonical (path : Path) : Path := ⟨canonicalSteps path.steps⟩

end Filter

/-! ## Documents -/

namespace Json.Document

mutual

/-- The document with every number and boolean as the string of its text. -/
def inText : Document → Document
  | .null => .null
  | .bool b => .string (Value.boolText b)
  | .number spelling => .string spelling
  | .string s => .string s
  | .array items => .array (itemsInText items)
  | .object entries => .object (entriesInText entries)

/-- Items with every number and boolean as the string of its text. -/
def itemsInText : List Document → List Document
  | [] => []
  | d :: rest => d.inText :: itemsInText rest

/-- Entries with every number and boolean as the string of its text. -/
def entriesInText : List (String × Document) → List (String × Document)
  | [] => []
  | (key, d) :: rest => (key, d.inText) :: entriesInText rest

end

/-- The operators of a leaf, with a canonical token if it is the only one. -/
def canonicalOperators : Document → Document
  | .object [(token, d)] => .object [(canonicalToken token, d)]
  | d => d

mutual

/-- The node with a canonical token in each of its leaves. -/
def canonical : Document → Document
  | .object [(key, d)] =>
      .object [(key, if key = "AND" ∨ key = "OR" then canonicalConditions d
        else canonicalOperators d)]
  | d => d

/-- The value of a keyword, with canonical tokens in the nodes in it. -/
def canonicalConditions : Document → Document
  | .array items => .array (canonicalItems items)
  | d => d

/-- The nodes of an array with canonical tokens. -/
def canonicalItems : List Document → List Document
  | [] => []
  | d :: rest => d.canonical :: canonicalItems rest

end

theorem itemsInText_eq_map (ds : List Document) : itemsInText ds = ds.map inText := by
  induction ds with
  | nil => rfl
  | cons d ds ih => rw [itemsInText, ih, List.map_cons]

theorem canonicalItems_eq_map (ds : List Document) : canonicalItems ds = ds.map canonical := by
  induction ds with
  | nil => rfl
  | cons d ds ih => rw [canonicalItems, ih, List.map_cons]

/-- Writing literals as texts changes no key. -/
theorem rewrites_inText : Rewrites inText inText inText where
  other d hd entries := by
    cases d with
    | object entries' => exact absurd rfl (hd entries')
    | _ => exact nofun
  empty := rfl
  several x y rest := ⟨_, _, _, rfl⟩
  combinator k d := rfl
  leaf field d _ := rfl
  array items := by rw [inText, itemsInText_eq_map]
  notArray d hd items := by
    cases d with
    | array items' => exact absurd rfl (hd items')
    | _ => exact nofun

/-- Canonical tokens change the keys of operator objects only. -/
theorem rewrites_canonical : Rewrites canonical canonicalConditions canonicalOperators where
  other d hd entries := by
    cases d with
    | object entries' => exact absurd rfl (hd entries')
    | _ => exact nofun
  empty := rfl
  several x y rest := ⟨x, y, rest, rfl⟩
  combinator k d := by rw [canonical, if_pos (keyword_eq k)]
  leaf field d hfield := by rw [canonical, if_neg (not_or.mpr (ofKeyword?_eq_none.mp hfield))]
  array items := by rw [canonicalConditions, canonicalItems_eq_map]
  notArray d hd items := by
    cases d with
    | array items' => exact absurd rfl (hd items')
    | _ => exact nofun

end Json.Document

namespace Filter

open Json Document

/-! ## Conditions of literals in text -/

variable {resolver : Resolver} {entity : String}

theorem coerceAll_inText (type : FieldType) (ls : List Literal) :
    type.coerceAll (ls.map Literal.inText) = type.coerceAll ls := by
  induction ls with
  | nil => rfl
  | cons l ls ih =>
      rw [List.map_cons, FieldType.coerceAll, FieldType.coerceAll, ih]
      rfl

/-- A set of literals is built as the set of their texts is. -/
theorem setCondition_inText (field : String) (type : FieldType) (op : Operator)
    (ls : List Literal) (path : Path) :
    setCondition field type op (ls.map Literal.inText) path
      = setCondition field type op ls path := by
  cases op with
  | compare c => rfl
  | member negated =>
      cases ls with
      | nil => rfl
      | cons l ls =>
          rw [setCondition, setCondition, coerceAll_inText]
          rfl

/-- A coercion sees the text of a literal and nothing else of it. -/
theorem leafCondition_inText (field : String) (op : Operator) (operand : Operand) (path : Path) :
    leafCondition resolver entity field op operand.inText path
      = leafCondition resolver entity field op operand path := by
  cases operand with
  | null => rfl
  | scalar l => rfl
  | set ls =>
      rw [leafCondition, leafCondition, Operand.inText]
      cases resolver entity field with
      | error e => rfl
      | ok type =>
          dsimp only
          rw [setCondition_inText]

/-! ## Leaves in text -/

/-- The text of a literal is a literal, and nothing else becomes one. -/
theorem literalOf?_inText (d : Document) :
    literalOf? d.inText = (literalOf? d).map Literal.inText := by
  cases d <;> rfl

theorem parseElements_inText (op : Operator) (path : Path) (i : Nat) (ds : List Document) :
    parseElements op path i (itemsInText ds)
      = carry (List.map Literal.inText) id (parseElements op path i ds) := by
  induction ds generalizing i with
  | nil => rfl
  | cons d ds ih =>
      rw [itemsInText, parseElements, parseElements, literalOf?_inText]
      cases literalOf? d with
      | none => rfl
      | some l =>
          dsimp only [Option.map]
          rw [ih]
          refine map_carry (fun _ => ?_) _
          rfl

/-- Whether a set keeps its limit does not depend on what its elements are. -/
theorem parseSet_inText (limits : Limits) (op : Operator) (path : Path) (d : Document) :
    parseSet limits op path d.inText = carry Operand.inText id (parseSet limits op path d) := by
  cases d with
  | array ds =>
      cases ds with
      | nil => rfl
      | cons x ds =>
          have hlength : (itemsInText (x :: ds)).length = (x :: ds).length := by
            rw [itemsInText_eq_map, List.length_map]
          rw [inText, parseSet.eq_def, parseSet.eq_def]
          dsimp only [itemsInText]
          rw [← itemsInText, hlength, parseElements_inText]
          split_ifs with hlimit
          · rfl
          · refine map_carry (fun _ => ?_) _
            rfl
  | _ => rfl

/-- An operand is parsed as its text is. -/
theorem parseOperand_inText (limits : Limits) (op : Operator) (path : Path) (d : Document) :
    parseOperand limits op path d.inText
      = carry Operand.inText id (parseOperand limits op path d) := by
  rw [parseOperand, parseOperand]
  split_ifs with hset
  · exact parseSet_inText limits op path d
  · cases d <;> rfl

/-- A leaf is parsed as the leaf over the text of its operand is. -/
theorem parseLeaf_inText (limits : Limits) (field : String) (path : Path) (d : Document) :
    parseLeaf limits field path d.inText
      = carry (Node.map Operand.inText id) id (parseLeaf limits field path d) := by
  cases d with
  | object entries =>
      rcases entries with _ | ⟨⟨token, x⟩, _ | ⟨entry, entries⟩⟩
      · rfl
      · rw [inText, entriesInText, entriesInText, parseLeaf, parseLeaf]
        cases Operator.ofToken? token with
        | none => rfl
        | some op =>
            dsimp only
            rw [parseOperand_inText]
            refine map_carry (fun _ => ?_) _
            rfl
      · rfl
  | _ => rfl

/-! ## Leaves with canonical tokens -/

/-- The canonical token is a token of the same operator. -/
theorem ofToken?_canonicalToken (token : String) :
    Operator.ofToken? (canonicalToken token) = Operator.ofToken? token := by
  rw [canonicalToken]
  split_ifs with hneq hnin
  · rw [hneq]
    rfl
  · rw [hnin]
    rfl
  · rfl

/-- The tokens that are respelled are those of an operator. -/
theorem canonicalToken_of_ofToken?_eq_none {token : String}
    (h : Operator.ofToken? token = none) : canonicalToken token = token := by
  rw [canonicalToken, if_neg, if_neg]
  · rintro rfl
    exact nomatch h
  · rintro rfl
    exact nomatch h

/-- The steps down to a node stay as they are: none of them is a token. -/
theorem canonicalSteps_append {path : Path} (h : AtNode path) (rest : List Step) :
    canonicalSteps (path.steps ++ rest) = path.steps ++ canonicalSteps rest := by
  induction h generalizing rest with
  | root => rfl
  | @child path key i _ hkey ih =>
      obtain ⟨k, hk⟩ := Option.isSome_iff_exists.mp hkey
      obtain rfl := ofKeyword?_eq_some.mp hk
      show canonicalSteps (path.steps ++ [.key k.keyword] ++ [.index i] ++ rest) = _
      rw [List.append_assoc, List.append_assoc, ih]
      show path.steps ++ canonicalSteps (.key k.keyword :: .index i :: rest) = _
      rw [canonicalSteps, if_pos (keyword_eq k), canonicalSteps]
      show _ = path.steps ++ [.key k.keyword] ++ [.index i] ++ canonicalSteps rest
      rw [List.append_assoc, List.append_assoc]
      rfl

theorem canonical_eq_append {path : Path} (h : AtNode path) (rest : List Step) :
    Path.canonical ⟨path.steps ++ rest⟩ = ⟨path.steps ++ canonicalSteps rest⟩ :=
  congrArg Path.mk (canonicalSteps_append h rest)

theorem keepsNodes_canonical : KeepsNodes Path.canonical := by
  intro path hpath
  constructor
  · have hnode := canonical_eq_append hpath []
    rwa [canonicalSteps, List.append_nil] at hnode
  · intro k
    have hkey := canonical_eq_append hpath [.key k.keyword]
    rwa [canonicalSteps, if_pos (keyword_eq k), canonicalSteps] at hkey

/-- At a leaf, the token is the one step that is respelled. -/
theorem canonical_leaf {path : Path} (h : AtNode path) {field : String}
    (hfield : Combinator.ofKeyword? field = none) (rest : List Step) :
    Path.canonical ⟨path.steps ++ .key field :: rest⟩
      = ⟨path.steps ++ .key field :: canonicalLeafSteps rest⟩ := by
  rw [canonical_eq_append h, canonicalSteps,
    if_neg (not_or.mpr (ofKeyword?_eq_none.mp hfield))]

/-- A leaf is parsed alike under the canonical token, which errors inside of it name. -/
theorem parseLeaf_canonical (limits : Limits) {path : Path} (h : AtNode path) {field : String}
    (hfield : Combinator.ofKeyword? field = none) (d : Document) :
    parseLeaf limits field (path.key field) d.canonicalOperators
      = carry (Node.map id Path.canonical) Path.canonical
          (parseLeaf limits field (path.key field) d) := by
  -- the place of the leaf, and the places of its token and of the elements of its operand
  have hkey : Path.canonical (path.key field) = path.key field := canonical_leaf h hfield []
  have htoken (token : String) : Path.canonical ((path.key field).key token)
      = (path.key field).key (canonicalToken token) := by
    have hsteps := canonical_leaf h hfield [.key token]
    simpa only [Path.key, Path.step, List.append_assoc, List.singleton_append,
      canonicalLeafSteps] using hsteps
  have hindex (token : String) (i : Nat) :
      Path.canonical (((path.key field).key token).index i)
        = ((path.key field).key (canonicalToken token)).index i := by
    have hsteps := canonical_leaf h hfield [.key token, .index i]
    simpa only [Path.key, Path.index, Path.step, List.append_assoc, List.singleton_append,
      List.cons_append, List.nil_append, canonicalLeafSteps] using hsteps
  cases d with
  | object entries =>
      rcases entries with _ | ⟨⟨token, x⟩, _ | ⟨entry, entries⟩⟩
      · show refuse _ (path.key field) = refuse _ (Path.canonical (path.key field))
        rw [hkey]
      · rw [canonicalOperators, parseLeaf, parseLeaf, ofToken?_canonicalToken]
        cases hop : Operator.ofToken? token with
        | none =>
            dsimp only
            -- what is no token is left as it is, in the error as in the document
            rw [canonicalToken_of_ofToken?_eq_none hop, carry_refuse, htoken,
              canonicalToken_of_ofToken?_eq_none hop]
        | some op =>
            dsimp only
            rw [parseOperand_moved limits op (htoken token) (hindex token)]
            refine map_carry (fun operand => ?_) _
            rw [Node.map, htoken]
      · show refuse _ (path.key field) = refuse _ (Path.canonical (path.key field))
        rw [hkey]
  | _ =>
      show refuse _ (path.key field) = refuse _ (Path.canonical (path.key field))
      rw [hkey]

/-! ## Whole documents -/

/-- **ONLY TEXTS COUNT**: a document compiles to the same predicate, or is refused with the same
    problem at the same place, if every number and boolean in it is exchanged for the string of
    its text; and so it is if the second token of an operator is exchanged for the first one,
    but for that token in the place of an error. -/
theorem only_texts_count (c : Compiler) (d : Document) :
    c.compileDocument d.inText = c.compileDocument d
      ∧ c.compileDocument d.canonical
        = (c.compileDocument d).mapError (Error.moved Path.canonical) := by
  constructor
  · have hparse : parse c.limits d.inText
        = carry (Node.map Operand.inText id) id (parse c.limits d) :=
      parseNode_rewritten rewrites_inText (fun path _ => ⟨rfl, fun _ => rfl⟩)
        (fun path field x _ _ => parseLeaf_inText c.limits field (path.key field) x) d 0 .root .root
    rw [compileDocument_of_parse_map (fun field op operand path => ?_) hparse, carry_id]
    exact (leafCondition_inText field op operand path).trans (carry_id _).symm
  · have hparse : parse c.limits d.canonical
        = carry (Node.map id Path.canonical) Path.canonical (parse c.limits d) :=
      parseNode_rewritten rewrites_canonical keepsNodes_canonical
        (fun path field x hpath hfield => parseLeaf_canonical c.limits hpath hfield x)
        d 0 .root .root
    rw [compileDocument_of_parse_map leafCondition_moved hparse, carry_eq_mapError]

/-- The token is respelled in the place of the error, and the field of the same name is not. -/
example :
    let d : Document := .object [("AND", .array [.object [("neq", .object [("neq", .array [])])]])]
    let c : Compiler := ⟨(Entity.mk "Robot" [⟨"neq", .int64⟩]).resolver, "Robot", {}⟩
    let leaf := ((Path.root.key "AND").index 0).key "neq"
    c.compileDocument d = .error ⟨.scalarExpected (.compare .ne), leaf.key "neq"⟩
      ∧ c.compileDocument d.canonical
        = .error ⟨.scalarExpected (.compare .ne), leaf.key "!eq"⟩ := ⟨rfl, rfl⟩

end Filter

end RecordFilter
