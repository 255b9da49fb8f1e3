import RecordFilter.Proofs.ParsedTrees

/-! # Below the limit on the depth

    A combinator that stands inside of as many others as the limit allows is refused before
    its value is looked at.  `cut` exchanges the values of all such combinators for others,
    and no document can be told from a cut one by parsing it (`parseNode_cut`).  What does
    parse is within the limit, and a filter can use all of it.

    The parser counts combinators from the root down and the depth of a tree counts them from
    the leaves up; both counts meet in `depth + k ≤ limits.maxDepth`. -/

namespace RecordFilter

open RecordFilter.Filter

namespace Json.Document

mutual

/-- A node at a place inside of `depth` combinators, with other values for the keywords that
    stand in it inside of too many: `fill` has the value for each place. -/
def cut (limits : Limits) (fill : Path → Document) (depth : Nat) (path : Path) :
    Document → Document
  | .object entries => .object (cutEntries limits fill depth path entries)
  | d => d

/-- The entries of a node, with the values of keywords cut. -/
def cutEntries (limits : Limits) (fill : Path → Document) (depth : Nat) (path : Path) :
    List (String × Document) → List (String × Document)
  | [] => []
  | (key, d) :: rest =>
      (key, if key = "AND" ∨ key = "OR" then cutConditions limits fill depth (path.key key) d
        else d) :: cutEntries limits fill depth path rest

/-- The value of a keyword: another one if there are too many combinators around it, and
    otherwise its own, with the nodes in it cut. -/
def cutConditions (limits : Limits) (fill : Path → Document) (depth : Nat) (path : Path)
    (d : Document) : Document :=
  if limits.maxDepth ≤ depth then fill path
  else
    match d with
    | .array items => .array (cutItems limits fill (depth + 1) path 0 items)
    | d => d

/-- The items of an array from an index on, each cut as a node. -/
def cutItems (limits : Limits) (fill : Path → Document) (depth : Nat) (path : Path) (i : Nat) :
    List Document → List Document
  | [] => []
  | d :: rest =>
      cut limits fill depth (path.index i) d :: cutItems limits fill depth path (i + 1) rest

end

theorem cut_of_ne_object {limits : Limits} {fill : Path → Document} {depth : Nat} {path : Path}
    {d : Document} (h : ∀ entries, d ≠ .object entries) : cut limits fill depth path d = d := by
  cases d with
  | object entries => exact absurd rfl (h entries)
  | null => rfl
  | bool b => rfl
  | number s => rfl
  | string s => rfl
  | array ds => rfl

/-- A leaf inside of combinators. -/
def inside : Nat → Document
  | 0 => .object [("age", .object [("eq", .null)])]
  | k + 1 => .object [("AND", .array [inside k])]

end Json.Document

namespace Filter

open Json Document

variable {limits : Limits} {fill : Path → Document}

/-! ## Cut documents -/

theorem parseChildren_cutItems {depth : Nat} {ds : List Document}
    (ih : ∀ d ∈ ds, ∀ path, parseNode limits depth path (cut limits fill depth path d)
      = parseNode limits depth path d) (path : Path) (i : Nat) :
    parseChildren limits depth path i (cutItems limits fill depth path i ds)
      = parseChildren limits depth path i ds := by
  induction ds generalizing i with
  | nil => rfl
  | cons d ds ihs =>
      rw [cutItems, parseChildren_cons, parseChildren_cons, ih d (List.mem_cons_self ..),
        ihs fun x hx => ih x (List.mem_cons_of_mem _ hx)]

theorem parseCombinator_cutConditions (depth : Nat) (k : Combinator) (path : Path)
    {d : Document}
    (ih : ∀ ds, d = .array ds → ∀ x ∈ ds, ∀ path,
      parseNode limits (depth + 1) path (cut limits fill (depth + 1) path x)
        = parseNode limits (depth + 1) path x) :
    parseCombinator limits depth k path (cutConditions limits fill depth path d)
      = parseCombinator limits depth k path d := by
  rw [parseCombinator.eq_def, parseCombinator.eq_def, cutConditions.eq_def]
  by_cases hdeep : limits.maxDepth ≤ depth
  · -- the depth is asked first, so the value may be any
    rw [if_pos hdeep, if_pos hdeep]
  · rw [if_neg hdeep, if_neg hdeep, if_neg hdeep]
    cases d with
    | array ds =>
        cases ds with
        | nil => rfl
        | cons x ds =>
            have hchildren := parseChildren_cutItems (ih (x :: ds) rfl) path 0
            exact congrArg (Except.map fun ns => Node.combinator k ns path) hchildren
    | null => rfl
    | bool b => rfl
    | number s => rfl
    | string s => rfl
    | object es => rfl

/-- **CUTTING IS NOT SEEN**: a node and the node with other values below the limit parse
    alike. -/
theorem parseNode_cut (limits : Limits) (fill : Path → Document) (d : Document) :
    ∀ depth path, parseNode limits depth path (cut limits fill depth path d)
      = parseNode limits depth path d := by
  induction d using Document.induct_node with
  | other d hd =>
      intro depth path
      rw [cut_of_ne_object hd]
  | object entries ih =>
      intro depth path
      rcases entries with _ | ⟨⟨key, d⟩, _ | ⟨⟨key', d'⟩, entries⟩⟩
      · rfl
      · rw [cut, cutEntries, cutEntries, parseNode, parseNode]
        cases hkey : Combinator.ofKeyword? key with
        | some k =>
            obtain rfl := ofKeyword?_eq_some.mp hkey
            -- below a combinator the items are cut one level further down
            rw [if_pos (keyword_eq k)]
            refine parseCombinator_cutConditions depth k (path.key k.keyword) ?_
            rintro ds rfl x hx
            exact ih k.keyword ds (List.mem_singleton.mpr rfl) x hx (depth + 1)
        | none => rw [if_neg (not_or.mpr (ofKeyword?_eq_none.mp hkey))]
      · -- a node of several entries is refused for them alone
        rfl

/-! ## The depth of trees -/

/-- Combinators that the limit has room for parse, and all of them count. -/
theorem exists_parseNode_inside (limits : Limits) (k : Nat) : ∀ (depth : Nat) (path : Path),
    depth + k ≤ limits.maxDepth →
      ∃ n, parseNode limits depth path (inside k) = .ok n ∧ n.depth = k := by
  induction k with
  | zero =>
      intro depth path _
      exact ⟨_, rfl, rfl⟩
  | succ k ih =>
      intro depth path hdepth
      obtain ⟨n, hn, hdepth'⟩ := ih (depth + 1) ((path.key "AND").index 0) (by omega)
      refine ⟨.combinator .and [n] (path.key "AND"), ?_, ?_⟩
      · show parseCombinator limits depth .and (path.key "AND") (.array [inside k]) = _
        rw [parseCombinator_singleton (by omega), hn]
        rfl
      · rw [Node.depth, Node.greatestDepth, Node.greatestDepth, hdepth']
        omega

/-- **THE LIMIT SHIELDS THE PARSER**: whatever values stand under combinators that have as
    many around them as the limit allows, a document parses to the same result, and what
    parses is within the limit, which can be reached. -/
theorem depth_limit_shields (limits : Limits) :
    (∀ d fill, parse limits (d.cut limits fill 0 .root) = parse limits d)
      ∧ (∀ d n, parse limits d = .ok n → n.depth ≤ limits.maxDepth)
      ∧ ∃ d n, parse limits d = .ok n ∧ n.depth = limits.maxDepth := by
  refine ⟨fun d fill => parseNode_cut limits fill d 0 .root, ?_, ?_⟩
  · intro d n hn
    obtain ⟨hconf, hrep⟩ := conforms_of_parse_ok hn
    exact depth_le_of_represents hconf hrep
  · obtain ⟨n, hn, hdepth⟩ :=
      exists_parseNode_inside limits limits.maxDepth 0 .root (Nat.le_of_eq (Nat.zero_add _))
    exact ⟨inside limits.maxDepth, n, hn, hdepth⟩

/-- Inside of one combinator, where one is the limit, the value of a second one is exchanged
    and the error stays; a tree at the limit keeps it. -/
theorem depth_limit_shields_second :
    let limits : Limits := { maxDepth := 1 }
    let leaf : Document := .object [("age", .object [("eq", .null)])]
    let d : Document := .object [("OR", .array [leaf, .object [("AND", .array [leaf])]])]
    let cut : Document := .object [("OR", .array [leaf, .object [("AND", .string "x")]])]
    let place := ((Path.root.key "OR").index 1).key "AND"
    let n : Node := .combinator .or [.leaf "age" (.compare .eq) .null
      ((((Path.root.key "OR").index 0).key "age").key "eq")] (Path.root.key "OR")
    (d.cut limits (fun _ => .string "x") 0 .root = cut ∧ parse limits d = .error ⟨.tooDeep, place⟩
        ∧ parse limits cut = .error ⟨.tooDeep, place⟩)
      ∧ parse limits (.object [("OR", .array [leaf])]) = .ok n ∧ n.depth ≤ limits.maxDepth := by
  intro limits leaf d cut place n
  have hcut : d.cut limits (fun _ => .string "x") 0 .root = cut := rfl
  have hd : parse limits d = .error ⟨.tooDeep, place⟩ := rfl
  have hn : parse limits (.object [("OR", .array [leaf])]) = .ok n := rfl
  obtain ⟨hshield, hdepth, -⟩ := depth_limit_shields limits
  refine ⟨⟨hcut, hd, ?_⟩, hn, hdepth _ n hn⟩
  rw [← hcut, hshield]
  exact hd

end Filter

end RecordFilter
