import RecordFilter.Proofs.Parsing

/-! # The shape of parsed trees

    A tree that stands for a conforming document keeps, node by node, the rules
    that a tree of its own making may break: combinators have children, and every
    operand is of the shape that its operator takes (`WellShaped`).  Inside of
    `depth` combinators it is no deeper than what the limit leaves
    (`depth_le_of_represents`), so a tree that is parsed keeps the limit. -/

namespace RecordFilter.Filter

open Json

/-- A combinator with a child, or a leaf whose operand is null or a scalar where
    the operator compares, and a set with a member where it asks for
    membership. -/
inductive WellShaped : Node → Prop where
  | combinator {k : Combinator} {n : Node} {ns : List Node} {path : Path} :
      WellShaped (.combinator k (n :: ns) path)
  | null {field : String} {c : Comparison} {path : Path} :
      WellShaped (.leaf field (.compare c) .null path)
  | scalar {field : String} {c : Comparison} {l : Literal} {path : Path} :
      WellShaped (.leaf field (.compare c) (.scalar l) path)
  | set {field : String} {negated : Bool} {l : Literal} {ls : List Literal} {path : Path} :
      WellShaped (.leaf field (.member negated) (.set (l :: ls)) path)

/-! ## Nodes of trees -/

/-- The nodes of trees are the nodes of each of them. -/
theorem mem_preorderOfAll {m : Node} {ns : List Node} :
    m ∈ Node.preorderOfAll ns ↔ ∃ n ∈ ns, m ∈ n.preorder := by
  induction ns with
  | nil => exact iff_of_false (nomatch ·) (by rintro ⟨_, ⟨⟩, _⟩)
  | cons n ns ih =>
      rw [Node.preorderOfAll, List.mem_append, ih]
      constructor
      · rintro (h | ⟨x, hx, h⟩)
        · exact ⟨n, List.mem_cons_self .., h⟩
        · exact ⟨x, List.mem_cons_of_mem _ hx, h⟩
      · rintro ⟨x, hx, h⟩
        rcases List.mem_cons.mp hx with rfl | hx
        · exact Or.inl h
        · exact Or.inr ⟨x, hx, h⟩

/-- The nodes of a combinator are itself and those of its children. -/
theorem mem_preorder_combinator {m : Node} {k : Combinator} {ns : List Node} {path : Path} :
    m ∈ (Node.combinator k ns path).preorder ↔
      m = .combinator k ns path ∨ ∃ n ∈ ns, m ∈ n.preorder := by
  rw [← mem_preorderOfAll]
  exact List.mem_cons

theorem mem_preorder_leaf {m : Node} {field : String} {op : Operator} {operand : Operand}
    {path : Path} :
    m ∈ (Node.leaf field op operand path).preorder ↔ m = .leaf field op operand path :=
  List.mem_singleton

theorem mem_preorder_self (n : Node) : n ∈ n.preorder := by
  cases n with
  | combinator k ns path => exact mem_preorder_combinator.mpr (Or.inl rfl)
  | leaf field op operand path => exact mem_preorder_leaf.mpr rfl

theorem greatestDepth_le_iff {b : Nat} {ns : List Node} :
    Node.greatestDepth ns ≤ b ↔ ∀ n ∈ ns, n.depth ≤ b := by
  induction ns with
  | nil => exact iff_of_true (Nat.zero_le b) fun _ hn => (nomatch hn)
  | cons n ns ih => rw [Node.greatestDepth, Nat.max_le, ih, List.forall_mem_cons]

/-! ## Trees of conforming documents -/

/-- An array has one child for every item. -/
theorem length_eq_of_representsAll {path : Path} {i : Nat} {ds : List Document}
    {ns : List Node} (h : RepresentsAll path i ds ns) : ds.length = ns.length := by
  induction ns generalizing i ds with
  | nil =>
      cases h with
      | nil => rfl
  | cons n ns ih =>
      cases h with
      | cons _ hns => rw [List.length_cons, List.length_cons, ih hns]

/-- Every tree of a list stands for the item of its index. -/
theorem getElem?_of_representsAll {path : Path} {i : Nat} {ds : List Document}
    {ns : List Node} (h : RepresentsAll path i ds ns) {j : Nat} {n : Node}
    (hn : ns[j]? = some n) : ∃ d, ds[j]? = some d ∧ Represents (path.index (i + j)) d n := by
  induction ns generalizing i ds j with
  | nil => exact nomatch hn
  | cons m ns ih =>
      cases h with
      | @cons _ _ d _ ds _ hm hns =>
          cases j with
          | zero =>
              obtain rfl : m = n := Option.some.inj hn
              exact ⟨d, rfl, hm⟩
          | succ j =>
              -- the list counts on from `i`, its rest from the index behind
              obtain ⟨x, hx, hrep⟩ := ih hns hn
              rw [Nat.add_right_comm, Nat.add_assoc] at hrep
              exact ⟨x, hx, hrep⟩

/-- Every child represents some item of the array, at some place. -/
theorem exists_of_representsAll {path : Path} {i : Nat} {ds : List Document} {ns : List Node}
    {n : Node} (h : RepresentsAll path i ds ns) (hn : n ∈ ns) :
    ∃ d ∈ ds, ∃ path', Represents path' d n := by
  obtain ⟨j, hj⟩ := List.mem_iff_getElem?.mp hn
  obtain ⟨d, hd, hrep⟩ := getElem?_of_representsAll h hj
  exact ⟨d, List.mem_of_getElem? hd, _, hrep⟩

/-- A leaf whose operand conforms to the grammar has an operand that its operator takes. -/
theorem wellShaped_leaf {limits : Limits} {field : String} {op : Operator} {d : Document}
    {operand : Operand} {path : Path} (hconf : OperandConforms limits op d)
    (hop : OperandOf d operand) : WellShaped (.leaf field op operand path) := by
  cases op with
  | compare c =>
      cases hop with
      | null => exact .null
      | scalar hl => exact .scalar
      | set hls =>
          -- a comparison takes null or a literal, and a set is neither
          rcases hconf with ⟨⟨⟩⟩ | hliteral
          exact hliteral.elim
  | member negated =>
      obtain ⟨ds, rfl, hne, -, -⟩ := hconf
      cases hop with
      | scalar hl => cases hl
      | set hls =>
          cases hls with
          | nil => exact absurd rfl hne
          | cons _ _ => exact .set

/-- **PARSED TREES ARE WELL SHAPED** at every node. -/
theorem wellShaped_of_represents {limits : Limits} {n : Node} :
    ∀ {depth : Nat} {path : Path} {d : Document}, Conforms limits depth d →
      Represents path d n → ∀ m ∈ n.preorder, WellShaped m := by
  induction n with
  | leaf field op operand path =>
      intro depth _ d hconf hrep m hm
      obtain rfl := mem_preorder_leaf.mp hm
      cases hrep with
      | leaf hand hor htoken hoperand =>
          obtain ⟨_, _, _, heq, htoken', hx⟩ :=
            (conforms_leaf_iff (not_or.mpr ⟨hand, hor⟩)).mp hconf
          obtain ⟨rfl, rfl⟩ : _ = _ ∧ _ = _ := by simpa using heq
          -- one token stands for one operator
          obtain rfl := Option.some.inj
            ((mem_tokens_iff.mp htoken).symm.trans (mem_tokens_iff.mp htoken'))
          exact wellShaped_leaf hx hoperand
  | combinator k ns path ih =>
      intro depth _ d hconf hrep m hm
      cases hrep with
      | combinator hns =>
          obtain ⟨-, ds, heq, hne, hds⟩ := (conforms_combinator_iff (keyword_eq k)).mp hconf
          obtain rfl := Document.array.inj heq
          rcases mem_preorder_combinator.mp hm with rfl | ⟨n, hn, hm⟩
          · cases hns with
            | nil => exact absurd rfl hne
            | cons _ _ => exact .combinator
          · obtain ⟨x, hx, path', hrep⟩ := exists_of_representsAll hns hn
            exact ih n hn (hds x hx) hrep m hm

/-- **PARSED TREES KEEP THE LIMIT**: inside of `depth` combinators a tree is as
    deep as the limit leaves, at most. -/
theorem depth_le_of_represents {limits : Limits} {n : Node} :
    ∀ {depth : Nat} {path : Path} {d : Document}, Conforms limits depth d →
      Represents path d n → n.depth ≤ limits.maxDepth - depth := by
  induction n with
  | leaf field op operand path =>
      intro depth _ d _ _
      exact Nat.zero_le _
  | combinator k ns path ih =>
      intro depth _ d hconf hrep
      cases hrep with
      | combinator hns =>
          obtain ⟨hdepth, ds, heq, -, hds⟩ := (conforms_combinator_iff (keyword_eq k)).mp hconf
          obtain rfl := Document.array.inj heq
          have hall : Node.greatestDepth ns ≤ limits.maxDepth - (depth + 1) := by
            rw [greatestDepth_le_iff]
            intro n hn
            obtain ⟨x, hx, path', hrep⟩ := exists_of_representsAll hns hn
            exact ih n hn (hds x hx) hrep
          rw [Node.depth]
          omega

/-- A document that parses conforms, and its tree stands for it. -/
theorem conforms_of_parse_ok {limits : Limits} {d : Document} {n : Node}
    (h : parse limits d = .ok n) : Conforms limits 0 d ∧ Represents .root d n := by
  obtain ⟨hnone, hrep⟩ := represents_of_parse_ok h
  exact ⟨(violations_eq_nil_iff limits d 0 .root).mp hnone, hrep⟩

end RecordFilter.Filter
