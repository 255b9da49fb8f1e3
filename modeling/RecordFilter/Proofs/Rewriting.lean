import RecordFilter.Proofs.ErrorKinds
import RecordFilter.Proofs.RepeatedKeys

/-! # Documents rewritten node by node

    A rewriting takes a filter document apart as the parser does: nodes, the values of keywords,
    and the values of fields (`Rewrites`).  What it does to the result of the parser is said once:
    if the leaves of the rewritten document parse to mapped leaves, then all of it parses to the
    mapped tree, with other operands and at other places, and an error is moved like the places
    of the tree (`parseNode_rewritten`).

    Building hands places on and never looks at them, so a mapped tree is built to the same
    predicate, or refused with the same problem at the mapped place (`build_map`). -/

namespace RecordFilter

open RecordFilter.Filter

/-! ## Rewritings -/

namespace Json.Document

/-- A rewriting of documents node by node: `node` rewrites nodes, `conditions` the values of
    keywords, and `operators` the values of fields. -/
structure Rewrites (node conditions operators : Document → Document) : Prop where
  other : ∀ d, (∀ entries, d ≠ .object entries) → ∀ entries, node d ≠ .object entries
  empty : node (.object []) = .object []
  several : ∀ x y rest, ∃ x' y' rest', node (.object (x :: y :: rest)) = .object (x' :: y' :: rest')
  combinator : ∀ k d, node (.object [(Combinator.keyword k, d)])
    = .object [(Combinator.keyword k, conditions d)]
  leaf : ∀ field d, Combinator.ofKeyword? field = none →
    node (.object [(field, d)]) = .object [(field, operators d)]
  array : ∀ items, conditions (.array items) = .array (items.map node)
  notArray : ∀ d, (∀ items, d ≠ .array items) → ∀ items, conditions d ≠ .array items

end Json.Document

namespace Filter

open Json Document

/-! ## Mapped trees and moved errors -/

mutual

/-- The tree with other operands and at other places. -/
def Node.map (f : Operand → Operand) (g : Path → Path) : Node → Node
  | .combinator k children path => .combinator k (Node.mapAll f g children) (g path)
  | .leaf field op operand path => .leaf field op (f operand) (g path)

/-- Trees with other operands and at other places. -/
def Node.mapAll (f : Operand → Operand) (g : Path → Path) : List Node → List Node
  | [] => []
  | n :: rest => n.map f g :: Node.mapAll f g rest

end

/-- The same problem at another place. -/
def Error.moved (g : Path → Path) (e : Error) : Error := { e with path := g e.path }

/-- A result whose value is mapped, or whose error is moved. -/
def carry {α β : Type} (f : α → β) (g : Path → Path) (x : Except Error α) : Except Error β :=
  (x.map f).mapError (Error.moved g)

variable {α β γ δ : Type} {f : Operand → Operand} {g : Path → Path}

theorem carry_refuse (h : α → β) (g : Path → Path) (problem : Problem) (path : Path) :
    carry h g (refuse problem path) = refuse problem (g path) := rfl

/-- Carrying over commutes with a change of the result, if it does so for every result. -/
theorem map_carry {h : α → γ} {h' : β → δ} {m : α → β} {m' : γ → δ}
    (hcomm : ∀ a, m' (h a) = h' (m a)) (x : Except Error α) :
    (carry h g x).map m' = carry h' g (x.map m) := by
  cases x with
  | error e => rfl
  | ok a => exact congrArg Except.ok (hcomm a)

/-- Carrying over commutes with a further step, if the step does so for every result. -/
theorem bind_carry {h : α → γ} {h' : β → δ} {m : α → Except Error β} {m' : γ → Except Error δ}
    (hcomm : ∀ a, m' (h a) = carry h' g (m a)) (x : Except Error α) :
    (carry h g x).bind m' = carry h' g (x.bind m) := by
  cases x with
  | error e => rfl
  | ok a => exact hcomm a

theorem carry_id (x : Except Error α) : carry id id x = x := by
  cases x <;> rfl

theorem carry_eq_mapError (x : Except Error α) : carry id g x = x.mapError (Error.moved g) := by
  cases x <;> rfl

/-! ## Building mapped trees -/

variable {resolver : Resolver} {entity : String}

theorem path_map (n : Node) : (n.map f g).path = g n.path := by
  cases n <;> rfl

theorem depth_map (n : Node) : (n.map f g).depth = n.depth := by
  induction n with
  | leaf field op operand path => rfl
  | combinator k ns path ih =>
      rw [Node.map, Node.depth, Node.depth]
      congr 1
      induction ns with
      | nil => rfl
      | cons n ns ihs =>
          rw [Node.mapAll, Node.greatestDepth, Node.greatestDepth, ih n (List.mem_cons_self ..),
            ihs fun m hm => ih m (List.mem_cons_of_mem _ hm)]

/-- **BUILDING MAPS ITS ERRORS**: where operands are exchanged for others that make the same
    conditions, a tree is built to the same predicate, or refused at the mapped place. -/
theorem build_map
    (hleaf : ∀ field op operand path, leafCondition resolver entity field op (f operand) (g path)
      = carry id g (leafCondition resolver entity field op operand path)) (n : Node) :
    build resolver entity (n.map f g) = carry id g (build resolver entity n) := by
  induction n with
  | leaf field op operand path => exact hleaf field op operand path
  | combinator k ns path ih =>
      -- the children first: the first of them that is refused decides for both sides
      have hchildren : buildAll resolver entity (Node.mapAll f g ns)
          = carry id g (buildAll resolver entity ns) := by
        induction ns with
        | nil => rfl
        | cons n ns ihs =>
            rw [Node.mapAll, buildAll_cons, buildAll_cons, ih n (List.mem_cons_self ..),
              ihs fun m hm => ih m (List.mem_cons_of_mem _ hm)]
            cases build resolver entity n with
            | error e => rfl
            | ok p => cases buildAll resolver entity ns <;> rfl
      rw [Node.map, build_combinator, build_combinator, hchildren]
      cases buildAll resolver entity ns with
      | error e => rfl
      | ok ps =>
          dsimp only [carry, Except.map, Except.mapError, Except.bind, id]
          cases Predicate.combine k ps <;> rfl

/-- The condition of a leaf depends on its place in errors only. -/
theorem leafCondition_moved (field : String) (op : Operator) (operand : Operand) (path : Path) :
    leafCondition resolver entity field op operand (g path)
      = carry id g (leafCondition resolver entity field op operand path) := by
  rw [leafCondition, leafCondition]
  cases resolver entity field with
  | error e => rfl
  | ok type =>
      dsimp only
      split_ifs with hord
      · rfl
      · cases operand with
        | null =>
            cases op with
            | member negated => rfl
            | compare c => cases c <;> rfl
        | scalar l =>
            cases op with
            | member negated => rfl
            | compare c =>
                dsimp only [scalarCondition]
                cases type.coerce l <;> rfl
        | set ls =>
            cases op with
            | compare c => rfl
            | member negated =>
                dsimp only [setCondition]
                split_ifs with hls
                · rfl
                · cases type.coerceAll ls <;> rfl

/-- **REWRITTEN TREES COMPILE ALIKE** if their leaves do: the depth is the same, and building
    sees the tree through its leaves. -/
theorem compileNode_map {c : Compiler}
    (hleaf : ∀ field op operand path,
      leafCondition c.resolver c.entity field op (f operand) (g path)
        = carry id g (leafCondition c.resolver c.entity field op operand path)) (n : Node) :
    c.compileNode (n.map f g) = carry id g (c.compileNode n) := by
  rw [Compiler.compileNode, Compiler.compileNode, depth_map, path_map, build_map hleaf]
  split_ifs with hdepth <;> rfl

/-- Documents compile alike if one parses to the rewritten tree of the other. -/
theorem compileDocument_of_parse_map {c : Compiler} {d d' : Document}
    (hleaf : ∀ field op operand path,
      leafCondition c.resolver c.entity field op (f operand) (g path)
        = carry id g (leafCondition c.resolver c.entity field op operand path))
    (h : parse c.limits d' = carry (Node.map f g) g (parse c.limits d)) :
    c.compileDocument d' = carry id g (c.compileDocument d) := by
  rw [Compiler.compileDocument, Compiler.compileDocument, h]
  exact bind_carry (compileNode_map hleaf) _

/-! ## Parsing rewritten documents -/

variable {limits : Limits} {node conditions operators : Document → Document}

/-- The places that no rewriting of leaves moves: those of nodes, and of the values of
    keywords. -/
def KeepsNodes (g : Path → Path) : Prop :=
  ∀ path, AtNode path →
    g path = path ∧ ∀ k : Combinator, g (path.key k.keyword) = path.key k.keyword

/-- The elements of a set depend on their places in errors only. -/
theorem parseElements_moved {op : Operator} {path path' : Path}
    (h : ∀ i, g (path.index i) = path'.index i) (i : Nat) (ds : List Document) :
    parseElements op path' i ds = carry id g (parseElements op path i ds) := by
  induction ds generalizing i with
  | nil => rfl
  | cons d ds ih =>
      rw [parseElements, parseElements]
      cases literalOf? d with
      | none =>
          show refuse _ (path'.index i) = refuse _ (g (path.index i))
          rw [h]
      | some l =>
          dsimp only
          rw [ih]
          refine map_carry (fun _ => ?_) _
          rfl

/-- An operand depends on its place in errors only: on its own, and on those of the elements of a
    set. -/
theorem parseOperand_moved (limits : Limits) (op : Operator) {path path' : Path}
    (hpath : g path = path') (h : ∀ i, g (path.index i) = path'.index i) (d : Document) :
    parseOperand limits op path' d = carry id g (parseOperand limits op path d) := by
  subst hpath
  rw [parseOperand, parseOperand]
  split_ifs with hset
  · cases d with
    | array ds =>
        cases ds with
        | nil => rfl
        | cons x ds =>
            rw [parseSet.eq_def, parseSet.eq_def]
            dsimp only
            split_ifs with hlimit
            · rfl
            · rw [parseElements_moved h]
              refine map_carry (fun _ => ?_) _
              rfl
    | _ => rfl
  · cases d <;> rfl

/-- Rewritten children parse to rewritten trees if each of them does. -/
theorem parseChildren_rewritten {depth : Nat} {path : Path} {ds : List Document}
    (ih : ∀ d ∈ ds, ∀ i, parseNode limits depth (path.index i) (node d)
      = carry (Node.map f g) g (parseNode limits depth (path.index i) d)) (i : Nat) :
    parseChildren limits depth path i (ds.map node)
      = carry (Node.mapAll f g) g (parseChildren limits depth path i ds) := by
  induction ds generalizing i with
  | nil => rfl
  | cons d ds ihs =>
      rw [List.map_cons, parseChildren_cons, parseChildren_cons, ih d (List.mem_cons_self ..),
        ihs fun x hx => ih x (List.mem_cons_of_mem _ hx)]
      cases parseNode limits depth (path.index i) d with
      | error e => rfl
      | ok n => cases parseChildren limits depth path (i + 1) ds <;> rfl

/-- A rewritten combinator parses to a rewritten tree if its children do: it is refused for its
    depth or its shape as before. -/
theorem parseCombinator_rewritten (h : Rewrites node conditions operators) {depth : Nat}
    (k : Combinator) {path : Path} (hpath : g path = path) {d : Document}
    (ih : ∀ ds, d = .array ds → ∀ x ∈ ds, ∀ i, parseNode limits (depth + 1) (path.index i) (node x)
      = carry (Node.map f g) g (parseNode limits (depth + 1) (path.index i) x)) :
    parseCombinator limits depth k path (conditions d)
      = carry (Node.map f g) g (parseCombinator limits depth k path d) := by
  -- in the order of the checks: the depth, the shape of the value, the children
  by_cases hdeep : limits.maxDepth ≤ depth
  · rw [parseCombinator.eq_def, parseCombinator.eq_def, if_pos hdeep, if_pos hdeep, carry_refuse,
      hpath]
  · have hdepth := Nat.not_le.mp hdeep
    by_cases harray : ∃ ds, d = .array ds
    · obtain ⟨ds, rfl⟩ := harray
      rw [h.array, parseCombinator.eq_def, parseCombinator.eq_def, if_neg hdeep, if_neg hdeep]
      cases ds with
      | nil =>
          show refuse _ path = refuse _ (g path)
          rw [hpath]
      | cons x ds =>
          have hchildren := parseChildren_rewritten (ih (x :: ds) rfl) 0
          rw [List.map_cons] at hchildren ⊢
          dsimp only
          rw [hchildren]
          refine map_carry (fun ns => ?_) _
          rw [Node.map, hpath]
    · have hd := not_exists.mp harray
      rw [parseCombinator_of_ne_array hdepth hd, carry_refuse, hpath,
        parseCombinator_of_ne_array hdepth (h.notArray d hd)]

/-- **REWRITTEN NODES PARSE TO MAPPED TREES**, and are refused at the mapped place, if the leaves
    are. -/
theorem parseNode_rewritten (h : Rewrites node conditions operators) (hg : KeepsNodes g)
    (hleaf : ∀ path field d, AtNode path → Combinator.ofKeyword? field = none →
      parseLeaf limits field (path.key field) (operators d)
        = carry (Node.map f g) g (parseLeaf limits field (path.key field) d)) (d : Document) :
    ∀ depth path, AtNode path → parseNode limits depth path (node d)
      = carry (Node.map f g) g (parseNode limits depth path d) := by
  -- in the order of the checks: an object, one key, then what the key is
  induction d using Document.induct_node with
  | other d hd =>
      intro depth path hpath
      rw [parseNode_of_ne_object hd, parseNode_of_ne_object (h.other d hd), carry_refuse,
        (hg path hpath).1]
  | object entries ih =>
      intro depth path hpath
      obtain ⟨hnode, hkeyword⟩ := hg path hpath
      rcases entries with _ | ⟨⟨key, d⟩, _ | ⟨entry, entries⟩⟩
      · rw [h.empty]
        show refuse _ path = refuse _ (g path)
        rw [hnode]
      · cases hkey : Combinator.ofKeyword? key with
        | some k =>
            obtain rfl := ofKeyword?_eq_some.mp hkey
            rw [h.combinator, parseNode, parseNode, hkey]
            refine parseCombinator_rewritten h k (hkeyword k) ?_
            rintro ds rfl x hx i
            exact ih k.keyword ds (List.mem_singleton.mpr rfl) x hx (depth + 1) _
              (hpath.child (Option.isSome_iff_exists.mpr ⟨k, hkey⟩))
        | none =>
            rw [h.leaf key d hkey, parseNode, parseNode, hkey]
            exact hleaf path key d hpath hkey
      · obtain ⟨x, y, rest, hseveral⟩ := h.several (key, d) entry entries
        rw [hseveral]
        show refuse _ path = refuse _ (g path)
        rw [hnode]

end Filter

end RecordFilter
