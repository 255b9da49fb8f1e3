import RecordFilter.Proofs.ErrorKinds

/-! # Places in documents

    A path is followed from the root of a document, a key or an index at a time (`at?`).  The
    path of every node that is parsed leads to what the node was made from, and no two nodes
    have the same path.  Errors stand at such places as well, those of building at a node and
    those of parsing where a rule is broken. -/

namespace RecordFilter

open RecordFilter.Filter

namespace Json.Document

/-- The value one step further into a document: that of a key, or of an index. -/
def child? : Document → Step → Option Document
  | .object entries, .key name => entries.lookup name
  | .array items, .index i => items[i]?
  | _, _ => none

/-- The value at a place of a document, if it has the place. -/
def at? (d : Document) (path : Path) : Option Document := path.steps.foldlM child? d

/-- The document has the place. -/
def HasPlace (d : Document) (path : Path) : Prop := ∃ x, d.at? path = some x

theorem at?_root (d : Document) : d.at? .root = some d := rfl

/-- A place below another is found step by step. -/
theorem at?_step (d : Document) (path : Path) (step : Step) :
    d.at? (path.step step) = (d.at? path).bind fun x => x.child? step := by
  rw [at?, Path.step, List.foldlM_append]
  show (d.at? path).bind _ = _
  refine congrArg _ (funext fun x => ?_)
  rw [List.foldlM_cons]
  cases x.child? step <;> rfl

/-- A key leads to the entry of this name. -/
theorem at?_key {d : Document} {path : Path} {key : String}
    {entries : List (String × Document)} (h : d.at? path = some (.object entries)) :
    d.at? (path.key key) = entries.lookup key := by
  rw [Path.key, at?_step, h]
  rfl

theorem at?_onlyKey {d x : Document} {path : Path} {key : String}
    (h : d.at? path = some (.object [(key, x)])) : d.at? (path.key key) = some x := by
  rw [at?_key h, List.lookup_cons_self]

/-- An index leads to the item that stands there. -/
theorem at?_index {d : Document} {path : Path} {i : Nat} {items : List Document}
    (h : d.at? path = some (.array items)) : d.at? (path.index i) = items[i]? := by
  rw [Path.index, at?_step, h]
  rfl

end Json.Document

namespace Filter

open Json Document

/-! ## The places of nodes -/

/-- A node stands where its path says: the path of a leaf ends in its field and a token of its
    operator and leads to the operand that it has, and that of a combinator ends in its
    keyword and leads to an array, every item of which stands for a child. -/
inductive Located (d : Document) : Node → Prop where
  | leaf {place : Path} {field token : String} {op : Operator} {x : Document}
      {operand : Operand} :
      (token, op) ∈ tokens → d.at? ((place.key field).key token) = some x →
      OperandOf x operand → Located d (.leaf field op operand ((place.key field).key token))
  | combinator {place : Path} {k : Combinator} {ds : List Document} {ns : List Node} :
      d.at? (place.key k.keyword) = some (.array ds) → ds.length = ns.length →
      (∀ i n, ns[i]? = some n →
        ∃ x, ds[i]? = some x ∧ Represents ((place.key k.keyword).index i) x n) →
      Located d (.combinator k ns (place.key k.keyword))

/-- **NODES STAND AT THEIR PLACES**, if the document that they stand for does. -/
theorem located_of_represents {d : Document} {n : Node} : ∀ {path : Path} {x : Document},
    d.at? path = some x → Represents path x n → ∀ m ∈ n.preorder, Located d m := by
  induction n with
  | leaf field op operand path =>
      intro place x hx hrep m hm
      obtain rfl := mem_preorder_leaf.mp hm
      cases hrep with
      | leaf _ _ htoken hoperand =>
          exact .leaf htoken (at?_onlyKey (at?_onlyKey hx)) hoperand
  | combinator k ns path ih =>
      intro place x hx hrep m hm
      cases hrep with
      | @combinator _ _ ds _ hns =>
          have hds := at?_onlyKey hx
          rcases mem_preorder_combinator.mp hm with rfl | ⟨n, hn, hm⟩
          · refine .combinator hds (length_eq_of_representsAll hns) fun i n hi => ?_
            obtain ⟨x, hx, hrep⟩ := getElem?_of_representsAll hns hi
            rw [Nat.zero_add] at hrep
            exact ⟨x, hx, hrep⟩
          · obtain ⟨i, hi⟩ := List.mem_iff_getElem?.mp hn
            obtain ⟨x, hx, hrep⟩ := getElem?_of_representsAll hns hi
            rw [Nat.zero_add] at hrep
            exact ih n hn ((at?_index hds).trans hx) hrep m hm

theorem Located.hasPlace {d : Document} {n : Node} (h : Located d n) : d.HasPlace n.path := by
  cases h with
  | leaf _ hx _ => exact ⟨_, hx⟩
  | combinator hds _ _ => exact ⟨_, hds⟩

/-! ## Paths are distinct -/

/-- A node stands behind the place of the document that it stands for. -/
theorem path_of_represents {n : Node} : ∀ {path : Path} {d : Document}, Represents path d n →
    ∀ m ∈ n.preorder, ∃ step steps, m.path = ⟨path.steps ++ step :: steps⟩ := by
  induction n with
  | leaf field op operand path =>
      intro path d hrep m hm
      obtain rfl := mem_preorder_leaf.mp hm
      cases hrep with
      | @leaf _ _ token _ _ _ _ _ _ _ =>
          exact ⟨.key field, [.key token], (steps_step_append path _ [.key token])⟩
  | combinator k ns path ih =>
      intro path d hrep m hm
      cases hrep with
      | combinator hns =>
          rcases mem_preorder_combinator.mp hm with rfl | ⟨n, hn, hm⟩
          · exact ⟨.key k.keyword, [], rfl⟩
          · obtain ⟨i, hi⟩ := List.mem_iff_getElem?.mp hn
            obtain ⟨x, -, hx⟩ := getElem?_of_representsAll hns hi
            obtain ⟨step, steps, hpath⟩ := ih n hn hx m hm
            refine ⟨.key k.keyword, .index (0 + i) :: step :: steps, ?_⟩
            rw [hpath, Path.index, steps_step_append, Path.key, steps_step_append]

/-- The nodes under an array stand behind its place and their index. -/
theorem path_of_representsAll {path : Path} {i : Nat} {ds : List Document} {ns : List Node}
    (h : RepresentsAll path i ds ns) {j : Nat} {n : Node} (hn : ns[j]? = some n) :
    ∀ m ∈ n.preorder, ∃ steps, m.path = ⟨path.steps ++ .index (i + j) :: steps⟩ := by
  intro m hm
  obtain ⟨x, -, hx⟩ := getElem?_of_representsAll h hn
  obtain ⟨step, steps, hpath⟩ := path_of_represents hx m hm
  exact ⟨step :: steps, hpath.trans (steps_step_append path _ _)⟩

/-- Items of different places have nodes of different places. -/
theorem nodup_paths_of_all {path : Path} {i : Nat} {ds : List Document} {ns : List Node}
    (ih : ∀ n ∈ ns, ∀ path d, Represents path d n → (n.preorder.map Node.path).Nodup)
    (h : RepresentsAll path i ds ns) : ((Node.preorderOfAll ns).map Node.path).Nodup := by
  induction ns generalizing i ds with
  | nil => exact List.nodup_nil
  | cons n ns ihs =>
      cases h with
      | cons hn hns =>
          rw [Node.preorderOfAll, List.map_append, List.nodup_append]
          refine ⟨ih n (List.mem_cons_self ..) _ _ hn,
            ihs (fun m hm => ih m (List.mem_cons_of_mem _ hm)) hns, ?_⟩
          -- the index tells the nodes of one child from those of the later ones
          rintro _ hp _ hq rfl
          obtain ⟨m, hm, rfl⟩ := List.mem_map.mp hp
          obtain ⟨m', hm', heq⟩ := List.mem_map.mp hq
          obtain ⟨n', hn', hm'⟩ := mem_preorderOfAll.mp hm'
          obtain ⟨j, hj⟩ := List.mem_iff_getElem?.mp hn'
          obtain ⟨steps, hsteps⟩ := path_of_representsAll (.cons hn hns) (j := 0) rfl m hm
          obtain ⟨steps', hsteps'⟩ := path_of_representsAll hns hj m' hm'
          rw [hsteps, hsteps', Path.mk.injEq, List.append_cancel_left_eq, List.cons.injEq,
            Step.index.injEq] at heq
          omega

/-- **NO TWO NODES HAVE ONE PATH**. -/
theorem nodup_paths {n : Node} : ∀ {path : Path} {d : Document}, Represents path d n →
    (n.preorder.map Node.path).Nodup := by
  induction n with
  | leaf field op operand path =>
      intro _ d _
      exact List.pairwise_singleton _ _
  | combinator k ns path ih =>
      intro _ d hrep
      cases hrep with
      | combinator hns =>
          show ((Node.combinator k ns _ :: Node.preorderOfAll ns).map Node.path).Nodup
          rw [List.map_cons, List.nodup_cons]
          refine ⟨?_, nodup_paths_of_all (fun n hn path d => ih n hn) hns⟩
          -- what stands below a combinator has a longer path
          intro hmem
          obtain ⟨m, hm, heq⟩ := List.mem_map.mp hmem
          obtain ⟨n, hn, hm⟩ := mem_preorderOfAll.mp hm
          obtain ⟨j, hj⟩ := List.mem_iff_getElem?.mp hn
          obtain ⟨steps, hsteps⟩ := path_of_representsAll hns hj m hm
          have hlength := congrArg Path.length (hsteps.symm.trans heq)
          simp only [Path.length, Node.path, List.length_append, List.length_cons] at hlength
          omega

/-! ## The places of errors -/

variable {limits : Limits} {root : Document}

/-- A rule that is broken at a place that the document has. -/
theorem hasPlace_of_mem_singleton {message : String} {path : Path} {x : Document}
    {v : Violation} (hx : root.at? path = some x) (h : v ∈ [⟨message, path⟩]) :
    root.HasPlace v.path := by
  rw [List.mem_singleton.mp h]
  exact ⟨x, hx⟩

/-- A bad element is blamed at its own index. -/
theorem path_of_mem_elementViolations {op : Operator} {path : Path} {i : Nat}
    {ds : List Document} {v : Violation} (h : v ∈ elementViolations op path i ds) :
    ∃ j < ds.length, v.path = path.index (i + j) := by
  induction ds generalizing i with
  | nil => exact nomatch h
  | cons d ds ih =>
      rw [elementViolations, List.mem_append] at h
      rcases h with h | h
      · split_ifs at h
        · cases h
        · rw [List.mem_singleton.mp h]
          exact ⟨0, Nat.zero_lt_succ _, rfl⟩
      · obtain ⟨j, hj, hpath⟩ := ih h
        refine ⟨j + 1, Nat.succ_lt_succ hj, ?_⟩
        rw [hpath, Nat.add_right_comm, Nat.add_assoc]

/-- What is wrong with an operand is blamed at a place of the document. -/
theorem hasPlace_of_mem_operandViolations {op : Operator} {path : Path} {x : Document}
    {v : Violation} (hx : root.at? path = some x)
    (h : v ∈ operandViolations limits op path x) : root.HasPlace v.path := by
  cases op with
  | compare c =>
      cases x with
      | null => cases h
      | bool b => cases h
      | number s => cases h
      | string s => cases h
      | array ds => exact hasPlace_of_mem_singleton hx h
      | object es => exact hasPlace_of_mem_singleton hx h
  | member negated =>
      cases x with
      | null => exact hasPlace_of_mem_singleton hx h
      | bool b => exact hasPlace_of_mem_singleton hx h
      | number s => exact hasPlace_of_mem_singleton hx h
      | string s => exact hasPlace_of_mem_singleton hx h
      | object es => exact hasPlace_of_mem_singleton hx h
      | array ds =>
          cases ds with
          | nil => exact hasPlace_of_mem_singleton hx h
          | cons d ds =>
              rcases List.mem_append.mp h with h | h
              · split_ifs at h
                · cases h
                · exact hasPlace_of_mem_singleton hx h
              · -- an element that is no scalar is blamed at its index
                obtain ⟨j, hj, hpath⟩ := path_of_mem_elementViolations h
                rw [Nat.zero_add] at hpath
                exact ⟨_, by rw [hpath, at?_index hx, List.getElem?_eq_getElem hj]⟩

/-- What is wrong with a leaf is blamed at a place of the document. -/
theorem hasPlace_of_mem_leafViolations {path : Path} {x : Document} {v : Violation}
    (hx : root.at? path = some x) (h : v ∈ leafViolations limits path x) :
    root.HasPlace v.path := by
  cases x with
  | object entries =>
      rcases entries with _ | ⟨⟨token, d⟩, _ | ⟨entry, entries⟩⟩
      · exact hasPlace_of_mem_singleton hx h
      · rw [leafViolations] at h
        cases hop : tokens.lookup token with
        | none =>
            rw [hop] at h
            exact hasPlace_of_mem_singleton (at?_onlyKey hx) h
        | some op =>
            rw [hop] at h
            exact hasPlace_of_mem_operandViolations (at?_onlyKey hx) h
      · exact hasPlace_of_mem_singleton hx h
  | null => exact hasPlace_of_mem_singleton hx h
  | bool b => exact hasPlace_of_mem_singleton hx h
  | number s => exact hasPlace_of_mem_singleton hx h
  | string s => exact hasPlace_of_mem_singleton hx h
  | array ds => exact hasPlace_of_mem_singleton hx h

/-- A violation in an array belongs to one of its items, at its own index. -/
theorem exists_of_mem_childViolations {depth : Nat} {path : Path} {i : Nat}
    {ds : List Document} {v : Violation} (h : v ∈ childViolations limits depth path i ds) :
    ∃ j x, ds[j]? = some x ∧ v ∈ violations limits depth (path.index (i + j)) x := by
  induction ds generalizing i with
  | nil => exact nomatch h
  | cons d ds ih =>
      rw [childViolations, List.mem_append] at h
      rcases h with h | h
      · exact ⟨0, d, rfl, h⟩
      · obtain ⟨j, x, hx, hv⟩ := ih h
        rw [Nat.add_right_comm, Nat.add_assoc] at hv
        exact ⟨j + 1, x, hx, hv⟩

theorem hasPlace_of_mem_conditionViolations {depth : Nat} {key : String} {path : Path}
    {x : Document} {v : Violation} (hx : root.at? path = some x)
    (ih : ∀ ds, x = .array ds → ∀ d ∈ ds, ∀ path, root.at? path = some d →
      ∀ v ∈ violations limits (depth + 1) path d, root.HasPlace v.path)
    (h : v ∈ conditionViolations limits depth key path x) : root.HasPlace v.path := by
  cases x with
  | array ds =>
      cases ds with
      | nil => exact hasPlace_of_mem_singleton hx h
      | cons d ds =>
          obtain ⟨j, y, hy, hv⟩ := exists_of_mem_childViolations h
          rw [Nat.zero_add] at hv
          exact ih (d :: ds) rfl y (List.mem_of_getElem? hy) _ ((at?_index hx).trans hy) v hv
  | null => exact hasPlace_of_mem_singleton hx h
  | bool b => exact hasPlace_of_mem_singleton hx h
  | number s => exact hasPlace_of_mem_singleton hx h
  | string s => exact hasPlace_of_mem_singleton hx h
  | object es => exact hasPlace_of_mem_singleton hx h

/-- **RULES ARE BROKEN AT PLACES OF THE DOCUMENT**: the path of no violation leads out of
    it. -/
theorem hasPlace_of_mem_violations (limits : Limits) (root x : Document) :
    ∀ depth path, root.at? path = some x →
      ∀ v ∈ violations limits depth path x, root.HasPlace v.path := by
  induction x using Document.induct_node with
  | other x hobject =>
      intro depth path hx v h
      rw [violations_of_ne_object hobject] at h
      exact hasPlace_of_mem_singleton hx h
  | object entries ih =>
      intro depth path hx v h
      rcases entries with _ | ⟨⟨key, x⟩, _ | ⟨entry, entries⟩⟩
      · exact hasPlace_of_mem_singleton hx h
      · have hx' := at?_onlyKey hx
        rw [violations] at h
        split_ifs at h with hkey hdepth
        · exact hasPlace_of_mem_conditionViolations hx'
            (fun ds hds d hd => ih key ds (hds ▸ List.mem_singleton.mpr rfl) d hd (depth + 1)) h
        · rcases List.mem_append.mp h with h | h
          · exact hasPlace_of_mem_singleton hx' h
          · exact hasPlace_of_mem_conditionViolations hx'
              (fun ds hds d hd => ih key ds (hds ▸ List.mem_singleton.mpr rfl) d hd (depth + 1)) h
        · exact hasPlace_of_mem_leafViolations hx' h
      · exact hasPlace_of_mem_singleton hx h

/-- An error of compiling a document stands at a place of it. -/
theorem hasPlace_of_compileDocument_error {c : Compiler} {d : Document} {e : Error}
    (h : c.compileDocument d = .error e) : d.HasPlace e.path := by
  cases hn : parse c.limits d with
  | error e' =>
      rw [compileDocument_of_parse_error hn] at h
      obtain rfl := Except.error.inj h
      have hmem := List.mem_of_mem_head? (blames_of_parse_error hn).first
      exact hasPlace_of_mem_violations c.limits d d 0 .root d.at?_root _ hmem
  | ok n =>
      rw [(compileDocument_of_parse_ok hn).2] at h
      obtain ⟨m, hm, o, -, rfl⟩ := exists_objection_of_build_error h
      have hrep := (conforms_of_parse_ok hn).2
      exact (located_of_represents d.at?_root hrep m hm).hasPlace

/-- **LOCATIONS ARE TRUE**: the path of every node of a parsed tree leads to what the node was
    made from, different nodes have different paths, and a child stands behind its combinator
    at its index; and the path of every error of compiling a document leads to a place in it,
    whether it parses or not. -/
theorem locations_are_true (limits : Limits) (d : Document) :
    (∀ n, parse limits d = .ok n →
        (∀ m ∈ n.preorder, Located d m)
          ∧ (n.preorder.map Node.path).Nodup
          ∧ ∀ k ns path, .combinator k ns path ∈ n.preorder →
              ∀ (i : Nat) (child : Node), ns[i]? = some child →
                ∃ steps, child.path = ⟨path.steps ++ .index i :: steps⟩)
      ∧ ∀ resolver entity e, Compiler.compileDocument ⟨resolver, entity, limits⟩ d = .error e →
          d.HasPlace e.path := by
  refine ⟨?_, fun resolver entity e => hasPlace_of_compileDocument_error⟩
  intro n hn
  have hrep := (conforms_of_parse_ok hn).2
  have hlocated := located_of_represents d.at?_root hrep
  refine ⟨hlocated, nodup_paths hrep, ?_⟩
  intro k ns path hm i child hchild
  cases hlocated _ hm with
  | combinator _ _ hns =>
      obtain ⟨x, -, hx⟩ := hns i child hchild
      obtain ⟨step, steps, hpath⟩ := path_of_represents hx child (mem_preorder_self child)
      exact ⟨step :: steps, hpath.trans (steps_step_append _ _ _)⟩

/-- A tree of two levels at its places, and the place of a literal that no resolver takes for
    an integer. -/
theorem locations_are_true_two_levels :
    let person : Entity := ⟨"Person", [⟨"age", .int32⟩, ⟨"name", .text⟩]⟩
    let set : Document := .array [.number "1", .string "x"]
    let d : Document := .object [("AND", .array [
      .object [("OR", .array [.object [("name", .object [("neq", .null)])]])],
      .object [("age", .object [("nin", set)])]])]
    let path := Path.root.key "AND"
    let or := (path.index 0).key "OR"
    let inner : Node := .leaf "name" (.compare .ne) .null (((or.index 0).key "name").key "neq")
    let last : Node := .leaf "age" (.member true) (.set [.number "1", .text "x"])
      (((path.index 1).key "age").key "nin")
    let n : Node := .combinator .and [.combinator .or [inner] or, last] path
    let e : Error := ⟨.invalidValue "age" ⟨"x", .int32, .integer .invalidDigit⟩, last.path⟩
    (parse .usual d = .ok n ∧ Located d inner ∧ Located d last
        ∧ [path, or, inner.path, last.path].Nodup
        ∧ ∃ steps, last.path = ⟨path.steps ++ .index 1 :: steps⟩)
      ∧ Compiler.compileDocument ⟨person.resolver, "Person", .usual⟩ d = .error e
      ∧ d.HasPlace e.path ∧ d.at? e.path = some set := by
  intro person set d path or inner last n e
  have hn : parse .usual d = .ok n := rfl
  have he : Compiler.compileDocument ⟨person.resolver, "Person", .usual⟩ d = .error e := rfl
  obtain ⟨hnodes, herrors⟩ := locations_are_true .usual d
  obtain ⟨hlocated, hnodup, hchildren⟩ := hnodes n hn
  have hpreorder : n.preorder = [n, .combinator .or [inner] or, inner, last] := rfl
  refine ⟨⟨hn, hlocated inner ?_, hlocated last ?_, hnodup,
    hchildren .and _ path (mem_preorder_self n) 1 last rfl⟩, he, herrors _ _ e he, rfl⟩
  · rw [hpreorder]
    exact .tail _ (.tail _ (.head _))
  · rw [hpreorder]
    exact .tail _ (.tail _ (.tail _ (.head _)))

end Filter

end RecordFilter
