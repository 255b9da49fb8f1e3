import Mathlib.Logic.Function.Basic
import Mathlib.Order.RelClasses
import RecordFilter.Proofs.Containers
import RecordFilter.Proofs.EntryPoints
import RecordFilter.Proofs.NormalForm
import RecordFilter.Proofs.SchemaGrowth

/-! # What evaluation reads

    A predicate names the fields in its leaves, and evaluation asks a record for these and for
    no others (`evaluate_eq_of_referenced`): whatever else a record holds, and whatever it is
    held in, counts for nothing.

    The names of a predicate that is built from a filter are those in the leaves of its tree,
    which are those in the leaves of the document (`mentions_iff_of_represents`).  The resolver
    has given a type for each of them. -/

namespace RecordFilter

namespace Predicate

/-! ## The list of names -/

theorem mem_insertName {x name : String} {names : List String} :
    x ∈ insertName name names ↔ x = name ∨ x ∈ names := by
  induction names with
  | nil => exact List.mem_cons
  | cons other rest ih =>
      rw [insertName]
      split_ifs with heq hlt
      · subst heq
        exact ⟨Or.inr, fun h => h.elim (fun hx => hx ▸ List.mem_cons_self ..) id⟩
      · exact List.mem_cons
      · rw [List.mem_cons, ih, List.mem_cons, or_left_comm]

/-- Putting a name in keeps the order. -/
theorem pairwise_insertName {names : List String} (name : String)
    (h : names.Pairwise (· < ·)) : (insertName name names).Pairwise (· < ·) := by
  induction names with
  | nil => exact List.pairwise_singleton ..
  | cons other rest ih =>
      obtain ⟨hother, hrest⟩ := List.pairwise_cons.mp h
      rw [insertName]
      split_ifs with heq hlt
      · exact h
      · refine List.pairwise_cons.mpr ⟨fun x hx => ?_, h⟩
        rcases List.mem_cons.mp hx with rfl | hx
        · exact hlt
        · exact String.lt_trans hlt (hother x hx)
      · refine List.pairwise_cons.mpr ⟨fun x hx => ?_, ih hrest⟩
        rcases mem_insertName.mp hx with rfl | hx
        · exact Std.lt_of_le_of_ne hlt (Ne.symm heq)
        · exact hother x hx

/-- The referenced fields are those of the leaves. -/
theorem mem_referencedFields {p : Predicate} {name : String} :
    name ∈ p.referencedFields ↔ ∃ leaf ∈ p.leaves, leaf.field? = some name := by
  rw [referencedFields, ← List.mem_filterMap]
  generalize p.leaves.filterMap field? = names
  induction names with
  | nil => exact Iff.rfl
  | cons x names ih => rw [List.foldr_cons, mem_insertName, ih, List.mem_cons]

/-- Every referenced field is listed once, in increasing order. -/
theorem pairwise_referencedFields (p : Predicate) : p.referencedFields.Pairwise (· < ·) := by
  rw [referencedFields]
  induction p.leaves.filterMap field? with
  | nil => exact .nil
  | cons x names ih => exact pairwise_insertName x ih

/-- A node refers to the fields of its children. -/
theorem mem_referencedFields_compound {k : Combinator} {ps : List Predicate} {name : String} :
    name ∈ (compound k ps).referencedFields ↔ ∃ p ∈ ps, name ∈ p.referencedFields := by
  simp only [mem_referencedFields]
  rw [leaves]
  constructor
  · rintro ⟨leaf, hleaf, hname⟩
    obtain ⟨p, hp, hmem⟩ := mem_leavesOfAll.mp hleaf
    exact ⟨p, hp, leaf, hmem, hname⟩
  · rintro ⟨p, hp, leaf, hmem, hname⟩
    exact ⟨leaf, mem_leavesOfAll.mpr ⟨p, hp, hmem⟩, hname⟩

/-! ## Evaluation -/

/-- **ONLY REFERENCED FIELDS ARE READ**: records that agree on them get the same answer. -/
theorem evaluate_eq_of_referenced {p : Predicate} {r r' : Record}
    (h : ∀ name ∈ p.referencedFields, r.field? name = r'.field? name) :
    p.evaluate r = p.evaluate r' := by
  -- a leaf refers to its own field
  have hself : ∀ {leaf : Predicate} {field : String}, leaf.leaves = [leaf] →
      leaf.field? = some field → field ∈ leaf.referencedFields := by
    intro leaf field hleaves hfield
    exact mem_referencedFields.mpr ⟨leaf, hleaves ▸ List.mem_singleton_self leaf, hfield⟩
  induction p with
  | comparison c field v => rw [evaluate, evaluate, h field (hself rfl rfl)]
  | membership negated field vs => rw [evaluate, evaluate, h field (hself rfl rfl)]
  | absence negated field => rw [evaluate, evaluate, h field (hself rfl rfl)]
  | compound k ps ih =>
      rw [evaluate_compound, evaluate_compound]
      refine congrArg k.fold (List.map_congr_left fun p hp => ih p hp fun name hname => ?_)
      exact h name (mem_referencedFields_compound.mpr ⟨p, hp, hname⟩)

end Predicate

namespace Filter

open Json

/-! ## The fields of filters -/

/-- A leaf of the filter document is about the field. -/
inductive FiltersOn : Document → String → Prop where
  | leaf {field token : String} {d : Document} :
      field ≠ "AND" → field ≠ "OR" → FiltersOn (.object [(field, .object [(token, d)])]) field
  | inside {key : String} {ds : List Document} {d : Document} {field : String} :
      key = "AND" ∨ key = "OR" → d ∈ ds → FiltersOn d field →
      FiltersOn (.object [(key, .array ds)]) field

theorem forall₂_of_representsAll {path : Path} {i : Nat} {ds : List Document} {ns : List Node}
    (h : RepresentsAll path i ds ns) :
    List.Forall₂ (fun d n => ∃ path, Represents path d n) ds ns := by
  induction ns generalizing i ds with
  | nil =>
      cases h
      exact .nil
  | cons n ns ih =>
      cases h with
      | cons hn hns => exact .cons ⟨_, hn⟩ (ih hns)

/-- A tree mentions the fields of the document that it stands for. -/
theorem mentions_iff_of_represents {n : Node} : ∀ {path : Path} {d : Document},
    Represents path d n → ∀ field, n.Mentions field ↔ FiltersOn d field := by
  induction n with
  | leaf name op operand path =>
      intro _ d hrep field
      rw [mentions_leaf_iff]
      cases hrep with
      | leaf hand hor htoken hoperand =>
          constructor
          · rintro rfl
            exact .leaf hand hor
          · intro hfilters
            cases hfilters
            rfl
  | combinator k ns path ih =>
      intro _ d hrep field
      rw [mentions_combinator_iff]
      cases hrep with
      | combinator hns =>
          -- nodes and items stand side by side, so either side is found from the other
          have hall := forall₂_of_representsAll hns
          constructor
          · rintro ⟨n, hn, hmentions⟩
            obtain ⟨x, hx, path', hrep⟩ := exists_of_forall₂_of_mem_right hall hn
            exact .inside (keyword_eq k) hx ((ih n hn hrep field).mp hmentions)
          · intro hfilters
            cases hfilters with
            | inside _ hx hfilters =>
                obtain ⟨n, hn, path', hrep⟩ := exists_of_forall₂_of_mem_right hall.flip hx
                exact ⟨n, hn, (ih n hn hrep field).mpr hfilters⟩

variable {resolver : Resolver} {entity : String}

/-- What is built refers to the fields that the tree mentions. -/
theorem mem_referencedFields_of_build_ok {n : Node} {p : Predicate}
    (h : build resolver entity n = .ok p) (field : String) :
    field ∈ p.referencedFields ↔ n.Mentions field := by
  have hall : List.Forall₂ (fun m q => ∃ name op operand path,
      m = Node.leaf name op operand path ∧ q.field? = some name) n.leaves p.leaves := by
    refine forall₂_leaves_of_build_ok ?_ h
    intro name op operand path q hq
    obtain ⟨t, -, -, hexp⟩ := expresses_of_leafCondition_ok hq
    exact ⟨name, op, operand, path, rfl, by cases hexp <;> rfl⟩
  rw [Predicate.mem_referencedFields]
  constructor
  · rintro ⟨q, hq, hfield⟩
    obtain ⟨m, hm, name, op, operand, path, rfl, hname⟩ := exists_of_forall₂_of_mem_right hall hq
    obtain rfl := Option.some.inj (hname.symm.trans hfield)
    exact ⟨op, operand, path, hm⟩
  · rintro ⟨op, operand, path, hm⟩
    obtain ⟨q, hq, name, _, _, _, heq, hname⟩ := exists_of_forall₂_of_mem_right hall.flip hm
    obtain rfl := (Node.leaf.inj heq).1
    exact ⟨q, hq, hname⟩

/-- A predicate refers to the fields of the filter document, and to each of them once; the
    resolver knows them all. -/
structure RefersTo (resolver : Resolver) (entity : String) (d : Document) (p : Predicate) :
    Prop where
  once : p.referencedFields.Pairwise (· < ·)
  exactly : ∀ field, field ∈ p.referencedFields ↔ FiltersOn d field
  known : ∀ field ∈ p.referencedFields, ∃ t, resolver entity field = .ok t

theorem refersTo_of_parse_ok {limits : Limits} {d : Document} {n : Node} {p : Predicate}
    (hn : parse limits d = .ok n) (hp : build resolver entity n = .ok p) :
    RefersTo resolver entity d p := by
  have hmentions := mem_referencedFields_of_build_ok hp
  refine ⟨p.pairwise_referencedFields, fun field => ?_, fun field hfield => ?_⟩
  · rw [hmentions, mentions_iff_of_represents (represents_of_parse_ok hn).2]
  · exact exists_type_of_build_ok hp field ((hmentions field).mp hfield)

/-- **ONLY REFERENCED FIELDS COUNT**: records that agree on them get the same answer, so the
    values of others can be exchanged or dropped; rows with distinct names get it in every
    container and any order, and a list of entries as the map of its reverse; and a predicate
    that is compiled from a document, or from a text of one, refers to the fields in its leaves
    and to no others, which are known to the resolver. -/
theorem only_referenced_fields_count :
    (∀ (p : Predicate) (r r' : Record),
        (∀ name ∈ p.referencedFields, r.field? name = r'.field? name) →
          p.evaluate r = p.evaluate r')
      ∧ (∀ (p : Predicate) (r : Record) (name : String) (v? : Option Value),
          name ∉ p.referencedFields →
            p.evaluate ⟨Function.update r.field? name v?⟩ = p.evaluate r)
      ∧ (∀ (p : Predicate) (row row' : Row), (row.map Prod.fst).Nodup → row'.Perm row →
          ∀ c c' : Container, p.evaluate (c'.record row') = p.evaluate (c.record row))
      ∧ (∀ (p : Predicate) (row : Row) (c c' : Container), c.isMap = false → c'.isMap = true →
          p.evaluate (c.record row) = p.evaluate (c'.record row.reverse))
      ∧ (∀ (c : Compiler) (d : Document) (p : Predicate), c.compileDocument d = .ok p →
          RefersTo c.resolver c.entity d p)
      ∧ ∀ (c : Compiler) (text : String) (p : Predicate), c.compileText text = .ok p →
          ∃ d, readDocument .usual text = .ok d ∧ RefersTo c.resolver c.entity d p := by
  refine ⟨fun p r r' => Predicate.evaluate_eq_of_referenced, ?_, ?_, ?_, ?_, ?_⟩
  · intro p r name v? hname
    refine Predicate.evaluate_eq_of_referenced fun x hx => Function.update_of_ne ?_ ..
    rintro rfl
    exact hname hx
  · intro p row row' hnames hperm c c'
    rw [Container.record_eq_of_perm hnames hperm c c']
  · intro p row c c' hc hc'
    rw [Container.record_reverse row hc hc']
  · intro c d p hp
    obtain ⟨n, hn, hbuild⟩ := exists_of_compileDocument_ok hp
    exact refersTo_of_parse_ok hn hbuild
  · intro c text p hp
    obtain ⟨n, hn, hcompile⟩ := bind_eq_ok hp
    obtain ⟨d, hd, hparse⟩ := exists_of_parseText_ok hn
    exact ⟨d, hd, refersTo_of_parse_ok hparse (build_of_compileNode_ok hcompile)⟩

/-- A height is not asked for, so it may go; the row may be turned round and put into a map.
    Of two ages a list has the first one, and the map of its reverse has it as well. -/
theorem only_referenced_fields_count_of_persons :
    let person : Entity := ⟨"Person", [⟨"age", .int32⟩, ⟨"name", .text⟩, ⟨"height", .int32⟩]⟩
    let c : Compiler := ⟨person.resolver, "Person", .usual⟩
    let d : Document := .object [("OR", .array [.object [("name", .object [("eq", .null)])],
      .object [("AND", .array [.object [("age", .object [("ge", .number "18")])],
        .object [("name", .object [("!eq", .string "Eve")])]])]])]
    let p : Predicate := .compound .or [.absence false "name", .compound .and [
      .comparison .ge "age" (.int32 18), .comparison .ne "name" (.text "Eve")]]
    let row : Row := [("age", .int32 20), ("name", .text "Bob"), ("height", .int32 180)]
    let twice : Row := [("age", .int32 20), ("age", .int32 7), ("name", .text "Bob")]
    let text := "\x7b\"name\":\x7b\"eq\":null\x7d\x7d"
    (c.compileDocument d = .ok p ∧ RefersTo c.resolver c.entity d p
        ∧ p.referencedFields = ["age", "name"])
      ∧ (c.compileText text = .ok (.absence false "name")
        ∧ ∃ x, readDocument .usual text = .ok x
          ∧ RefersTo c.resolver c.entity x (.absence false "name"))
      ∧ (p.evaluate (.ofRow row) = true
        ∧ p.evaluate ⟨Function.update (Record.ofRow row).field? "height" none⟩ = true
        ∧ p.evaluate (.ofRow (("height", .int32 0) :: row)) = true)
      ∧ ((row.map Prod.fst).Nodup ∧ row.reverse.Perm row
        ∧ p.evaluate (Container.hashMap.record row.reverse) = true)
      ∧ p.evaluate ((Container.reference .treeMap).record twice.reverse) = true := by
  intro person c d p row twice text
  obtain ⟨hagree, hothers, hperm, hreverse, hdocument, htext⟩ := only_referenced_fields_count
  have hp : c.compileDocument d = .ok p := rfl
  have hread : readDocument .usual text = .ok (.object [("name", .object [("eq", .null)])]) := by
    decide +kernel
  have hs : c.compileText text = .ok (.absence false "name") := by
    rw [Compiler.compileText, parseText_eq_of_readDocument (by decide +kernel) hread]
    rfl
  have hfields : p.referencedFields = ["age", "name"] := by decide
  have hrow : p.evaluate (.ofRow row) = true := rfl
  have hnames : (row.map Prod.fst).Nodup := by decide
  have hreversed : row.reverse.Perm row := row.reverse_perm
  refine ⟨⟨hp, hdocument c d p hp, hfields⟩, ⟨hs, htext c text _ hs⟩, ⟨hrow, ?_, ?_⟩,
    ⟨hnames, hreversed, ?_⟩, ?_⟩
  · rw [hothers p (.ofRow row) "height" none (by rw [hfields]; decide)]
    exact hrow
  · rw [hagree p _ (.ofRow row) (by rw [hfields]; decide)]
    exact hrow
  · rw [hperm p row row.reverse hnames hreversed .list .hashMap]
    exact hrow
  · rw [← hreverse p twice .list (.reference .treeMap) rfl rfl]
    rfl

end Filter

end RecordFilter
