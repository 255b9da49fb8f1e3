import Mathlib.Data.List.Nodup
import RecordFilter.Proofs.Building

/-! # Schemas that grow

    Building a tree asks the resolver for the fields that its leaves mention and for no others
    (`build_eq_of_mentions`), and a tree that builds has got a type for each of them.  So a
    resolver that still knows what another one knows builds all that the other one builds
    (`Resolver.Extends.keeps`), whatever else it knows.

    Schemas grow in this way when entities with new names are added, and when fields are
    appended to an entity, since the first field of a name counts.  The order of the fields
    counts for nothing where their names are distinct. -/

namespace RecordFilter

open RecordFilter.Filter

/-! ## The fields that a tree mentions -/

namespace Filter

/-- A leaf of the tree is about the field. -/
def Node.Mentions (n : Node) (field : String) : Prop :=
  ∃ op operand path, Node.leaf field op operand path ∈ n.leaves

theorem leavesOfAll_eq_flatMap (ns : List Node) :
    Node.leavesOfAll ns = ns.flatMap Node.leaves := by
  induction ns with
  | nil => rfl
  | cons n ns ih => rw [Node.leavesOfAll, ih, List.flatMap_cons]

/-- A combinator mentions the fields that its children do. -/
theorem mentions_combinator_iff {k : Combinator} {ns : List Node} {path : Path}
    {field : String} :
    (Node.combinator k ns path).Mentions field ↔ ∃ n ∈ ns, n.Mentions field := by
  rw [Node.Mentions, Node.leaves, leavesOfAll_eq_flatMap]
  simp only [List.mem_flatMap]
  constructor
  · rintro ⟨op, operand, path, n, hn, hleaf⟩
    exact ⟨n, hn, op, operand, path, hleaf⟩
  · rintro ⟨n, hn, op, operand, path, hleaf⟩
    exact ⟨op, operand, path, n, hn, hleaf⟩

theorem mentions_leaf_iff {field field' : String} {op : Operator} {operand : Operand}
    {path : Path} : (Node.leaf field op operand path).Mentions field' ↔ field' = field := by
  constructor
  · rintro ⟨op', operand', path', hleaf⟩
    exact (Node.leaf.inj (List.mem_singleton.mp hleaf)).1
  · rintro rfl
    exact ⟨op, operand, path, List.mem_singleton.mpr rfl⟩

variable {a b : Resolver} {entity : String}

/-- Trees that are built alike under two resolvers are so as a list. -/
theorem buildAll_congr {ns : List Node}
    (h : ∀ n ∈ ns, build a entity n = build b entity n) :
    buildAll a entity ns = buildAll b entity ns := by
  induction ns with
  | nil => rfl
  | cons n ns ih =>
      rw [buildAll_cons, buildAll_cons, h n (List.mem_cons_self ..),
        ih fun m hm => h m (List.mem_cons_of_mem _ hm)]

/-- **ONLY MENTIONED FIELDS COUNT**: resolvers that agree on them build alike. -/
theorem build_eq_of_mentions (n : Node)
    (h : ∀ field, n.Mentions field → a entity field = b entity field) :
    build a entity n = build b entity n := by
  induction n with
  | leaf field op operand path =>
      rw [build, build, leafCondition, leafCondition, h field (mentions_leaf_iff.mpr rfl)]
  | combinator k ns path ih =>
      have hns : buildAll a entity ns = buildAll b entity ns := by
        refine buildAll_congr fun n hn => ih n hn fun field hfield => ?_
        exact h field (mentions_combinator_iff.mpr ⟨n, hn, hfield⟩)
      rw [build, build, hns]

/-- A tree that builds mentions no field without a type. -/
theorem exists_type_of_build_ok {n : Node} {p : Predicate} (h : build a entity n = .ok p) :
    ∀ field, n.Mentions field → ∃ t, a entity field = .ok t := by
  induction n generalizing p with
  | leaf field op operand path =>
      intro field' hfield
      obtain rfl := mentions_leaf_iff.mp hfield
      rw [build] at h
      obtain ⟨t, ht, -, -⟩ := expresses_of_leafCondition_ok h
      exact ⟨t, ht⟩
  | combinator k ns path ih =>
      intro field hfield
      obtain ⟨n, hn, hmentions⟩ := mentions_combinator_iff.mp hfield
      obtain ⟨ps, hps, -⟩ := exists_of_build_combinator_ok h
      obtain ⟨q, -, hq⟩ := exists_of_forall₂_of_mem_right hps.flip hn
      exact ih n hn hq field hmentions

end Filter

/-! ## Resolvers that know more -/

namespace Resolver

/-- Whatever field the one resolver knows, the other one knows at the same type. -/
def Extends (a b : Resolver) : Prop :=
  ∀ entity field t, a entity field = .ok t → b entity field = .ok t

/-- Whatever compiles with the one resolver, compiles to the same predicate with the other:
    trees of any depth, trees within a limit, documents and texts. -/
structure Keeps (a b : Resolver) : Prop where
  tree : ∀ entity n p, build a entity n = .ok p → build b entity n = .ok p
  node : ∀ entity limits n p, Compiler.compileNode ⟨a, entity, limits⟩ n = .ok p →
    Compiler.compileNode ⟨b, entity, limits⟩ n = .ok p
  document : ∀ entity limits d p, Compiler.compileDocument ⟨a, entity, limits⟩ d = .ok p →
    Compiler.compileDocument ⟨b, entity, limits⟩ d = .ok p
  text : ∀ entity limits s p, Compiler.compileText ⟨a, entity, limits⟩ s = .ok p →
    Compiler.compileText ⟨b, entity, limits⟩ s = .ok p

/-- The filters of an entity have the same results with both resolvers, predicates and
    errors. -/
structure SameResults (a b : Resolver) (entity : String) : Prop where
  tree : ∀ n, build a entity n = build b entity n
  node : ∀ limits n, Compiler.compileNode ⟨a, entity, limits⟩ n
    = Compiler.compileNode ⟨b, entity, limits⟩ n
  document : ∀ limits d, Compiler.compileDocument ⟨a, entity, limits⟩ d
    = Compiler.compileDocument ⟨b, entity, limits⟩ d
  text : ∀ limits s, Compiler.compileText ⟨a, entity, limits⟩ s
    = Compiler.compileText ⟨b, entity, limits⟩ s

variable {a b : Resolver}

/-- **KNOWING MORE BREAKS NOTHING**. -/
theorem Extends.keeps (h : a.Extends b) : a.Keeps b := by
  have htree : ∀ entity n p, build a entity n = .ok p → build b entity n = .ok p := by
    intro entity n p hp
    -- what is built names known fields only, and those keep their types
    have hsame : ∀ field, n.Mentions field → b entity field = a entity field := by
      intro field hfield
      obtain ⟨t, ht⟩ := exists_type_of_build_ok hp field hfield
      rw [ht, h entity field t ht]
    rw [build_eq_of_mentions n hsame]
    exact hp
  have hnode : ∀ entity limits n p, Compiler.compileNode ⟨a, entity, limits⟩ n = .ok p →
      Compiler.compileNode ⟨b, entity, limits⟩ n = .ok p := by
    intro entity limits n p hp
    rw [Compiler.compileNode] at hp ⊢
    split_ifs at hp ⊢ with hdeep
    · cases hp
    · exact htree entity n p hp
  refine ⟨htree, hnode, ?_, ?_⟩
  · intro entity limits d p
    exact bind_ok_of_forall fun n => hnode entity limits n p
  · intro entity limits s p
    exact bind_ok_of_forall fun n => hnode entity limits n p

/-- Resolvers that agree on an entity have the same results for its filters. -/
theorem sameResults_of_forall {entity : String}
    (h : ∀ field, a entity field = b entity field) : a.SameResults b entity := by
  have htree : ∀ n, build a entity n = build b entity n :=
    fun n => build_eq_of_mentions n fun field _ => h field
  have hnode : ∀ limits, Compiler.compileNode ⟨a, entity, limits⟩
      = Compiler.compileNode ⟨b, entity, limits⟩ := by
    intro limits
    funext n
    rw [Compiler.compileNode, Compiler.compileNode, htree]
  refine ⟨htree, fun limits => congrFun (hnode limits), ?_, ?_⟩
  · intro limits d
    rw [Compiler.compileDocument, Compiler.compileDocument, hnode]
  · intro limits s
    rw [Compiler.compileText, Compiler.compileText, hnode]

end Resolver

/-! ## Entities -/

namespace Entity

/-- An entity resolves its own fields, under its own name. -/
theorem resolver_eq_ok_iff {e : Entity} {entity field : String} {t : FieldType} :
    e.resolver entity field = .ok t ↔ entity = e.name ∧ e.fieldType? field = some t := by
  rw [resolver]
  by_cases hname : entity = e.name
  · rw [if_pos hname]
    cases e.fieldType? field with
    | none => exact iff_of_false (by rintro ⟨⟩) (by rintro ⟨-, ⟨⟩⟩)
    | some t' =>
        rw [Except.ok.injEq, Option.some.injEq]
        exact (and_iff_right hname).symm
  · rw [if_neg hname]
    exact iff_of_false (by rintro ⟨⟩) fun h => hname h.1

/-- A field that is declared hides those of its name that are declared behind it. -/
theorem fieldType?_addFields {e : Entity} {name : String} {t : FieldType} (fields : List Field)
    (h : e.fieldType? name = some t) : (e.addFields fields).fieldType? name = some t := by
  rw [fieldType?, getField?, Option.map_eq_some_iff] at h ⊢
  obtain ⟨f, hf, ht⟩ := h
  refine ⟨f, ?_, ht⟩
  rw [addFields, List.find?_append, hf]
  rfl

theorem addFields_nil (e : Entity) : e.addFields [] = e := by
  rw [addFields, List.append_nil]

/-- Fields that are added at the end leave the resolver of the others alone. -/
theorem extends_addFields (e : Entity) (fields : List Field) :
    e.resolver.Extends (e.addFields fields).resolver := by
  intro entity field t ht
  obtain ⟨hname, htype⟩ := resolver_eq_ok_iff.mp ht
  exact resolver_eq_ok_iff.mpr ⟨hname, fieldType?_addFields fields htype⟩

/-- No name is found repeated if and only if all are distinct. -/
theorem firstRepeated?_eq_none_iff (seen names : List String) :
    firstRepeated? seen names = none ↔ names.Nodup ∧ ∀ name ∈ names, name ∉ seen := by
  induction names generalizing seen with
  | nil => exact iff_of_true rfl ⟨List.nodup_nil, fun _ h => absurd h List.not_mem_nil⟩
  | cons name names ih =>
      rw [firstRepeated?]
      by_cases hseen : name ∈ seen
      · rw [if_pos hseen]
        refine iff_of_false (by rintro ⟨⟩) ?_
        rintro ⟨-, hnew⟩
        exact hnew name (List.mem_cons_self ..) hseen
      · rw [if_neg hseen, ih, List.nodup_cons]
        constructor
        · rintro ⟨hnodup, hnew⟩
          refine ⟨⟨fun hmem => hnew name hmem (List.mem_cons_self ..), hnodup⟩, ?_⟩
          rintro x hx
          rcases List.mem_cons.mp hx with rfl | hx
          · exact hseen
          · exact fun h => hnew x hx (List.mem_cons_of_mem _ h)
        · rintro ⟨⟨hname, hnodup⟩, hnew⟩
          refine ⟨hnodup, fun x hx hmem => ?_⟩
          rcases List.mem_cons.mp hmem with rfl | hmem
          · exact hname hx
          · exact hnew x (List.mem_cons_of_mem _ hx) hmem

/-- The entities that are valid are those without two fields of one name. -/
theorem validate_eq_ok_iff {e : Entity} : e.validate = .ok () ↔ e.fieldNames.Nodup := by
  have hnone := firstRepeated?_eq_none_iff [] e.fieldNames
  rw [validate]
  cases h : firstRepeated? [] e.fieldNames with
  | none => exact iff_of_true rfl (hnone.mp h).1
  | some field =>
      refine iff_of_false (by rintro ⟨⟩) fun hnodup => ?_
      rw [hnone.mpr ⟨hnodup, fun _ _ => List.not_mem_nil⟩] at h
      cases h

/-- What is found under a name is a field of this name. -/
theorem of_getField?_eq_some {e : Entity} {name : String} {f : Field}
    (h : e.getField? name = some f) : f ∈ e.fields ∧ f.name = name := by
  have hname := List.find?_some h
  exact ⟨List.mem_of_find?_eq_some h, eq_of_beq hname⟩

/-- Where names are distinct, a field has the type that it is declared with. -/
theorem fieldType?_eq_some_iff {e : Entity} (h : e.fieldNames.Nodup) {name : String}
    {t : FieldType} : e.fieldType? name = some t ↔ ⟨name, t⟩ ∈ e.fields := by
  rw [fieldType?, Option.map_eq_some_iff]
  constructor
  · rintro ⟨f, hf, rfl⟩
    obtain ⟨hmem, rfl⟩ := of_getField?_eq_some hf
    exact hmem
  · intro hmem
    obtain ⟨f, hf⟩ : ∃ f, e.getField? name = some f :=
      Option.isSome_iff_exists.mp (List.find?_isSome.mpr ⟨_, hmem, beq_self_eq_true _⟩)
    obtain ⟨hmem', hname⟩ := of_getField?_eq_some hf
    obtain rfl := List.inj_on_of_nodup_map h hmem' hmem hname
    exact ⟨_, hf, rfl⟩

/-- **THE ORDER OF FIELDS COUNTS FOR NOTHING** in a valid entity. -/
theorem resolver_of_perm {e f : Entity} (h : e.validate = .ok ()) (hname : f.name = e.name)
    (hperm : f.fields.Perm e.fields) : f.resolver = e.resolver := by
  have he := validate_eq_ok_iff.mp h
  have hf : f.fieldNames.Nodup := (hperm.map Field.name).nodup_iff.mpr he
  have htype : ∀ field, f.fieldType? field = e.fieldType? field := by
    intro field
    refine Option.ext fun t => ?_
    rw [fieldType?_eq_some_iff hf, fieldType?_eq_some_iff he]
    exact hperm.mem_iff
  funext entity field
  rw [resolver, resolver, hname, htype]

end Entity

/-! ## Bundles -/

namespace Bundle

/-- The bundle with an entity in place of the one under a name. -/
def replace (b : Bundle) (name : String) (e : Entity) : Bundle := ⟨b.entities.insert name e⟩

/-- Every entity of the one bundle is in the other under its name, with more fields at its
    end if need be. -/
def Extends (a b : Bundle) : Prop :=
  ∀ name e, a.entity? name = some e → ∃ fields, b.entity? name = some (e.addFields fields)

theorem add_eq_replace (b : Bundle) (e : Entity) : b.add e = b.replace e.name e := rfl

/-- Replacing an entity changes what its key leads to, and nothing else. -/
theorem entity?_replace (b : Bundle) (name name' : String) (e : Entity) :
    (b.replace name e).entity? name' = if name = name' then some e else b.entity? name' := by
  rw [entity?, entity?, replace, Std.TreeMap.getElem?_insert]
  by_cases h : name = name'
  · rw [if_pos h, if_pos (Std.compare_eq_iff_eq.mpr h)]
  · rw [if_neg h, if_neg (mt Std.compare_eq_iff_eq.mp h)]

/-- Adding entities of other names leaves an entity as it is. -/
theorem entity?_foldl_add {name : String} {es : List Entity} (b : Bundle)
    (h : ∀ e ∈ es, e.name ≠ name) : (es.foldl add b).entity? name = b.entity? name := by
  induction es generalizing b with
  | nil => rfl
  | cons e es ih =>
      rw [List.foldl_cons, ih (b.add e) fun x hx => h x (List.mem_cons_of_mem _ hx),
        add_eq_replace, entity?_replace, if_neg (h e (List.mem_cons_self ..))]

/-- A bundle is extended by entities of names that it does not have. -/
theorem extends_foldl_add {b : Bundle} {es : List Entity}
    (h : ∀ e ∈ es, b.entity? e.name = none) : b.Extends (es.foldl add b) := by
  intro name e he
  refine ⟨[], ?_⟩
  rw [entity?_foldl_add b, he, e.addFields_nil]
  rintro x hx rfl
  rw [h x hx] at he
  cases he

theorem extends_replace {b : Bundle} {key : String} {e : Entity} (fields : List Field)
    (h : b.entity? key = some e) : b.Extends (b.replace key (e.addFields fields)) := by
  intro name x hx
  rw [entity?_replace]
  by_cases hname : key = name
  · subst hname
    obtain rfl := Option.some.inj (h.symm.trans hx)
    exact ⟨fields, if_pos rfl⟩
  · exact ⟨[], by rw [if_neg hname, hx, x.addFields_nil]⟩

/-- A bundle resolves the fields of an entity as the entity does. -/
theorem resolver_eq_of_entity? {b : Bundle} {entity : String} {e : Entity}
    (h : b.entity? entity = some e) (field : String) :
    b.resolver entity field = e.resolver entity field := by
  rw [resolver, h]

/-- A bundle that extends another one knows its fields. -/
theorem Extends.resolver {a b : Bundle} (h : a.Extends b) : a.resolver.Extends b.resolver := by
  intro entity field t ht
  cases he : a.entity? entity with
  | none =>
      rw [Bundle.resolver, he] at ht
      cases ht
  | some e =>
      obtain ⟨fields, he'⟩ := h entity e he
      rw [resolver_eq_of_entity? he] at ht
      rw [resolver_eq_of_entity? he']
      exact e.extends_addFields fields entity field t ht

theorem resolver_replace_of_perm {b : Bundle} {key : String} {e f : Entity}
    (hkey : b.entity? key = some e) (h : f.resolver = e.resolver) :
    (b.replace key f).resolver = b.resolver := by
  funext entity field
  by_cases hname : key = entity
  · subst hname
    rw [resolver_eq_of_entity? hkey, ← h]
    exact resolver_eq_of_entity? ((b.entity?_replace key key f).trans (if_pos rfl)) field
  · rw [Bundle.resolver, Bundle.resolver, entity?_replace, if_neg hname]

end Bundle

/-- **GROWING A SCHEMA IS CONSERVATIVE**: building depends on the resolver only through the
    fields that the tree mentions.  So entities of other names change no result of an entity,
    and new entities, or fields appended to an entity of any schema, no result that is a
    predicate; and the fields of a valid entity may be permuted without any change. -/
theorem growth_is_conservative :
    (∀ (a b : Resolver) (entity : String) (n : Node),
        (∀ field, n.Mentions field → a entity field = b entity field) →
          build a entity n = build b entity n)
      ∧ (∀ (b : Bundle) (es : List Entity) (entity : String), (∀ e ∈ es, e.name ≠ entity) →
          b.resolver.SameResults (es.foldl Bundle.add b).resolver entity)
      ∧ (∀ (b : Bundle) (es : List Entity), (∀ e ∈ es, b.entity? e.name = none) →
          b.resolver.Keeps (es.foldl Bundle.add b).resolver)
      ∧ (∀ (e : Entity) (fields : List Field),
          e.resolver.Keeps (e.addFields fields).resolver
            ∧ ∀ (b : Bundle) (key : String), b.entity? key = some e →
                b.resolver.Keeps (b.replace key (e.addFields fields)).resolver)
      ∧ ∀ e f : Entity, e.validate = .ok () → f.name = e.name → f.fields.Perm e.fields →
          ∀ entity, e.resolver.SameResults f.resolver entity
            ∧ ∀ (b : Bundle) (key : String), b.entity? key = some e →
                b.resolver.SameResults (b.replace key f).resolver entity := by
  refine ⟨fun a b entity n => build_eq_of_mentions n, ?_, ?_, ?_, ?_⟩
  · intro b es entity hes
    refine Resolver.sameResults_of_forall fun field => ?_
    rw [Bundle.resolver, Bundle.resolver, Bundle.entity?_foldl_add b hes]
  · intro b es hes
    exact (Bundle.extends_foldl_add hes).resolver.keeps
  · intro e fields
    exact ⟨(e.extends_addFields fields).keeps,
      fun b key hkey => (Bundle.extends_replace fields hkey).resolver.keeps⟩
  · intro e f hvalid hname hperm entity
    have hresolver := Entity.resolver_of_perm hvalid hname hperm
    refine ⟨Resolver.sameResults_of_forall fun field => ?_, fun b key hkey => ?_⟩
    · rw [hresolver]
    · refine Resolver.sameResults_of_forall fun field => ?_
      rw [Bundle.resolver_replace_of_perm hkey hresolver]

/-- A filter of persons does not see robots, nor a second field of a name that it mentions,
    nor in which order the fields stand; an error stays with entities of other names. -/
theorem growth_is_conservative_of_persons :
    let person : Entity := ⟨"Person", [⟨"age", .int32⟩, ⟨"name", .text⟩]⟩
    let turned : Entity := ⟨"Person", [⟨"name", .text⟩, ⟨"age", .int32⟩]⟩
    let robot : Entity := ⟨"Robot", [⟨"age", .text⟩]⟩
    let more : List Field := [⟨"age", .text⟩, ⟨"height", .float⟩]
    let b := Bundle.replace {} "Person" person
    let n : Node := .leaf "age" (.compare .gt) (.scalar (.text "17")) .root
    let p : Predicate := .comparison .gt "age" (.int32 17)
    let d : Json.Document := .object [("height", .object [("eq", .null)])]
    let unknown : Error := ⟨.unknownField (.unknownField "Person" "height"),
      (Path.root.key "height").key "eq"⟩
    ((∀ field, n.Mentions field →
          person.resolver "Person" field = (Entity.mk "Person" [⟨"age", .int32⟩]).resolver
            "Person" field)
        ∧ build (Entity.mk "Person" [⟨"age", .int32⟩]).resolver "Person" n = .ok p)
      ∧ ((∀ e ∈ [robot], e.name ≠ "Person")
        ∧ Compiler.compileDocument ⟨b.resolver, "Person", .usual⟩ d = .error unknown
        ∧ Compiler.compileDocument ⟨([robot].foldl Bundle.add b).resolver, "Person", .usual⟩ d
          = .error unknown)
      ∧ ((∀ e ∈ [robot], b.entity? e.name = none)
        ∧ build ([robot].foldl Bundle.add b).resolver "Person" n = .ok p)
      ∧ (b.entity? "Person" = some person
        ∧ build (b.replace "Person" (person.addFields more)).resolver "Person" n = .ok p)
      ∧ (person.validate = .ok () ∧ turned.fields.Perm person.fields
        ∧ build (b.replace "Person" turned).resolver "Person" n = .ok p) := by
  intro person turned robot more b n p d unknown
  obtain ⟨hmentions, hothers, hnew, happended, hpermuted⟩ := growth_is_conservative
  have hperson : b.entity? "Person" = some person :=
    (Bundle.entity?_replace {} "Person" "Person" person).trans (if_pos rfl)
  have hrobot : ∀ e ∈ [robot], b.entity? e.name = none := by
    intro e he
    rw [List.mem_singleton.mp he, Bundle.entity?_replace, if_neg (by decide)]
    exact Std.TreeMap.getElem?_emptyc
  have hname : ∀ e ∈ [robot], e.name ≠ "Person" := by decide
  have hb : ∀ field, b.resolver "Person" field = person.resolver "Person" field :=
    Bundle.resolver_eq_of_entity? hperson
  have hn : build b.resolver "Person" n = .ok p := by
    rw [build_eq_of_mentions n fun field _ => hb field]
    rfl
  have hd : Compiler.compileDocument ⟨b.resolver, "Person", .usual⟩ d = .error unknown := by
    rw [(Resolver.sameResults_of_forall hb).document]
    rfl
  have hage : ∀ field, n.Mentions field →
      person.resolver "Person" field
        = (Entity.mk "Person" [⟨"age", .int32⟩]).resolver "Person" field := by
    intro field hfield
    obtain rfl := mentions_leaf_iff.mp hfield
    rfl
  have hvalid : person.validate = .ok () := rfl
  have hperm : turned.fields.Perm person.fields := .swap ..
  refine ⟨⟨hage, (hmentions _ _ _ n hage).symm⟩, ⟨hname, hd, ?_⟩, ⟨hrobot, ?_⟩, ⟨hperson, ?_⟩,
    hvalid, hperm, ?_⟩
  · rw [← (hothers b [robot] "Person" hname).document]
    exact hd
  · exact (hnew b [robot] hrobot).tree "Person" n p hn
  · exact ((happended person more).2 b "Person" hperson).tree "Person" n p hn
  · rw [← ((hpermuted person turned hvalid rfl hperm "Person").2 b "Person" hperson).tree n]
    exact hn

end RecordFilter
