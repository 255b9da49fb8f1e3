import RecordFilter.Catalog.Form
import RecordFilter.Proofs.Containers
import RecordFilter.Proofs.SchemaGrowth

/-! # What bundles hold

    A bundle is made of entries that are put in one by one, each under a key, and the last one
    of a key stays (`entity?_ofEntries`).  An entity that is added goes under its own name.

    A bundle is valid if every entity stands under its name and none has two fields of one name
    (`validate_eq_ok_iff`).  Then a field that is found is the only one of its name. -/

namespace RecordFilter

open Json

namespace Bundle

/-! ## What a bundle holds -/

/-- The bundle of entities that are put in one by one, each under a key. -/
def ofEntries (entries : List (String × Entity)) : Bundle :=
  ⟨entries.foldl (fun entities entry => entities.insert entry.1 entry.2) ∅⟩

/-- **THE LAST ENTITY STAYS** under each key. -/
theorem entity?_ofEntries (entries : List (String × Entity)) (name : String) :
    (ofEntries entries).entity? name = entries.reverse.lookup name := by
  have hput : ∀ (m : Std.TreeMap String Entity) key e name,
      (m.insert key e)[name]? = if key = name then some e else m[name]? := by
    intro m key e name
    simp only [Std.TreeMap.getElem?_insert, Std.compare_eq_iff_eq]
  rw [entity?, ofEntries, Row.find_foldl Std.TreeMap.insert (·[·]?) hput,
    Std.TreeMap.getElem?_emptyc, Option.or_none]

/-- A bundle of entities is the bundle of their entries under their own names. -/
theorem ofList_eq_ofEntries (es : List Entity) :
    ofList es = ofEntries (es.map fun e => (e.name, e)) := by
  have hfold : ∀ m : Std.TreeMap String Entity, es.foldl add ⟨m⟩
      = ⟨(es.map fun e => (e.name, e)).foldl
          (fun entities entry => entities.insert entry.1 entry.2) m⟩ := by
    induction es with
    | nil =>
        intro m
        rfl
    | cons e es ih =>
        intro m
        exact ih (m.insert e.name e)
  exact hfold ∅

/-- The entry under a name is the first entity of this name. -/
theorem lookup_map_name (es : List Entity) (name : String) :
    (es.map fun e => (e.name, e)).lookup name = es.find? fun e => e.name == name := by
  induction es with
  | nil => rfl
  | cons e es ih => rw [List.map_cons, List.lookup_cons, List.find?_cons, ih, BEq.comm]

/-- The last entity of a name is the one that stays. -/
theorem entity?_ofList (es : List Entity) (name : String) :
    (ofList es).entity? name = es.reverse.find? fun e => e.name == name := by
  rw [ofList_eq_ofEntries, entity?_ofEntries, ← List.map_reverse, lookup_map_name]

/-- Every entity stands under its own name. -/
def KeysMatch (b : Bundle) : Prop := ∀ key e, b.entity? key = some e → e.name = key

/-- Built from entities, a bundle has each under its own name. -/
theorem keysMatch_ofList (es : List Entity) : (ofList es).KeysMatch := by
  intro key e h
  rw [entity?_ofList] at h
  have hname := List.find?_some h
  exact eq_of_beq hname

/-- The entries of a bundle are what its keys lead to. -/
theorem mem_toList {b : Bundle} {key : String} {e : Entity} :
    (key, e) ∈ b.toList ↔ b.entity? key = some e := Std.TreeMap.mem_toList_iff_getElem?_eq_some

theorem nodup_keys (b : Bundle) : (b.toList.map Prod.fst).Nodup := by
  have hdistinct := Std.TreeMap.distinct_keys_toList (t := b.entities)
  refine List.pairwise_map.mpr (hdistinct.imp ?_)
  intro x y hne heq
  exact hne (Std.compare_eq_iff_eq.mpr heq)

/-- Bundles that answer alike have the same entries in the same order. -/
theorem toList_eq_of_entity?_eq {a b : Bundle} (h : ∀ name, a.entity? name = b.entity? name) :
    a.toList = b.toList :=
  (Std.TreeMap.Equiv.of_forall_constGet?_eq h).toList_eq

/-- Bundles with the same entities resolve alike. -/
theorem resolver_eq_of_entity?_eq {a b : Bundle} (h : ∀ name, a.entity? name = b.entity? name) :
    a.resolver = b.resolver := by
  funext entity field
  rw [resolver, resolver, h]

/-- The order in which the entries of a bundle are put in does not count. -/
theorem entity?_ofEntries_of_perm {b : Bundle} {entries : List (String × Entity)}
    (h : entries.Perm b.toList) (name : String) :
    (ofEntries entries).entity? name = b.entity? name := by
  have hnodup : (entries.map Prod.fst).Nodup := (h.map Prod.fst).nodup_iff.mpr b.nodup_keys
  refine Option.ext ?_
  intro e
  rw [entity?_ofEntries, Row.lookup_eq_some_iff_mem (by rwa [List.map_reverse, List.nodup_reverse]),
    List.mem_reverse, h.mem_iff, mem_toList]

/-! ## Validity -/

/-- No entity has two fields of one name. -/
def DistinctFields (b : Bundle) : Prop :=
  ∀ key e, b.entity? key = some e → e.fieldNames.Nodup

theorem keysMatch_iff_of_entity?_eq {a b : Bundle} (h : ∀ name, a.entity? name = b.entity? name) :
    a.KeysMatch ↔ b.KeysMatch := by
  simp only [KeysMatch, h]

theorem distinctFields_iff_of_entity?_eq {a b : Bundle}
    (h : ∀ name, a.entity? name = b.entity? name) : a.DistinctFields ↔ b.DistinctFields := by
  simp only [DistinctFields, h]

theorem forM_cons_eq_bind {ε α : Type} (check : α → Except ε Unit) (a : α) (as : List α) :
    (a :: as).forM check = (check a).bind fun _ => as.forM check := rfl

/-- One check after the other succeeds if each of them does. -/
theorem forM_eq_ok_iff {ε α : Type} {check : α → Except ε Unit} {as : List α} :
    as.forM check = .ok () ↔ ∀ a ∈ as, check a = .ok () := by
  induction as with
  | nil => exact iff_of_true rfl (List.forall_mem_nil _)
  | cons a as ih =>
      rw [forM_cons_eq_bind, List.forall_mem_cons, ← ih]
      constructor
      · intro h
        obtain ⟨⟨⟩, ha, has⟩ := bind_eq_ok h
        exact ⟨ha, has⟩
      · rintro ⟨ha, has⟩
        rw [ha]
        exact has

/-- What goes wrong in a row of checks goes wrong in one of them. -/
theorem exists_of_forM_eq_error {ε α : Type} {check : α → Except ε Unit} {as : List α} {e : ε}
    (h : as.forM check = .error e) : ∃ a ∈ as, check a = .error e := by
  induction as with
  | nil => exact nomatch h
  | cons a as ih =>
      rw [forM_cons_eq_bind] at h
      cases ha : check a with
      | error e' =>
          rw [ha] at h
          exact ⟨a, List.mem_cons_self .., ha.trans h⟩
      | ok _ =>
          rw [ha] at h
          obtain ⟨x, hx, hxe⟩ := ih h
          exact ⟨x, List.mem_cons_of_mem _ hx, hxe⟩

/-- The check finds no wrong key if and only if every key is a name. -/
theorem find_wrongKey_eq_none_iff {b : Bundle} :
    (b.toList.find? fun entry => entry.1 != entry.2.name) = none ↔ b.KeysMatch := by
  rw [List.find?_eq_none]
  constructor
  · intro h key e he
    have hkey := h (key, e) (mem_toList.mpr he)
    simp only [bne_iff_ne, ne_eq, not_not] at hkey
    exact hkey.symm
  · rintro h ⟨key, e⟩ hmem
    simp only [bne_iff_ne, ne_eq, not_not]
    exact (h key e (mem_toList.mp hmem)).symm

/-- **WHICH BUNDLES ARE VALID**: those that hold every entity under its own name, and no entity
    with two fields of one name. -/
theorem validate_eq_ok_iff {b : Bundle} :
    b.validate = .ok () ↔ b.KeysMatch ∧ b.DistinctFields := by
  rw [validate, ← find_wrongKey_eq_none_iff]
  cases b.toList.find? fun entry => entry.1 != entry.2.name with
  | some entry => exact iff_of_false nofun nofun
  | none =>
      rw [and_iff_right rfl, forM_eq_ok_iff]
      constructor
      · intro h key e he
        exact Entity.validate_eq_ok_iff.mp (h (key, e) (mem_toList.mpr he))
      · rintro h ⟨key, e⟩ hmem
        exact Entity.validate_eq_ok_iff.mpr (h key e (mem_toList.mp hmem))

/-- The only fault of entities under their own names is a field that comes again. -/
theorem exists_repeatedField {b : Bundle} (hkeys : b.KeysMatch) {fault : SchemaFault}
    (h : b.validate = .error fault) :
    ∃ field entity, fault = .repeatedField field entity := by
  rw [validate, find_wrongKey_eq_none_iff.mpr hkeys] at h
  obtain ⟨⟨key, e⟩, -, he⟩ := exists_of_forM_eq_error h
  dsimp only [Entity.validate] at he
  cases hrepeated : Entity.firstRepeated? [] e.fieldNames with
  | none =>
      rw [hrepeated] at he
      exact nomatch he
  | some field =>
      rw [hrepeated] at he
      exact ⟨field, e.name, (Except.error.inj he).symm⟩

/-! ## Accepted texts -/

/-- A text is accepted if it is read as a valid bundle. -/
theorem ofText_eq {text : String} {b : Bundle}
    (h : (readText text).decode (fun r => form .usual r) = .ok b) :
    ofText text = (b.validate.mapError SchemaError.invalid).map fun _ => b := by
  rw [ofText, h]
  dsimp only
  cases b.validate <;> rfl

/-- A text is accepted if it is read as a bundle and this bundle is valid. -/
theorem ofText_eq_ok_iff {text : String} {b : Bundle} :
    ofText text = .ok b ↔ (readText text).decode (fun r => form .usual r) = .ok b
      ∧ b.validate = .ok () := by
  constructor
  · intro h
    -- what is no bundle is refused before anything is checked
    cases hread : (readText text).decode fun r => form .usual r with
    | error reason =>
        rw [ofText, hread] at h
        exact nomatch h
    | ok b' =>
        rw [ofText_eq hread] at h
        cases hvalid : b'.validate with
        | error fault =>
            rw [hvalid] at h
            exact nomatch h
        | ok _ =>
            rw [hvalid] at h
            obtain rfl : b' = b := Except.ok.inj h
            exact ⟨rfl, hvalid⟩
  · rintro ⟨hread, hvalid⟩
    rw [ofText_eq hread, hvalid]
    rfl

end Bundle

/-- Where names are distinct, a field that is found is the only one of its name. -/
theorem Entity.fieldType?_eq_some_iff_filter {e : Entity} (h : e.fieldNames.Nodup)
    {field : String} {t : FieldType} :
    e.fieldType? field = some t ↔ e.fields.filter (fun f => f.name == field) = [⟨field, t⟩] := by
  have hnames : ((e.fields.filter fun f => f.name == field).map Field.name).Nodup :=
    (List.filter_sublist.map Field.name).nodup h
  have hmem : ∀ f, f ∈ e.fields.filter (fun f => f.name == field)
      ↔ f ∈ e.fields ∧ f.name = field := by
    intro f
    rw [List.mem_filter, beq_iff_eq]
  rw [e.fieldType?_eq_some_iff h]
  generalize e.fields.filter (fun f => f.name == field) = found at hnames hmem
  constructor
  · intro hfield
    have hfound := (hmem ⟨field, t⟩).mpr ⟨hfield, rfl⟩
    match found with
    | [] => exact nomatch hfound
    | [f] => rw [List.mem_singleton.mp hfound]
    | f :: g :: rest =>
        -- two fields that are found have one name
        have hf := ((hmem f).mp (List.mem_cons_self ..)).2
        have hg := ((hmem g).mp (List.mem_cons_of_mem _ (List.mem_cons_self ..))).2
        simp [hf, hg] at hnames
  · rintro rfl
    exact ((hmem ⟨field, t⟩).mp (List.mem_singleton_self _)).1

end RecordFilter
