import Mathlib.Data.List.Dedup
import RecordFilter.Proofs.Bundles
import RecordFilter.Proofs.ReadForms
import RecordFilter.Proofs.WrittenForms

/-! # Declared entities

    A schema text declares entities one after the other, each under a key, and nothing keeps it
    from using a key twice.  `Bundle.declared` is the reader of a bundle with a list in place of
    its map, so it has every entry of the text in order, and the bundle is what comes of putting
    these entries in one by one (`form_eq_map_ofEntries`): an entity is lost if a later entry
    has its key, and no check sees it any more. -/

namespace RecordFilter

open Json

namespace Bundle

/-! ## Written bundles -/

/-- The JSON form of entries, in their order. -/
def documentOf (entries : List (String × Entity)) : Document :=
  .object [("entities", .object (entries.map fun entry => (entry.1, entry.2.toDocument)))]

/-- The text is one of the bundle: its entries may stand in any order. -/
def WrittenAs (b : Bundle) (text : String) : Prop :=
  ∃ entries, entries.Perm b.toList ∧ text = (documentOf entries).print

theorem writtenAs_toText (b : Bundle) : b.WrittenAs b.toText := ⟨b.toList, .refl _, rfl⟩

end Bundle

section

variable {room inner : Room}

/-- A type is read from its name. -/
theorem readsAs_fieldType (room : Room) (t : FieldType) :
    ReadsAs FieldType.form room (.string t.name) t :=
  ⟨_, .string t.name, by cases t <;> rfl⟩

/-- A field is read from its object. -/
theorem readsAs_field (henter : room.enter = .ok inner) (f : Field) :
    ReadsAs Field.form room f.toDocument f :=
  readsAs_twoFields (by decide) henter (readsAs_string _ _ f.name) (readsAs_fieldType _ f.type)

/-- Entities read back, with room for the brackets of their fields. -/
theorem readsAs_entity {room : Room} {n : Nat} (hroom : room = .atMost (n + 3)) (e : Entity) :
    ReadsAs Entity.form room e.toDocument e := by
  subst hroom
  have hfields : ReadsAs (sequenceForm Field.form) (.atMost (n + 2))
      (.array (e.fields.map Field.toDocument)) e.fields := by
    refine readsAs_sequence rfl ?_
    induction e.fields with
    | nil => exact .nil
    | cons f fields ih => exact .cons (readsAs_field rfl f) ih
  exact readsAs_twoFields (by decide) rfl (readsAs_string _ _ e.name) hfields

end

namespace Bundle

/-! ## What a text declares -/

/-- Notes one entity more with the key that it is written with. -/
def declaredField (room : Room) (entries : List (String × Entity)) (key : String)
    (r : Reading) : Except Json.Error (List (String × Entity)) :=
  (Entity.form room r).map fun e => entries ++ [(key, e)]

/-- Reads the entities of a bundle as a list. -/
def declaredForm : Form (List (String × Entity))
  | room, .object entries ending => do
      let room ← ofFault room.enter
      let declared ← readFields declaredField room [] entries
      ofFault ending.read
      pure declared
  | _, r => wrongType r "a map"

/-- How a bundle is read, with a list in place of its map. -/
def declaredRecord : RecordForm (Option (List (String × Entity))) (List (String × Entity)) where
  expected := "struct SchemaBundle"
  start := none
  field room state key r :=
    if key = "entities" then readOnce key declaredForm room state r
    else (passOver r).map fun _ => state
  finish state := .ok (state.getD [])
  items room items ending :=
    match items with
    | [] => (ofFault ending.read).map fun _ => ([], [])
    | r :: rest => (declaredForm room r).map fun entries => (entries, rest)

/-- The entries of a schema text, in the order in which they stand there. -/
def declared (text : String) : Except Json.Error (List (String × Entity)) :=
  (readText text).decode fun r => declaredRecord.read .usual r

/-! ## From the entries to the bundle -/

theorem ofEntries_concat (entries : List (String × Entity)) (key : String) (e : Entity) :
    (ofEntries (entries ++ [(key, e)])).entities = (ofEntries entries).entities.insert key e :=
  List.foldl_concat ..

theorem entitiesForm_eq (room : Room) (r : Reading) :
    entitiesForm room r
      = (declaredForm room r).map fun entries => (ofEntries entries).entities := by
  cases r with
  | object entries ending =>
      rw [entitiesForm, declaredForm]
      cases room.enter with
      | error fault => rfl
      | ok inner =>
          -- every entry is put behind those that are noted, and into what they make
          have hfield : ∀ noted key r,
              entityField inner (ofEntries noted).entities key r
                = (declaredField inner noted key r).map fun entries =>
                  (ofEntries entries).entities := by
            intro noted key r
            rw [entityField, declaredField]
            cases Entity.form inner r with
            | error e => rfl
            | ok e => exact congrArg Except.ok (ofEntries_concat noted key e).symm
          show (readFields entityField inner (ofEntries []).entities entries).bind _
            = ((readFields declaredField inner [] entries).bind _).map _
          rw [readFields_map hfield]
          cases readFields declaredField inner [] entries with
          | error e => rfl
          | ok noted => cases ending <;> rfl
  | _ =>
      simp only [entitiesForm, declaredForm, wrongType]
      split <;> rfl

/-- The map is what comes of the list, at every step of the reader. -/
theorem declaredRecord_hom : declaredRecord.Hom record
    (Option.map fun entries => (ofEntries entries).entities) ofEntries where
  expected := rfl
  start := rfl
  field := by
    intro room state key r
    show (if key = "entities" then readOnce key entitiesForm room (state.map _) r
        else (passOver r).map _)
      = (if key = "entities" then readOnce key declaredForm room state r
        else (passOver r).map _).map _
    by_cases hkey : key = "entities"
    · rw [if_pos hkey, if_pos hkey]
      cases state with
      | some entries => rfl
      | none =>
          show (entitiesForm room r).map some = ((declaredForm room r).map some).map _
          rw [entitiesForm_eq]
          cases declaredForm room r <;> rfl
    · rw [if_neg hkey, if_neg hkey]
      cases passOver r <;> rfl
  finish := by
    intro state
    cases state <;> rfl
  items := by
    intro room rs ending
    cases rs with
    | nil => cases ending <;> rfl
    | cons r rest =>
        show (entitiesForm room r).map _ = ((declaredForm room r).map _).map _
        rw [entitiesForm_eq]
        cases declaredForm room r <;> rfl

/-- **A BUNDLE IS READ** as its entries, and then put together from them. -/
theorem form_eq_map_ofEntries :
    form = fun room r => (declaredRecord.read room r).map ofEntries := by
  funext room r
  exact declaredRecord_hom.read_map room r

/-- **A TEXT IS READ AS ITS ENTRIES, PUT IN ONE BY ONE**, or fails with the same error. -/
theorem decode_form_eq (text : String) :
    (readText text).decode (fun r => form .usual r) = (declared text).map ofEntries := by
  rw [form_eq_map_ofEntries, declared, TextReading.decode_map]

/-! ## Written entries -/

/-- Entries are noted one by one as they are read. -/
theorem exists_readFields_declaredField {n : Nat} (entries before : List (String × Entity)) :
    ∃ rs, SpellsEntries (entries.map fun entry => (entry.1, entry.2.toDocument)) rs
      ∧ readFields declaredField (.atMost (n + 3)) before rs = .ok (before ++ entries) := by
  induction entries generalizing before with
  | nil => exact ⟨[], .nil, congrArg Except.ok before.append_nil.symm⟩
  | cons entry entries ih =>
      obtain ⟨r, hr, hread⟩ := readsAs_entity rfl entry.2
      obtain ⟨rs, hrs, hreads⟩ := ih (before ++ [entry])
      refine ⟨_, .cons hr hrs, ?_⟩
      rw [readFields_cons, hreads, List.append_assoc, List.singleton_append]
      rw [declaredField, hread]
      rfl

/-- **WRITTEN ENTRIES ARE THE DECLARED ONES**, whatever their keys are. -/
theorem readsAs_declaredRecord (entries : List (String × Entity)) :
    ReadsAs declaredRecord.read .usual (documentOf entries) entries := by
  obtain ⟨rs, hrs, hreads⟩ := exists_readFields_declaredField (n := 122) entries []
  have hentries : declaredForm (.atMost 126) (.object rs .closed) = .ok entries := by
    show (readFields declaredField (.atMost 125) [] rs).bind _ = _
    rw [hreads]
    rfl
  refine ⟨_, .object (.cons (.object hrs) .nil), ?_⟩
  refine read_object (some entries) rfl ?_ rfl
  rw [readFields_cons]
  · rfl
  · show readOnce "entities" declaredForm (.atMost 126) none (.object rs .closed) = _
    exact readOnce_none hentries

/-- The entries of a text are those that it was printed from, repeated keys and all. -/
theorem declared_print (entries : List (String × Entity)) :
    declared (documentOf entries).print = .ok entries :=
  (readsAs_declaredRecord entries).decode

/-! ## What stays -/

/-- A text is accepted if the entities that stay are under their names and have distinct
    fields. -/
theorem ofText_eq_ok_iff_declared {text : String} {b : Bundle} :
    ofText text = .ok b ↔ ∃ entries, declared text = .ok entries ∧ b = ofEntries entries
      ∧ b.KeysMatch ∧ b.DistinctFields := by
  rw [ofText_eq_ok_iff, decode_form_eq, validate_eq_ok_iff]
  constructor
  · rintro ⟨hread, hvalid⟩
    obtain ⟨entries, hentries, rfl⟩ := map_eq_ok hread
    exact ⟨entries, hentries, rfl, hvalid⟩
  · rintro ⟨entries, hentries, rfl, hvalid⟩
    exact ⟨congrArg (Except.map ofEntries) hentries, hvalid⟩

/-- The keys that stay are those of the text, each of them once. -/
theorem keys_ofEntries_perm (entries : List (String × Entity)) :
    ((ofEntries entries).toList.map Prod.fst).Perm (entries.map Prod.fst).dedup := by
  refine (List.perm_ext_iff_of_nodup (nodup_keys _) (List.nodup_dedup _)).mpr ?_
  intro name
  rw [List.mem_dedup, List.mem_map, List.mem_map]
  constructor
  · rintro ⟨⟨key, e⟩, hmem, rfl⟩
    have hlookup := mem_toList.mp hmem
    rw [entity?_ofEntries] at hlookup
    obtain ⟨before, after, hentries, -⟩ := List.lookup_eq_some_iff.mp hlookup
    refine ⟨(key, e), List.mem_reverse.mp ?_, rfl⟩
    rw [hentries]
    exact List.mem_append_right before (List.mem_cons_self ..)
  · rintro ⟨⟨key, e⟩, hmem, rfl⟩
    cases hlookup : entries.reverse.lookup key with
    | some e' => exact ⟨(key, e'), mem_toList.mpr ((entity?_ofEntries ..).trans hlookup), rfl⟩
    | none =>
        have hne := List.lookup_eq_none_iff.mp hlookup (key, e) (List.mem_reverse.mpr hmem)
        exact absurd rfl (bne_iff_ne.mp hne)

/-- A bundle keeps one entry for every key. -/
theorem length_toList_ofEntries (entries : List (String × Entity)) :
    (ofEntries entries).toList.length = (entries.map Prod.fst).dedup.length := by
  have hlength := (keys_ofEntries_perm entries).length_eq
  rwa [List.length_map] at hlength

/-- As many entities stay as there are entries exactly if no key comes twice. -/
theorem length_toList_ofEntries_eq_iff {entries : List (String × Entity)} :
    (ofEntries entries).toList.length = entries.length ↔ (entries.map Prod.fst).Nodup := by
  rw [length_toList_ofEntries, ← List.dedup_eq_self]
  constructor
  · intro h
    exact (List.dedup_sublist _).eq_of_length (by rw [h, List.length_map])
  · intro h
    rw [h, List.length_map]

theorem mem_toList_ofEntries {entries : List (String × Entity)}
    (h : (entries.map Prod.fst).Nodup) {entry : String × Entity} (hmem : entry ∈ entries) :
    entry ∈ (ofEntries entries).toList := by
  have hreverse : (entries.reverse.map Prod.fst).Nodup := by
    rwa [List.map_reverse, List.nodup_reverse]
  refine mem_toList.mpr ((entity?_ofEntries ..).trans ?_)
  exact (Row.lookup_eq_some_iff_mem hreverse).mpr (List.mem_reverse.mpr hmem)

end Bundle

/-- **LATER ENTRIES REPLACE EARLIER ONES**: under every key a bundle that was read from a text has
    the last entity that the text has there, and one entity for each key.  So it has every
    entry of the text, and as many entities as the text has entries, exactly if no key of the
    text comes twice.  Only the entities that stay decide if the text is accepted: each of them
    has to stand under its name and to have distinct fields.  Entries that are written are
    the ones that the text declares, also those whose keys come again. -/
theorem later_entries_replace_earlier_ones (text : String) :
    (∀ b, Bundle.ofText text = .ok b →
        ∃ entries, Bundle.declared text = .ok entries
          ∧ (∀ name, b.entity? name = entries.reverse.lookup name)
          ∧ b.toList.length = (entries.map Prod.fst).dedup.length
          ∧ ((∀ entry ∈ entries, entry ∈ b.toList) ∧ b.toList.length = entries.length
            ↔ (entries.map Prod.fst).Nodup))
      ∧ (∀ entries, Bundle.declared text = .ok entries →
        ((∃ b, Bundle.ofText text = .ok b)
          ↔ ∀ name e, entries.reverse.lookup name = some e →
            e.name = name ∧ e.fieldNames.Nodup))
      ∧ ∀ entries, text = (Bundle.documentOf entries).print →
        Bundle.declared text = .ok entries := by
  refine ⟨?_, ?_, ?_⟩
  · intro b hb
    obtain ⟨entries, hentries, rfl, -⟩ := Bundle.ofText_eq_ok_iff_declared.mp hb
    refine ⟨entries, hentries, Bundle.entity?_ofEntries entries,
      Bundle.length_toList_ofEntries entries, ?_⟩
    rw [Bundle.length_toList_ofEntries_eq_iff, and_iff_right_iff_imp]
    intro hnodup entry hmem
    exact Bundle.mem_toList_ofEntries hnodup hmem
  · intro entries hentries
    -- the check behind the reading sees the bundle, not the entries
    have hvalid : (∃ b, Bundle.ofText text = .ok b)
        ↔ (Bundle.ofEntries entries).KeysMatch ∧ (Bundle.ofEntries entries).DistinctFields := by
      constructor
      · rintro ⟨b, hb⟩
        obtain ⟨entries', hentries', rfl, hvalid⟩ := Bundle.ofText_eq_ok_iff_declared.mp hb
        obtain rfl : entries = entries' := Except.ok.inj (hentries.symm.trans hentries')
        exact hvalid
      · intro hvalid
        exact ⟨_, Bundle.ofText_eq_ok_iff_declared.mpr ⟨entries, hentries, rfl, hvalid⟩⟩
    rw [hvalid, Bundle.KeysMatch, Bundle.DistinctFields]
    simp only [Bundle.entity?_ofEntries, forall_and]
  · rintro entries rfl
    exact Bundle.declared_print entries

/-- Of two entities under one key the first is lost with its field and the text is accepted,
    also where the first one could not stay: alone it is refused. -/
theorem later_entries_replace_earlier_ones_unseen :
    let first : Entity := ⟨"P", [⟨"x", .int32⟩]⟩
    let last : Entity := ⟨"P", []⟩
    let faulty : Entity := ⟨"Q", [⟨"x", .int32⟩, ⟨"x", .text⟩]⟩
    let text := (Bundle.documentOf [("P", first), ("P", last)]).print
    text = "\x7b\"entities\":\x7b\"P\":\x7b\"name\":\"P\","
        ++ "\"fields\":[\x7b\"name\":\"x\",\"type\":\"int32\"\x7d]\x7d,"
        ++ "\"P\":\x7b\"name\":\"P\",\"fields\":[]\x7d\x7d\x7d"
      ∧ (∃ b, Bundle.ofText text = .ok b ∧ b.entity? "P" = some last ∧ b.toList.length = 1
        ∧ ¬ ∀ entry ∈ [("P", first), ("P", last)], entry ∈ b.toList)
      ∧ (∃ b, Bundle.ofText (Bundle.documentOf [("P", faulty), ("P", last)]).print = .ok b)
      ∧ ¬ ∃ b, Bundle.ofText (Bundle.documentOf [("P", faulty)]).print = .ok b := by
  intro first last faulty text
  -- whatever the first entry is, only the last one counts
  have hlast : ∀ e : Entity, ∃ b,
      Bundle.ofText (Bundle.documentOf [("P", e), ("P", last)]).print = .ok b := by
    intro e
    obtain ⟨-, haccepted, hdeclared⟩ := later_entries_replace_earlier_ones
      (Bundle.documentOf [("P", e), ("P", last)]).print
    refine (haccepted _ (hdeclared _ rfl)).mpr ?_
    intro name found hfound
    replace hfound : [("P", last), ("P", e)].lookup name = some found := hfound
    rcases eq_or_ne name "P" with rfl | hname
    · obtain rfl : last = found := Option.some.inj hfound
      exact ⟨rfl, List.nodup_nil⟩
    · rw [List.lookup_cons, List.lookup_cons, beq_false_of_ne hname] at hfound
      exact nomatch hfound
  obtain ⟨b, hb⟩ := hlast first
  obtain ⟨hkept, -, hdeclared⟩ := later_entries_replace_earlier_ones text
  obtain ⟨entries, hentries, hlookup, hlength, -⟩ := hkept b hb
  obtain rfl : [("P", first), ("P", last)] = entries :=
    Except.ok.inj ((hdeclared _ rfl).symm.trans hentries)
  have hone : b.toList.length = 1 := by
    rw [hlength]
    decide
  have hlost : ¬ ∀ entry ∈ [("P", first), ("P", last)], entry ∈ b.toList := by
    intro h
    have hfirst := h _ (List.mem_cons_self ..)
    have hfound := (hlookup "P").symm.trans (Bundle.mem_toList.mp hfirst)
    exact absurd hfound (by decide)
  refine ⟨by decide +kernel, ⟨b, hb, hlookup "P", hone, hlost⟩, hlast faulty, ?_⟩
  obtain ⟨-, haccepted, hdeclared'⟩ := later_entries_replace_earlier_ones
    (Bundle.documentOf [("P", faulty)]).print
  rw [haccepted _ (hdeclared' _ rfl)]
  intro h
  exact absurd (h "P" faulty rfl).1 (by decide)

end RecordFilter
