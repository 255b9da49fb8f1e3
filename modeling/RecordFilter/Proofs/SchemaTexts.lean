import RecordFilter.Proofs.DeclaredEntities

/-! # Schema texts

    A bundle is written with its entities in some order, each under its name, and every text of
    it is read back as the same entities (`decode_of_writtenAs`); what is left to the reader is
    to refuse those that are not valid.  As a bundle keeps every entity under its own name, the
    only fault that it can have is an entity with two fields of one name.

    What was accepted is valid, so a name has one field at most, and the first one that has it
    is the only one. -/

namespace RecordFilter

open Json

theorem Bundle.decode_of_writtenAs {b : Bundle} {text : String} (h : b.WrittenAs text) :
    ∃ b', (readText text).decode (fun r => form .usual r) = .ok b'
      ∧ ∀ name, b'.entity? name = b.entity? name := by
  obtain ⟨entries, hperm, rfl⟩ := h
  refine ⟨ofEntries entries, ?_, entity?_ofEntries_of_perm hperm⟩
  rw [decode_form_eq, declared_print]
  rfl

/-- **A SCHEMA SURVIVES ITS TEXT IF IT IS VALID**: a bundle of entities that are added one by one
    holds each of them under its name, and the last one of every name.  Each of its texts,
    whatever the order of the entries in it, is accepted exactly if no entity has two fields of
    one name, and then gives the same entities, with the same fields in their order, and the
    same answers; otherwise the schema is invalid, for a field that comes again.  And in a
    bundle that was read from any text, a field of an entity resolves to a type exactly if it
    is the only one of its name there and has that type. -/
theorem schemas_survive_if_valid :
    (∀ es : List Entity,
        (∀ key e, (Bundle.ofList es).entity? key = some e → e.name = key)
          ∧ (∀ name, (Bundle.ofList es).entity? name = es.reverse.find? fun e => e.name == name)
          ∧ (Bundle.ofList es).WrittenAs (Bundle.ofList es).toText
          ∧ ∀ text, (Bundle.ofList es).WrittenAs text →
            ((∃ b, Bundle.ofText text = .ok b)
                ↔ ∀ key e, (Bundle.ofList es).entity? key = some e → e.fieldNames.Nodup)
              ∧ (∀ b, Bundle.ofText text = .ok b →
                b.toList = (Bundle.ofList es).toList
                  ∧ (∀ name, b.entity? name = (Bundle.ofList es).entity? name)
                  ∧ b.resolver = (Bundle.ofList es).resolver)
              ∧ ∀ error, Bundle.ofText text = .error error →
                ∃ field entity, error = .invalid (.repeatedField field entity))
      ∧ ∀ text b, Bundle.ofText text = .ok b → ∀ entity field t,
          b.resolver entity field = .ok t
            ↔ ∃ key e, (key, e) ∈ b.toList ∧ e.name = entity
              ∧ e.fields.filter (fun f => f.name == field) = [⟨field, t⟩] := by
  constructor
  · intro es
    have hkeys := Bundle.keysMatch_ofList es
    refine ⟨hkeys, Bundle.entity?_ofList es, Bundle.writtenAs_toText _, ?_⟩
    intro text htext
    -- the text is read as some bundle with the same entities; what is left is the check
    obtain ⟨b', hread, hsame⟩ := Bundle.decode_of_writtenAs htext
    have hkeys' : b'.KeysMatch := (Bundle.keysMatch_iff_of_entity?_eq hsame).mpr hkeys
    have hdistinct := Bundle.distinctFields_iff_of_entity?_eq hsame
    refine ⟨?_, ?_, ?_⟩
    · refine Iff.trans ⟨?_, ?_⟩ hdistinct
      · rintro ⟨b, hb⟩
        obtain ⟨hb, hvalid⟩ := Bundle.ofText_eq_ok_iff.mp hb
        obtain rfl : b' = b := Except.ok.inj (hread.symm.trans hb)
        exact (Bundle.validate_eq_ok_iff.mp hvalid).2
      · intro h
        exact ⟨b', Bundle.ofText_eq_ok_iff.mpr ⟨hread, Bundle.validate_eq_ok_iff.mpr ⟨hkeys', h⟩⟩⟩
    · intro b hb
      obtain rfl : b' = b := Except.ok.inj (hread.symm.trans (Bundle.ofText_eq_ok_iff.mp hb).1)
      exact ⟨Bundle.toList_eq_of_entity?_eq hsame, hsame, Bundle.resolver_eq_of_entity?_eq hsame⟩
    · intro error herror
      rw [Bundle.ofText_eq hread] at herror
      cases hvalid : b'.validate with
      | ok _ =>
          rw [hvalid] at herror
          cases herror
      | error fault =>
          rw [hvalid] at herror
          obtain ⟨field, entity, rfl⟩ := Bundle.exists_repeatedField hkeys' hvalid
          exact ⟨field, entity, (Except.error.inj herror).symm⟩
  · intro text b hb entity field t
    -- an accepted bundle has passed the check, whichever text it is from
    obtain ⟨hkeys, hdistinct⟩ :=
      Bundle.validate_eq_ok_iff.mp (Bundle.ofText_eq_ok_iff.mp hb).2
    constructor
    · intro h
      cases he : b.entity? entity with
      | none =>
          rw [Bundle.resolver, he] at h
          cases h
      | some e =>
          rw [Bundle.resolver_eq_of_entity? he] at h
          obtain ⟨hname, htype⟩ := Entity.resolver_eq_ok_iff.mp h
          exact ⟨entity, e, Bundle.mem_toList.mpr he, hname.symm,
            (Entity.fieldType?_eq_some_iff_filter (hdistinct entity e he)).mp htype⟩
    · rintro ⟨key, e, hmem, rfl, hfilter⟩
      have he := Bundle.mem_toList.mp hmem
      obtain rfl := hkeys key e he
      rw [Bundle.resolver_eq_of_entity? he]
      exact Entity.resolver_eq_ok_iff.mpr
        ⟨rfl, (Entity.fieldType?_eq_some_iff_filter (hdistinct _ e he)).mpr hfilter⟩

/-- A name that has to be escaped and an entity that replaces another one survive, in either
    order of the entries; an entity with two fields of one name is refused. -/
theorem schemas_survive_if_valid_escaped :
    let old : Entity := ⟨"Person", [⟨"age", .text⟩]⟩
    let said : Entity := ⟨"say \"hi\"\n", []⟩
    let person : Entity := ⟨"Person", [⟨"name", .text⟩, ⟨"age", .int32⟩]⟩
    let twice : Entity := ⟨"Twice", [⟨"x", .int32⟩, ⟨"x", .text⟩]⟩
    let b := Bundle.ofList [old, said, person]
    let text := (Bundle.documentOf [(said.name, said), (person.name, person)]).print
    text = "\x7b\"entities\":"
        ++ "\x7b\"say \\\"hi\\\"\\n\":\x7b\"name\":\"say \\\"hi\\\"\\n\",\"fields\":[]\x7d,"
        ++ "\"Person\":\x7b\"name\":\"Person\","
        ++ "\"fields\":[\x7b\"name\":\"name\",\"type\":\"text\"\x7d,"
        ++ "\x7b\"name\":\"age\",\"type\":\"int32\"\x7d]\x7d\x7d\x7d"
      ∧ b.WrittenAs text
      ∧ (∃ b', Bundle.ofText text = .ok b' ∧ b'.toList = b.toList ∧ b'.resolver = b.resolver
        ∧ b'.resolver "Person" "age" = .ok .int32)
      ∧ ∃ field entity, Bundle.ofText (Bundle.ofList [twice]).toText
        = .error (.invalid (.repeatedField field entity)) := by
  intro old said person twice b text
  obtain ⟨hadded, hread⟩ := schemas_survive_if_valid
  obtain ⟨-, hlookup, -, hwritten⟩ := hadded [old, said, person]
  obtain ⟨-, htwice, htext', hwritten'⟩ := hadded [twice]
  have hlist : b.toList = [(person.name, person), (said.name, said)] := by decide +kernel
  have htext : b.WrittenAs text := ⟨_, by rw [hlist]; exact .swap .., rfl⟩
  obtain ⟨haccepted, hsurvives, -⟩ := hwritten text htext
  obtain ⟨b', hb'⟩ := haccepted.mpr (by
    intro key e he
    have hmem := Bundle.mem_toList.mpr he
    rw [hlist] at hmem
    simp only [List.mem_cons, List.not_mem_nil, or_false, Prod.mk.injEq] at hmem
    obtain ⟨-, rfl⟩ | ⟨-, rfl⟩ := hmem <;> decide)
  obtain ⟨hentries, -, hresolver⟩ := hsurvives b' hb'
  have hage : b'.resolver "Person" "age" = .ok .int32 := by
    refine (hread text b' hb' "Person" "age" .int32).mpr ⟨"Person", person, ?_, rfl, rfl⟩
    rw [hentries, hlist]
    exact List.mem_cons_self ..
  refine ⟨by decide +kernel, htext, ⟨b', hb', hentries, hresolver, hage⟩, ?_⟩
  obtain ⟨haccepted', -, hrefused⟩ := hwritten' _ htext'
  cases hresult : Bundle.ofText (Bundle.ofList [twice]).toText with
  | error error =>
      obtain ⟨field, entity, rfl⟩ := hrefused error hresult
      exact ⟨field, entity, rfl⟩
  | ok accepted =>
      have hdistinct := haccepted'.mp ⟨accepted, hresult⟩ "Twice" twice (htwice "Twice")
      exact absurd hdistinct (by decide)

end RecordFilter
