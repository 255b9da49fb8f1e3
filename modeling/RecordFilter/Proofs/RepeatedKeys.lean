import Mathlib.Control.Monad.Basic
import Mathlib.Data.List.Induction
import RecordFilter.Filter.Compile

/-! # Texts that repeat a key

    `keyOccurrences` lists the keys of a document in reading order: the key of
    an entry, then the keys of its value, then those of the next entry.  Each
    occurrence knows the place of its object and the keys in front of it there,
    so a repetition is seen at its second key.  What an object is in the filter
    follows from its place (`AtNode`, `AtOperators`).

    The scan of a text finds the first occurrence that repeats a key
    (`repetition?_eq_find?`); a document without one is read as it stands. -/

namespace RecordFilter

open Json RecordFilter.Filter

/-! ## Documents that repeat a key -/

namespace Json.Document

/-- The steps lead from a document to a value in it.  Where an object repeats a
    key, a step leads to the value of any entry with that key. -/
inductive Leads : Document → List Step → Document → Prop where
  | self {d : Document} : Leads d [] d
  | item {items : List Document} {i : Nat} {d x : Document} {steps : List Step} :
      items[i]? = some d → Leads d steps x → Leads (.array items) (.index i :: steps) x
  | entry {entries : List (String × Document)} {key : String} {d x : Document}
      {steps : List Step} :
      (key, d) ∈ entries → Leads d steps x → Leads (.object entries) (.key key :: steps) x

/-- Some object of the document, wherever it stands, has two entries of one
    key. -/
def RepeatsKey (d : Document) : Prop :=
  ∃ steps entries, Leads d steps (.object entries) ∧ ¬ (entries.map Prod.fst).Nodup

/-- An array repeats a key if one of its items does. -/
theorem RepeatsKey.array {items : List Document} {d : Document} (hd : d ∈ items) :
    RepeatsKey d → RepeatsKey (.array items) := by
  rintro ⟨steps, entries, hleads, hdup⟩
  obtain ⟨i, hi⟩ := List.mem_iff_getElem?.mp hd
  exact ⟨.index i :: steps, entries, .item hi hleads, hdup⟩

theorem RepeatsKey.object {entries : List (String × Document)} {key : String} {d : Document}
    (hd : (key, d) ∈ entries) : RepeatsKey d → RepeatsKey (.object entries) := by
  rintro ⟨steps, entries', hleads, hdup⟩
  exact ⟨.key key :: steps, entries', .entry hd hleads, hdup⟩

/-! ### Keeping the last value changes nothing without a repeated key -/

/-- A key that was not there before is put at the end. -/
theorem put_of_notMem {key : String} {d : Document} {entries : List (String × Document)}
    (h : key ∉ entries.map Prod.fst) : put key d entries = entries ++ [(key, d)] := by
  induction entries with
  | nil => rfl
  | cons entry entries ih =>
      rw [List.map_cons, List.mem_cons, not_or] at h
      rw [put, if_neg (Ne.symm h.1), ih h.2]
      rfl

/-- Items that keep their entries make an array that does. -/
theorem collapseItems_eq_self {items : List Document}
    (h : ∀ d ∈ items, d.collapse = d) : collapseItems items = items := by
  induction items with
  | nil => rfl
  | cons d items ih =>
      rw [collapseItems, h d (List.mem_cons_self ..),
        ih fun x hx => h x (List.mem_cons_of_mem _ hx)]

/-- Distinct keys over values that keep their entries are put one behind the other. -/
theorem collapseEntries_eq_append (done : List (String × Document))
    {entries : List (String × Document)} (h : ∀ key d, (key, d) ∈ entries → d.collapse = d)
    (hkeys : ((done ++ entries).map Prod.fst).Nodup) :
    collapseEntries done entries = done ++ entries := by
  induction entries generalizing done with
  | nil => rw [collapseEntries, List.append_nil]
  | cons entry entries ih =>
      obtain ⟨key, d⟩ := entry
      -- a key that is new is put at the end
      have hkey : key ∉ done.map Prod.fst := by
        intro hmem
        rw [List.map_append, List.nodup_append] at hkeys
        exact hkeys.2.2 key hmem key (List.mem_cons_self ..) rfl
      have hassoc : done ++ (key, d) :: entries = (done ++ [(key, d)]) ++ entries := by
        rw [List.append_assoc, List.singleton_append]
      rw [collapseEntries, h key d (List.mem_cons_self ..), put_of_notMem hkey, hassoc]
      refine ih _ (fun k x hx => h k x (List.mem_cons_of_mem _ hx)) ?_
      rw [← hassoc]
      exact hkeys

/-- A document that repeats no key is read as it stands. -/
theorem collapse_eq_self {d : Document} (h : ¬ RepeatsKey d) : d.collapse = d := by
  induction d with
  | null => rfl
  | bool b => rfl
  | number s => rfl
  | string s => rfl
  | array items ih =>
      rw [collapse, collapseItems_eq_self fun d hd => ih d hd fun hr => h (hr.array hd)]
  | object entries ih =>
      have hkeys : (entries.map Prod.fst).Nodup := by
        by_contra hdup
        exact h ⟨[], entries, .self, hdup⟩
      rw [collapse, collapseEntries_eq_append []
        (fun key d hd => ih key d hd fun hr => h (hr.object hd)) hkeys]
      rfl

end Json.Document

namespace Filter

open Document

/-! ## Keys in reading order -/

/-- A key of an object as it is read: the place of the object, the key, and the
    keys in front of it in the object, the nearest one first. -/
structure KeyOccurrence where
  path : Path
  key : String
  earlier : List String

/-- The key has been there before in its object. -/
def KeyOccurrence.Repeats (o : KeyOccurrence) : Prop := o.key ∈ o.earlier

instance : DecidablePred KeyOccurrence.Repeats :=
  fun o => inferInstanceAs (Decidable (o.key ∈ o.earlier))

mutual

/-- The keys of a document at a place, in reading order. -/
def keyOccurrences (path : Path) : Document → List KeyOccurrence
  | .array items => occurrencesInItems path 0 items
  | .object entries => occurrencesInEntries path [] entries
  | _ => []

/-- The keys of the items of an array, from an index on. -/
def occurrencesInItems (path : Path) (i : Nat) : List Document → List KeyOccurrence
  | [] => []
  | d :: rest => keyOccurrences (path.index i) d ++ occurrencesInItems path (i + 1) rest

/-- The keys of the entries of an object, behind those with the given keys. -/
def occurrencesInEntries (path : Path) (earlier : List String) :
    List (String × Document) → List KeyOccurrence
  | [] => []
  | (key, d) :: rest =>
      ⟨path, key, earlier⟩
        :: (keyOccurrences (path.key key) d ++ occurrencesInEntries path (key :: earlier) rest)

end

/-- The keys of an array are those of its items, each at its place. -/
theorem mem_occurrencesInItems {o : KeyOccurrence} {path : Path} {i : Nat}
    {items : List Document} :
    o ∈ occurrencesInItems path i items ↔
      ∃ j d, items[j]? = some d ∧ o ∈ keyOccurrences (path.index (i + j)) d := by
  induction items generalizing i with
  | nil => exact ⟨nofun, fun ⟨_, _, h, _⟩ => (nomatch h)⟩
  | cons d items ih =>
      -- the scan counts on from `i`, the items of the rest from zero
      rw [occurrencesInItems, List.mem_append, ih]
      constructor
      · rintro (ho | ⟨j, x, hx, ho⟩)
        · exact ⟨0, d, rfl, ho⟩
        · refine ⟨j + 1, x, hx, ?_⟩
          rw [← Nat.add_assoc, Nat.add_right_comm]
          exact ho
      · rintro ⟨j, x, hx, ho⟩
        cases j with
        | zero =>
            cases hx
            exact Or.inl ho
        | succ j =>
            refine Or.inr ⟨j, x, hx, ?_⟩
            rw [Nat.add_right_comm, Nat.add_assoc]
            exact ho

/-- The keys of an object are its own, each with the keys in front of it, and those inside of its
    values. -/
theorem mem_occurrencesInEntries {o : KeyOccurrence} {path : Path} {earlier : List String}
    {entries : List (String × Document)} :
    o ∈ occurrencesInEntries path earlier entries ↔
      ∃ before key d after, entries = before ++ (key, d) :: after
        ∧ (o = ⟨path, key, (before.map Prod.fst).reverse ++ earlier⟩
          ∨ o ∈ keyOccurrences (path.key key) d) := by
  induction entries generalizing earlier with
  | nil =>
      refine ⟨nofun, ?_⟩
      rintro ⟨before, key, d, after, h, _⟩
      cases before <;> exact nomatch h
  | cons entry entries ih =>
      obtain ⟨key, d⟩ := entry
      rw [occurrencesInEntries, List.mem_cons, List.mem_append, ih]
      constructor
      · rintro (ho | ho | ⟨before, k, x, after, rfl, ho⟩)
        · exact ⟨[], key, d, entries, rfl, Or.inl ho⟩
        · exact ⟨[], key, d, entries, rfl, Or.inr ho⟩
        · refine ⟨(key, d) :: before, k, x, after, rfl, ?_⟩
          rw [List.map_cons, List.reverse_cons, List.append_assoc]
          exact ho
      · rintro ⟨before, k, x, after, hsplit, ho⟩
        cases before with
        | nil =>
            cases hsplit
            rcases ho with ho | ho
            · exact Or.inl ho
            · exact Or.inr (Or.inl ho)
        | cons entry before =>
            cases hsplit
            rw [List.map_cons, List.reverse_cons, List.append_assoc] at ho
            exact Or.inr (Or.inr ⟨before, k, x, after, rfl, ho⟩)

theorem steps_step_append (path : Path) (step : Step) (steps : List Step) :
    (⟨(path.step step).steps ++ steps⟩ : Path) = ⟨path.steps ++ step :: steps⟩ := by
  rw [List.append_cons]
  rfl

/-- **EVERY KEY IS READ**: the occurrences of a document at a place are the keys
    of its objects, each with the place of its object and the keys in front of
    it there. -/
theorem mem_keyOccurrences {o : KeyOccurrence} {d : Document} : ∀ {path : Path},
    o ∈ keyOccurrences path d ↔
      ∃ steps before x after, Leads d steps (.object (before ++ (o.key, x) :: after))
        ∧ o.path = ⟨path.steps ++ steps⟩ ∧ o.earlier = (before.map Prod.fst).reverse := by
  induction d with
  | null => exact ⟨nofun, fun ⟨_, _, _, _, h, _⟩ => (nomatch h)⟩
  | bool b => exact ⟨nofun, fun ⟨_, _, _, _, h, _⟩ => (nomatch h)⟩
  | number s => exact ⟨nofun, fun ⟨_, _, _, _, h, _⟩ => (nomatch h)⟩
  | string s => exact ⟨nofun, fun ⟨_, _, _, _, h, _⟩ => (nomatch h)⟩
  | array items ih =>
      intro path
      rw [keyOccurrences, mem_occurrencesInItems]
      constructor
      · rintro ⟨i, d, hd, ho⟩
        rw [Nat.zero_add, ih d (List.mem_of_getElem? hd)] at ho
        obtain ⟨steps, before, x, after, hleads, hpath, hearlier⟩ := ho
        exact ⟨.index i :: steps, before, x, after, .item hd hleads,
          hpath.trans (steps_step_append path _ steps), hearlier⟩
      · rintro ⟨_, before, x, after, hleads, hpath, hearlier⟩
        cases hleads with
        | item hd hleads =>
            refine ⟨_, _, hd, ?_⟩
            rw [Nat.zero_add, ih _ (List.mem_of_getElem? hd)]
            exact ⟨_, before, x, after, hleads,
              hpath.trans (steps_step_append path _ _).symm, hearlier⟩
  | object entries ih =>
      intro path
      rw [keyOccurrences, mem_occurrencesInEntries]
      constructor
      · rintro ⟨before, key, d, after, rfl, rfl | ho⟩
        · exact ⟨[], before, d, after, .self, by rw [List.append_nil path.steps],
            List.append_nil _⟩
        · have hd : (key, d) ∈ before ++ (key, d) :: after :=
            List.mem_append_right _ (List.mem_cons_self ..)
          obtain ⟨steps, before', x, after', hleads, hpath, hearlier⟩ := (ih key d hd).mp ho
          exact ⟨.key key :: steps, before', x, after', .entry hd hleads,
            hpath.trans (steps_step_append path _ steps), hearlier⟩
      · rintro ⟨_, before, x, after, hleads, hpath, hearlier⟩
        cases hleads with
        | self =>
            refine ⟨before, o.key, x, after, rfl, Or.inl ?_⟩
            rw [List.append_nil] at hpath ⊢
            rw [← hearlier]
            obtain ⟨opath, okey, oearlier⟩ := o
            cases hpath
            rfl
        | @entry _ key y _ _ hd hleads =>
            obtain ⟨before', after', rfl⟩ := List.append_of_mem hd
            refine ⟨before', key, y, after', rfl, Or.inr ((ih key y hd).mpr ?_)⟩
            exact ⟨_, before, x, after, hleads,
              hpath.trans (steps_step_append path _ _).symm, hearlier⟩

/-- A list with a repeated element has one that stands behind its equal. -/
theorem exists_behind_of_not_nodup {keys : List String} (h : ¬ keys.Nodup) :
    ∃ before key after, keys = before ++ key :: after ∧ key ∈ before := by
  induction keys with
  | nil => exact absurd List.nodup_nil h
  | cons key keys ih =>
      by_cases hmem : key ∈ keys
      · -- the key at the front is the equal
        obtain ⟨before, after, rfl⟩ := List.append_of_mem hmem
        exact ⟨key :: before, key, after, rfl, List.mem_cons_self ..⟩
      · rw [List.nodup_cons, not_and] at h
        obtain ⟨before, k, after, rfl, hk⟩ := ih (h hmem)
        exact ⟨key :: before, k, after, rfl, List.mem_cons_of_mem _ hk⟩

/-- A document repeats a key if one of its keys, in reading order, has been
    there before in its object. -/
theorem exists_repeats_iff (d : Document) (path : Path) :
    (∃ o ∈ keyOccurrences path d, o.Repeats) ↔ RepeatsKey d := by
  constructor
  · rintro ⟨o, ho, hrepeats⟩
    obtain ⟨steps, before, x, after, hleads, -, hearlier⟩ := mem_keyOccurrences.mp ho
    refine ⟨steps, _, hleads, fun hnodup => ?_⟩
    rw [KeyOccurrence.Repeats, hearlier, List.mem_reverse] at hrepeats
    rw [List.map_append, List.nodup_append] at hnodup
    exact hnodup.2.2 o.key hrepeats o.key (List.mem_cons_self ..) rfl
  · rintro ⟨steps, entries, hleads, hdup⟩
    obtain ⟨keys, key, keys', hsplit, hmem⟩ := exists_behind_of_not_nodup hdup
    obtain ⟨before, rest, rfl, rfl, hrest⟩ := List.map_eq_append_iff.mp hsplit
    obtain ⟨⟨k, x⟩, after, rfl, rfl, -⟩ := List.map_eq_cons_iff.mp hrest
    refine ⟨⟨⟨path.steps ++ steps⟩, k, (before.map Prod.fst).reverse⟩, ?_,
      List.mem_reverse.mpr hmem⟩
    exact mem_keyOccurrences.mpr ⟨steps, before, x, after, hleads, rfl, rfl⟩

/-! ## What an object is in the filter -/

/-- Nodes stand at the root and in the arrays of combinators. -/
inductive AtNode : Path → Prop where
  | root : AtNode .root
  | child {path : Path} {key : String} {i : Nat} :
      AtNode path → (Combinator.ofKeyword? key).isSome → AtNode ((path.key key).index i)

/-- The operators of a leaf stand under a key of a node that is the keyword of no
    combinator. -/
def AtOperators (path : Path) : Prop :=
  ∃ node field, path = node.key field ∧ AtNode node ∧ Combinator.ofKeyword? field = none

/-- The role of a value by the steps that lead to it. -/
def roleAt (path : Path) : Role :=
  path.steps.foldl (fun role step =>
    match step with
    | .key key => role.ofEntry key
    | .index _ => role.ofItem) .node

/-- The role of an entry follows from the role of its object. -/
theorem roleAt_key (path : Path) (key : String) :
    roleAt (path.key key) = (roleAt path).ofEntry key := by
  rw [roleAt, Path.key, Path.step, List.foldl_append]
  rfl

theorem roleAt_index (path : Path) (i : Nat) :
    roleAt (path.index i) = (roleAt path).ofItem := by
  rw [roleAt, Path.index, Path.step, List.foldl_append]
  rfl

/-- The place of a node has the role of one. -/
theorem AtNode.roleAt_eq {path : Path} (h : AtNode path) : roleAt path = .node := by
  induction h with
  | root => rfl
  | child _ hkey ih =>
      rw [roleAt_index, roleAt_key, ih, Role.ofEntry, if_pos hkey]
      rfl

theorem AtOperators.roleAt_eq {path : Path} (h : AtOperators path) :
    roleAt path = .operators := by
  obtain ⟨node, field, rfl, hnode, hfield⟩ := h
  rw [roleAt_key, hnode.roleAt_eq, Role.ofEntry, hfield]
  rfl

/-- What a role says about the place of its value. -/
def Fits : Role → Path → Prop
  | .node, path => AtNode path
  | .conditions, path => ∀ i, AtNode (path.index i)
  | .operators, path => AtOperators path
  | .other, _ => True

/-- A role that fits an object fits its entries, each by its key. -/
theorem fits_ofEntry {role : Role} {path : Path} (h : Fits role path) (key : String) :
    Fits (role.ofEntry key) (path.key key) := by
  cases role with
  | node =>
      cases hkey : Combinator.ofKeyword? key with
      | none =>
          rw [Role.ofEntry, hkey]
          exact ⟨path, key, rfl, h, hkey⟩
      | some k =>
          have hsome : (Combinator.ofKeyword? key).isSome := by rw [hkey]; rfl
          rw [Role.ofEntry, if_pos hsome]
          exact fun i => h.child hsome
  | conditions => trivial
  | operators => trivial
  | other => trivial

theorem fits_ofItem {role : Role} {path : Path} (h : Fits role path) (i : Nat) :
    Fits role.ofItem (path.index i) := by
  cases role with
  | conditions => exact h i
  | node => trivial
  | operators => trivial
  | other => trivial

/-- **ROLES FIT PLACES**: a value has the role of a node or of a leaf's operators
    only where these stand. -/
theorem fits_roleAt (steps : List Step) : Fits (roleAt ⟨steps⟩) ⟨steps⟩ := by
  -- the role changes at the last step, so the path is taken apart from its end
  induction steps using List.reverseRecOn with
  | nil => exact .root
  | append_singleton steps step ih =>
      cases step with
      | key key =>
          have h := fits_ofEntry ih key
          rw [← roleAt_key] at h
          exact h
      | index i =>
          have h := fits_ofItem ih i
          rw [← roleAt_index] at h
          exact h

/-! ## The scan -/

/-- The error at a key that repeats. -/
def KeyOccurrence.error (o : KeyOccurrence) : Error := ⟨(roleAt o.path).problem o.key, o.path⟩

/-- The error has no cause, stands at the object that repeats the key, and its
    wording depends on what that object is in the filter. -/
structure KeyOccurrence.BlamedBy (o : KeyOccurrence) (e : Error) : Prop where
  kind : e.kind = .structural
  cause : e.cause? = none
  path : e.path = o.path
  node : AtNode o.path → e.message = "only one predicate per object"
  operators : AtOperators o.path → e.message = "only one operator per predicate"
  elsewhere : ¬ AtNode o.path → ¬ AtOperators o.path →
    e.message = "duplicate key '" ++ o.key ++ "'"

theorem KeyOccurrence.error_message (o : KeyOccurrence) :
    o.error.message = ((roleAt o.path).problem o.key).message := rfl

theorem KeyOccurrence.blamedBy_error (o : KeyOccurrence) : o.BlamedBy o.error where
  kind := by
    show ((roleAt o.path).problem o.key).kind = _
    cases roleAt o.path <;> rfl
  cause := by
    show ((roleAt o.path).problem o.key).cause? = _
    cases roleAt o.path <;> rfl
  path := rfl
  node h := by
    rw [o.error_message, h.roleAt_eq]
    rfl
  operators h := by
    rw [o.error_message, h.roleAt_eq]
    rfl
  elsewhere hnode hoperators := by
    have hfits : Fits (roleAt o.path) o.path := fits_roleAt o.path.steps
    rw [o.error_message]
    cases hrole : roleAt o.path with
    | node =>
        rw [hrole] at hfits
        exact absurd hfits hnode
    | operators =>
        rw [hrole] at hfits
        exact absurd hfits hoperators
    | conditions => rfl
    | other => rfl

/-- The first occurrence that repeats its key, as an error. -/
def firstRepeated? (os : List KeyOccurrence) : Option Error :=
  (os.find? fun o => o.Repeats).map KeyOccurrence.error

/-- The first repetition lies in the first part of a list, if that has one. -/
theorem firstRepeated?_append (xs ys : List KeyOccurrence) :
    firstRepeated? (xs ++ ys) = (firstRepeated? xs).or (firstRepeated? ys) := by
  rw [firstRepeated?, List.find?_append, Option.map_or]
  rfl

theorem firstRepeated?_cons (o : KeyOccurrence) (os : List KeyOccurrence) :
    firstRepeated? (o :: os) = if o.Repeats then some o.error else firstRepeated? os := by
  rw [firstRepeated?, List.find?_cons]
  by_cases h : o.Repeats
  · rw [decide_eq_true h, if_pos h]
    rfl
  · rw [decide_eq_false h, if_neg h]
    rfl

/-- Nothing is found in a document that repeats no key. -/
theorem firstRepeated?_eq_none_iff {d : Document} :
    firstRepeated? (keyOccurrences .root d) = none ↔ ¬ d.RepeatsKey := by
  rw [firstRepeated?, Option.map_eq_none_iff, List.find?_eq_none, ← exists_repeats_iff d .root]
  constructor
  · rintro h ⟨o, ho, hrepeats⟩
    exact h o ho (decide_eq_true hrepeats)
  · intro h o ho hrepeats
    exact h ⟨o, ho, of_decide_eq_true hrepeats⟩

/-- The first repetition in an array is the first in reading order, if it is so for the items. -/
theorem repetitionInItems?_eq {path : Path} {i : Nat} {items : List Document}
    (ih : ∀ d ∈ items, ∀ path,
      repetition? (roleAt path) path d = firstRepeated? (keyOccurrences path d)) :
    repetitionInItems? (roleAt path) path i items
      = firstRepeated? (occurrencesInItems path i items) := by
  induction items generalizing i with
  | nil => rfl
  | cons d items ihs =>
      rw [repetitionInItems?, occurrencesInItems, firstRepeated?_append, ← roleAt_index _ i,
        ih d (List.mem_cons_self ..), ihs fun x hx => ih x (List.mem_cons_of_mem _ hx)]

/-- The first repetition in an object is the first in reading order, if it is so for the values:
    a key comes before what is inside of it. -/
theorem repetitionInEntries?_eq {path : Path} {earlier : List String}
    {entries : List (String × Document)}
    (ih : ∀ key d, (key, d) ∈ entries → ∀ path,
      repetition? (roleAt path) path d = firstRepeated? (keyOccurrences path d)) :
    repetitionInEntries? (roleAt path) path earlier entries
      = firstRepeated? (occurrencesInEntries path earlier entries) := by
  induction entries generalizing earlier with
  | nil => rfl
  | cons entry entries ihs =>
      obtain ⟨key, d⟩ := entry
      rw [repetitionInEntries?, occurrencesInEntries, firstRepeated?_cons,
        firstRepeated?_append, ← roleAt_key, ih key d (List.mem_cons_self ..),
        ihs fun k x hx => ih k x (List.mem_cons_of_mem _ hx)]
      rfl

/-- **THE SCAN FINDS THE FIRST REPETITION**: from the role of a place on, the scan
    of a document gives the error of the first key, in reading order, that has
    been there before in its object. -/
theorem repetition?_eq_firstRepeated? (d : Document) : ∀ path,
    repetition? (roleAt path) path d = firstRepeated? (keyOccurrences path d) := by
  induction d with
  | null => exact fun _ => rfl
  | bool b => exact fun _ => rfl
  | number s => exact fun _ => rfl
  | string s => exact fun _ => rfl
  | array items ih =>
      intro path
      rw [repetition?, keyOccurrences, repetitionInItems?_eq ih]
  | object entries ih =>
      intro path
      rw [repetition?, keyOccurrences, repetitionInEntries?_eq ih]

/-- **A TEXT OF JSON** within the length is refused for its first repeated key, and parsed as its
    document if it has none. -/
theorem parseText_eq_of_readDocument {limits : Limits} {text : String} {d : Document}
    (hlength : text.utf8ByteSize ≤ limits.maxTextLength)
    (hread : readDocument .usual text = .ok d) :
    parseText limits text =
      (firstRepeated? (keyOccurrences .root d)).elim (parse limits d.collapse) .error := by
  have hscan : firstRepetition? d = firstRepeated? (keyOccurrences .root d) :=
    repetition?_eq_firstRepeated? d .root
  rw [parseText, if_neg (Nat.not_lt.mpr hlength), hread, ← hscan]
  dsimp only
  cases firstRepetition? d <;> rfl

/-- **A REPEATED KEY IS BLAMED**: a text within the limit on its length that reads
    as a document is refused if some object in it repeats a key, and the error is
    that of the first such key in reading order; otherwise the text is parsed like
    the document. -/
theorem parseText_blames_first_repeated {limits : Limits} {text : String} {d : Document}
    (hlength : text.utf8ByteSize ≤ limits.maxTextLength)
    (hread : readDocument .usual text = .ok d) :
    (d.RepeatsKey →
      ∃ before o after, keyOccurrences .root d = before ++ o :: after
        ∧ (∀ o ∈ before, ¬ o.Repeats) ∧ o.Repeats
        ∧ ∃ e, parseText limits text = .error e ∧ o.BlamedBy e)
      ∧ (¬ d.RepeatsKey → d.collapse = d ∧ parseText limits text = parse limits d) := by
  rw [parseText_eq_of_readDocument hlength hread, firstRepeated?]
  cases hfind : (keyOccurrences .root d).find? fun o => o.Repeats with
  | none =>
      have hnone : ¬ d.RepeatsKey := by
        rw [← exists_repeats_iff d .root]
        rintro ⟨o, ho, hrepeats⟩
        exact List.find?_eq_none.mp hfind o ho (decide_eq_true hrepeats)
      have hcollapse : d.collapse = d := collapse_eq_self hnone
      exact ⟨fun h => absurd h hnone, fun _ => ⟨hcollapse, by rw [hcollapse]; rfl⟩⟩
  | some o =>
      -- nothing in front of what is found repeats its key
      obtain ⟨hrepeats, before, after, hsplit, hbefore⟩ :=
        List.find?_eq_some_iff_append.mp hfind
      have ho : o ∈ keyOccurrences .root d := List.mem_of_find?_eq_some hfind
      refine ⟨fun _ => ⟨before, o, after, hsplit, fun b hb => ?_, of_decide_eq_true hrepeats,
        o.error, rfl, o.blamedBy_error⟩, fun h => ?_⟩
      · have := hbefore b hb
        rw [Bool.not_eq_true', decide_eq_false_iff_not] at this
        exact this
      · exact absurd ((exists_repeats_iff d .root).mp ⟨o, ho, of_decide_eq_true hrepeats⟩) h

/-- The key that repeats inside of the first `in` is read before the second `in`
    and the second `a`, though both take the place of its object. -/
theorem parseText_blames_first_repeated_inside :
    let text := "\x7b\"a\":\x7b\"in\":[\x7b\"k\":1,\"\\u006b\":2\x7d],\"in\":[3]\x7d,\"a\":0\x7d"
    let d : Document := .object [
      ("a", .object [("in", .array [.object [("k", .number "1"), ("k", .number "2")]]),
        ("in", .array [.number "3"])]),
      ("a", .number "0")]
    readDocument .usual text = .ok d ∧ d.RepeatsKey
      ∧ ∃ before o after, keyOccurrences .root d = before ++ o :: after
        ∧ (∀ o ∈ before, ¬ o.Repeats) ∧ o.Repeats
        ∧ ∃ e, parseText {} text = .error e ∧ o.BlamedBy e := by
  intro text d
  have hread : readDocument .usual text = .ok d := by decide +kernel
  have hrepeats : d.RepeatsKey := (exists_repeats_iff d .root).mp (by decide +kernel)
  exact ⟨hread, hrepeats, (parseText_blames_first_repeated (by decide +kernel) hread).1 hrepeats⟩

end Filter

end RecordFilter
