import RecordFilter.Predicate.Form
import RecordFilter.Proofs.Alignment
import RecordFilter.Proofs.WrittenValues

/-! # Predicates survive their JSON form

    A predicate without floating point values is written as a document that reads
    back as the same predicate, if the reader has room for its brackets
    (`readsAs_toDocument`).  The times in it are read back as a clock shows them,
    so the same predicate it is if none of them is a leap second within a minute
    (`same_iff_of_aligned`); no text reads as a predicate with such a value
    (`not_hasInnerLeap_of_form`).  Whatever text a predicate has been read from, its own
    text nests no deeper (`nesting_le_of_form`): every bracket that is written
    stands for one that the form has opened.  So what has been read once can be
    written and read again. -/

namespace RecordFilter.Predicate

open Json Document

/-- The values with which a leaf compares a field. -/
def operands : Predicate → List Value
  | .comparison _ _ v => [v]
  | .membership _ _ vs => vs
  | .absence _ _ | .compound _ _ => []

/-- No value in the leaves of the predicate is a floating point number. -/
def FloatFree (p : Predicate) : Prop :=
  ∀ leaf ∈ p.leaves, ∀ v ∈ leaf.operands, v.fieldType ≠ .float

instance : DecidablePred FloatFree := fun p =>
  inferInstanceAs (Decidable (∀ leaf ∈ p.leaves, ∀ v ∈ leaf.operands, v.fieldType ≠ .float))

theorem floatFree_comparison {c : Comparison} {field : String} {v : Value} :
    FloatFree (.comparison c field v) ↔ v.fieldType ≠ .float := by
  simp [FloatFree, leaves, operands]

theorem floatFree_membership {negated : Bool} {field : String} {vs : List Value} :
    FloatFree (.membership negated field vs) ↔ ∀ v ∈ vs, v.fieldType ≠ .float := by
  simp [FloatFree, leaves, operands]

/-- A compound holds no float if none of its children does. -/
theorem floatFree_compound {k : Combinator} {ps : List Predicate} :
    FloatFree (.compound k ps) ↔ ∀ p ∈ ps, FloatFree p := by
  simp only [FloatFree, leaves, mem_leavesOfAll]
  constructor
  · intro h p hp leaf hleaf
    exact h leaf ⟨p, hp, hleaf⟩
  · rintro h leaf ⟨p, hp, hleaf⟩
    exact h p hp leaf hleaf

/-! ## Leap seconds within a minute -/

/-- Some value in the leaves of the predicate is a leap second within a minute. -/
def HasInnerLeap (p : Predicate) : Prop :=
  ∃ leaf ∈ p.leaves, ∃ v ∈ leaf.operands, v.HasInnerLeap

instance : DecidablePred HasInnerLeap := fun p =>
  inferInstanceAs (Decidable (∃ leaf ∈ p.leaves, ∃ v ∈ leaf.operands, v.HasInnerLeap))

/-- A comparison has a leap second within a minute if its value has. -/
theorem hasInnerLeap_comparison {c : Comparison} {field : String} {v : Value} :
    HasInnerLeap (.comparison c field v) ↔ v.HasInnerLeap := by
  simp [HasInnerLeap, leaves, operands]

/-- A set has one if one of its values has. -/
theorem hasInnerLeap_membership {negated : Bool} {field : String} {vs : List Value} :
    HasInnerLeap (.membership negated field vs) ↔ ∃ v ∈ vs, v.HasInnerLeap := by
  simp [HasInnerLeap, leaves, operands]

/-- A test of absence has no value at all. -/
theorem not_hasInnerLeap_absence (negated : Bool) (field : String) :
    ¬ HasInnerLeap (.absence negated field) := by
  simp [HasInnerLeap, leaves, operands]

/-- A compound has one if one of its children has. -/
theorem hasInnerLeap_compound {k : Combinator} {ps : List Predicate} :
    HasInnerLeap (.compound k ps) ↔ ∃ p ∈ ps, HasInnerLeap p := by
  simp only [HasInnerLeap, leaves, mem_leavesOfAll]
  constructor
  · rintro ⟨leaf, ⟨p, hp, hleaf⟩, hv⟩
    exact ⟨p, hp, leaf, hleaf, hv⟩
  · rintro ⟨p, hp, leaf, hleaf, hv⟩
    exact ⟨leaf, ⟨p, hp, hleaf⟩, hv⟩

/-- A set is equal to what is read back of it unless a leap second stands within a minute. -/
theorem sameValues_iff_of_shown {vs ws : List Value}
    (h : List.Forall₂ (fun v w => v.shown.same w = true) vs ws) :
    sameValues vs ws = true ↔ ∀ v ∈ vs, ¬ v.HasInnerLeap := by
  induction h with
  | nil => exact iff_of_true rfl fun _ hv => by cases hv
  | cons hv _ ih =>
      rw [sameValues, Bool.and_eq_true, ih, Value.same_iff_of_shown hv, List.forall_mem_cons]

/-- **WHAT A CLOCK LOSES**: a predicate whose values are shown as those of another is the same
    one exactly if no value is a leap second within a minute. -/
theorem same_iff_of_aligned {p q : Predicate}
    (h : Aligned (fun _ v w => v.shown.same w = true) p q) :
    p.same q = true ↔ ¬ p.HasInnerLeap := by
  induction p generalizing q with
  | comparison c field v =>
      cases h with
      | comparison hv => simp [same, hasInnerLeap_comparison, Value.same_iff_of_shown hv]
  | membership negated field vs =>
      cases h with
      | membership hvs => simp [same, hasInnerLeap_membership, sameValues_iff_of_shown hvs]
  | absence negated field =>
      cases h
      exact iff_of_true (by simp [same]) (not_hasInnerLeap_absence negated field)
  | compound k ps ih =>
      cases h with
      | @compound _ _ qs hps =>
          have hall : sameAll ps qs = true ↔ ∀ p ∈ ps, ¬ p.HasInnerLeap := by
            -- the comparison goes through both lists, as the relation does
            induction hps with
            | nil => exact iff_of_true (by rw [sameAll]) fun _ hp => by cases hp
            | @cons p q ps qs hp _ ihs =>
                rw [sameAll, Bool.and_eq_true, ih p (List.mem_cons_self ..) hp,
                  ihs fun x hx => ih x (List.mem_cons_of_mem _ hx), List.forall_mem_cons]
          simp [same, hasInnerLeap_compound, hall]

/-! ## The forms of variants -/

/-- Reads what stands under the key of a variant. -/
def variantForm : Variant → Form Predicate
  | .comparison c => comparisonForm c
  | .membership negated => membershipForm negated
  | .absence negated => absenceForm negated
  | .compound k => fun room r => (sequenceForm form room r).map (Predicate.compound k)

/-- One by one, the children of a compound are read the way the items of every sequence are. -/
theorem forms_eq_readSequence (room : Room) (rs : List Reading) :
    forms room rs = readSequence form room rs := by
  induction rs with
  | nil => rw [forms, readSequence]
  | cons r rest ih => rw [forms, readSequence, ih]

/-- The children of a compound are read as a sequence of predicates. -/
theorem children_eq_sequenceForm (room : Room) (r : Reading) :
    children room r = sequenceForm form room r := by
  cases r with
  | array items ending =>
      rw [children, sequenceForm]
      simp only [forms_eq_readSequence]
  | _ => rw [children.eq_def, sequenceForm.eq_def]

/-- A predicate in an object is read by its first key, behind which nothing may
    stand. -/
theorem form_object (room : Room) (label : Label) (r : Reading) (rest : List (Label × Reading))
    (ending : Ending) :
    form room (.object ((label, r) :: rest) ending)
      = (ofFault room.enter).bind fun room => (ofFault label).bind fun name =>
          (variantName Variant.table name).bind fun v => (variantForm v room r).bind fun p =>
            (endOfVariant rest ending).bind fun _ => .ok p := by
  rw [form]
  refine congrArg (Except.bind _) (funext fun room => ?_)
  refine congrArg (Except.bind _) (funext fun name => ?_)
  refine congrArg (Except.bind _) (funext fun v => ?_)
  cases v with
  | comparison c => rfl
  | membership negated => rfl
  | absence negated => rfl
  | compound k =>
      rw [children_eq_sequenceForm]
      rfl

/-- The key that a variant is written with is the name that it is read by. -/
theorem variantName_table (v : Variant) : variantName Variant.table v.key = .ok v := by
  cases v with
  | comparison c => cases c <;> rfl
  | membership negated => cases negated <;> rfl
  | absence negated => cases negated <;> rfl
  | compound k => cases k <;> rfl

variable {room inner : Room}

/-- A predicate is read from its one entry if the body is read as its variant. -/
theorem readsAs_variant (v : Variant) {d : Document} {p : Predicate}
    (henter : room.enter = .ok inner) (h : ReadsAs (variantForm v) inner d p) :
    ReadsAs form room (.object [(v.key, d)]) p := by
  obtain ⟨r, hr, hread⟩ := h
  refine ⟨_, .object (.cons hr .nil), ?_⟩
  rw [form_object, henter]
  show ((variantName Variant.table v.key).bind fun v => (variantForm v inner r).bind _) = _
  rw [variantName_table]
  show (variantForm v inner r).bind _ = _
  rw [hread]
  rfl

/-- A predicate that is read stands under the key of its variant, inside of a
    bracket. -/
theorem variant_of_form {r : Reading} {p : Predicate} (h : form room r = .ok p) :
    ∃ inner, room.enter = .ok inner ∧ ∃ v r, variantForm v inner r = .ok p := by
  -- an object has the variant as its key, and a text names a variant that takes none
  cases r with
  | object entries ending =>
      cases entries with
      | nil =>
          obtain ⟨_, _, h⟩ := bind_eq_ok h
          cases ending <;> exact nomatch h
      | cons entry rest =>
          rw [form_object] at h
          obtain ⟨inner, henter, h⟩ := bind_eq_ok h
          obtain ⟨name, -, h⟩ := bind_eq_ok h
          obtain ⟨v, -, h⟩ := bind_eq_ok h
          obtain ⟨q, hq, h⟩ := bind_eq_ok h
          obtain ⟨_, _, h⟩ := bind_eq_ok h
          obtain rfl := Except.ok.inj h
          exact ⟨inner, ofFault_eq_ok henter, v, entry.2, hq⟩
  | string s =>
      rw [form] at h
      obtain ⟨name, -, h⟩ := bind_eq_ok h
      obtain ⟨v, -, h⟩ := bind_eq_ok h
      cases v <;> exact nomatch h
  | broken b =>
      rw [form.eq_def] at h
      exact nomatch h
  | _ =>
      rw [form.eq_def] at h
      exact nomatch h

/-! ## Lists that read back -/

theorem toDocuments_eq_map (ps : List Predicate) : toDocuments ps = ps.map toDocument := by
  induction ps with
  | nil => rfl
  | cons p rest ih => rw [toDocuments, ih, List.map_cons]

/-- Things that read back one by one read back in a sequence. -/
theorem exists_readsAs_all {α : Type} {item : Form α} {write : α → Document} {R : α → α → Prop}
    {as : List α} (h : ∀ a ∈ as, ∃ b, ReadsAs item inner (write a) b ∧ R a b) :
    ∃ bs, List.Forall₂ (ReadsAs item inner) (as.map write) bs ∧ List.Forall₂ R as bs := by
  induction as with
  | nil => exact ⟨[], .nil, .nil⟩
  | cons a as ih =>
      obtain ⟨b, hread, hb⟩ := h a (List.mem_cons_self ..)
      obtain ⟨bs, hreads, hbs⟩ := ih fun x hx => h x (List.mem_cons_of_mem _ hx)
      exact ⟨b :: bs, .cons hread hreads, .cons hb hbs⟩

/-- An array nests as deep as the deepest of its items. -/
theorem nestingOfItems_map_le_iff {α : Type} {write : α → Document} {as : List α} {n : Nat} :
    nestingOfItems (as.map write) ≤ n ↔ ∀ a ∈ as, (write a).nesting ≤ n := by
  induction as with
  | nil => exact iff_of_true (Nat.zero_le n) fun _ h => nomatch h
  | cons a as ih => rw [List.map_cons, nestingOfItems, Nat.max_le, ih, List.forall_mem_cons]

/-! ## The brackets of predicates -/

theorem nesting_comparison {c : Comparison} {field : String} {v : Value}
    (hv : v.fieldType ≠ .float) : (comparison c field v).toDocument.nesting = 3 := by
  simp only [toDocument, nesting, nestingOfEntries, Value.nesting_toDocument hv]
  rfl

/-- A set is written with three brackets around its values. -/
theorem nesting_membership (negated : Bool) (field : String) (vs : List Value) :
    (membership negated field vs).toDocument.nesting
      = nestingOfItems (vs.map Value.toDocument) + 3 := by
  simp only [toDocument, nesting, nestingOfEntries]
  omega

theorem nesting_absence (negated : Bool) (field : String) :
    (absence negated field).toDocument.nesting = 2 := rfl

/-- A compound is written with two brackets around its children. -/
theorem nesting_compound (k : Combinator) (ps : List Predicate) :
    (compound k ps).toDocument.nesting = nestingOfItems (ps.map toDocument) + 2 := by
  simp only [toDocument, toDocuments_eq_map, nesting, nestingOfEntries]
  omega

/-! ## Writing and reading -/

/-- **PREDICATES READ BACK** if there is room for their brackets, with their values as a clock
    shows them. -/
theorem readsAs_toDocument {p : Predicate} (hp : FloatFree p) :
    ∀ n, p.toDocument.nesting ≤ n →
      ∃ q, ReadsAs form (.atMost n) p.toDocument q
        ∧ Aligned (fun _ v w => v.shown.same w = true) p q := by
  induction p with
  | comparison c field v =>
      intro n hn
      have hv := floatFree_comparison.mp hp
      -- what is written takes three brackets: of the predicate, its body and its value
      rw [nesting_comparison hv] at hn
      obtain ⟨m, rfl⟩ := Nat.exists_eq_add_of_le' hn
      have henter : (Room.atMost (m + 1)).enter = .ok (.atMost m) := rfl
      obtain ⟨w, hread, hsame⟩ := Value.readsAs_toDocument hv henter
      refine ⟨.comparison c field w, ?_, .comparison hsame⟩
      rw [toDocument]
      exact readsAs_variant (.comparison c) rfl
        (readsAs_twoFields (by decide) rfl (readsAs_string _ _ field) hread)
  | membership negated field vs =>
      intro n hn
      have hvs := floatFree_membership.mp hp
      rw [nesting_membership] at hn
      obtain ⟨m, rfl⟩ := Nat.exists_eq_add_of_le' (Nat.le_trans (Nat.le_add_left 3 _) hn)
      have hroom := nestingOfItems_map_le_iff.mp (Nat.le_of_add_le_add_right hn)
      obtain ⟨ws, hreads, hsame⟩ : ∃ ws,
          List.Forall₂ (ReadsAs Value.form (.atMost m)) (vs.map Value.toDocument) ws
            ∧ List.Forall₂ (fun v w => v.shown.same w = true) vs ws := by
        refine exists_readsAs_all fun v hv => ?_
        -- an empty set needs no room for values, so each value tells of its own
        have hone := hroom v hv
        rw [Value.nesting_toDocument (hvs v hv)] at hone
        obtain ⟨k, rfl⟩ := Nat.exists_eq_add_of_le' hone
        exact Value.readsAs_toDocument (hvs v hv) rfl
      refine ⟨.membership negated field ws, ?_, .membership hsame⟩
      rw [toDocument]
      exact readsAs_variant (.membership negated) rfl
        (readsAs_twoFields (by decide) rfl (readsAs_string _ _ field)
          (readsAs_sequence rfl hreads))
  | absence negated field =>
      intro n hn
      obtain ⟨m, rfl⟩ := Nat.exists_eq_add_of_le' hn
      refine ⟨.absence negated field, ?_, .absence⟩
      rw [toDocument]
      exact readsAs_variant (.absence negated) rfl
        (readsAs_oneField rfl (readsAs_string _ _ field))
  | compound k ps ih =>
      intro n hn
      have hps := floatFree_compound.mp hp
      rw [nesting_compound] at hn
      obtain ⟨m, rfl⟩ := Nat.exists_eq_add_of_le' (Nat.le_trans (Nat.le_add_left 2 _) hn)
      have hroom := nestingOfItems_map_le_iff.mp (Nat.le_of_add_le_add_right hn)
      obtain ⟨qs, hreads, hsame⟩ := exists_readsAs_all fun p hp =>
        ih p hp (hps p hp) m (hroom p hp)
      refine ⟨.compound k qs, ?_, .compound hsame⟩
      rw [toDocument, toDocuments_eq_map]
      exact readsAs_variant (.compound k) rfl
        ((readsAs_sequence rfl hreads).map (Predicate.compound k))

/-! ## What has been read -/

/-- What has been read for the content of a predicate, and in which room. -/
def ContentRead (room : Room) : Predicate → Prop
  | .comparison _ _ v =>
      ∃ inner, room.enter = .ok inner ∧ ∃ r, Value.form inner r = .ok v
  | .membership _ _ vs =>
      ∃ inner, room.enter = .ok inner ∧ ∃ r, sequenceForm Value.form inner r = .ok vs
  | .absence _ _ => ∃ inner, room.enter = .ok inner
  | .compound _ ps => ∃ r, sequenceForm form room r = .ok ps

/-- The body of a variant is read without its outer bracket, whichever variant it is. -/
theorem contentRead_of_variantForm {v : Variant} {r : Reading} {p : Predicate}
    (h : variantForm v room r = .ok p) : ContentRead room p := by
  cases v with
  | comparison c =>
      obtain ⟨inner, henter, _, field, r, v, -, hv, rfl⟩ := of_twoFields h
      exact ⟨inner, henter, r, hv⟩
  | membership negated =>
      obtain ⟨inner, henter, _, field, r, vs, -, hvs, rfl⟩ := of_twoFields h
      exact ⟨inner, henter, r, hvs⟩
  | absence negated =>
      obtain ⟨inner, henter, _, field, -, rfl⟩ := of_oneField h
      exact ⟨inner, henter⟩
  | compound k =>
      obtain ⟨ps, hps, rfl⟩ := map_eq_ok h
      exact ⟨r, hps⟩

/-- Every predicate that is read stands inside of one bracket, its own. -/
theorem contentRead_of_form {n : Nat} {r : Reading} {p : Predicate}
    (h : form (.atMost n) r = .ok p) : ∃ m, n = m + 1 ∧ ContentRead (.atMost m) p := by
  obtain ⟨_, henter, v, _, h⟩ := variant_of_form h
  obtain ⟨m, rfl, rfl⟩ := Room.of_enter_atMost henter
  exact ⟨m, rfl, contentRead_of_variantForm h⟩

/-- **READ PREDICATES NEST NO DEEPER** than the room in which they were read. -/
theorem nesting_le_of_form {p : Predicate} (hp : FloatFree p) :
    ∀ n r, form (.atMost n) r = .ok p → p.toDocument.nesting ≤ n := by
  induction p with
  | comparison c field v =>
      intro n r h
      obtain ⟨m, rfl, _, henter, _, hv⟩ := contentRead_of_form h
      obtain ⟨m, rfl, rfl⟩ := Room.of_enter_atMost henter
      obtain ⟨_, henter⟩ := Value.enter_of_form hv
      obtain ⟨m, rfl, rfl⟩ := Room.of_enter_atMost henter
      -- each of the three brackets was opened in the room of the one before
      rw [nesting_comparison (floatFree_comparison.mp hp)]
      exact Nat.le_add_left 3 m
  | membership negated field vs =>
      intro n r h
      obtain ⟨m, rfl, _, henter, _, hvs⟩ := contentRead_of_form h
      obtain ⟨m, rfl, rfl⟩ := Room.of_enter_atMost henter
      obtain ⟨_, henter, hvs⟩ := of_sequenceForm hvs
      obtain ⟨m, rfl, rfl⟩ := Room.of_enter_atMost henter
      rw [nesting_membership]
      refine Nat.add_le_add_right (nestingOfItems_map_le_iff.mpr fun v hv => ?_) 3
      obtain ⟨_, hread⟩ := hvs v hv
      obtain ⟨_, henter⟩ := Value.enter_of_form hread
      obtain ⟨m, rfl, rfl⟩ := Room.of_enter_atMost henter
      rw [Value.nesting_toDocument (floatFree_membership.mp hp v hv)]
      exact Nat.le_add_left 1 m
  | absence negated field =>
      intro n r h
      obtain ⟨m, rfl, _, henter⟩ := contentRead_of_form h
      obtain ⟨m, rfl, rfl⟩ := Room.of_enter_atMost henter
      rw [nesting_absence]
      exact Nat.le_add_left 2 m
  | compound k ps ih =>
      intro n r h
      obtain ⟨m, rfl, _, hps⟩ := contentRead_of_form h
      obtain ⟨_, henter, hps⟩ := of_sequenceForm hps
      obtain ⟨m, rfl, rfl⟩ := Room.of_enter_atMost henter
      have hfree := floatFree_compound.mp hp
      rw [nesting_compound]
      refine Nat.add_le_add_right (nestingOfItems_map_le_iff.mpr fun p hp => ?_) 2
      obtain ⟨r, hread⟩ := hps p hp
      exact ih p hp (hfree p hp) m r hread

/-- A predicate whose text nests no deeper than the reader allows reads back from it. -/
theorem exists_ofText_toText {p : Predicate} (hp : FloatFree p)
    (hn : p.toDocument.nesting ≤ 127) :
    ∃ q, ofText p.toText = .ok q ∧ Aligned (fun _ v w => v.shown.same w = true) p q
      ∧ (p.same q = true ↔ ¬ p.HasInnerLeap) := by
  obtain ⟨q, hread, hshown⟩ := readsAs_toDocument hp 127 hn
  exact ⟨q, hread.decode, hshown, same_iff_of_aligned hshown⟩

/-- What has been read from a text nests no deeper than the reader allows. -/
theorem nesting_le_of_ofText {p : Predicate} {text : String} (hp : FloatFree p)
    (h : ofText text = .ok p) : p.toDocument.nesting ≤ 127 :=
  nesting_le_of_form hp 127 _ (TextReading.decode_eq_ok_iff.mp h).1

end RecordFilter.Predicate
