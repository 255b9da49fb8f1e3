import Mathlib.Tactic.SplitIfs
import RecordFilter.Json.Form
import RecordFilter.Proofs.Nesting

/-! # What a form has read

    A form that succeeds has read all that its result is made of: the items of a
    sequence and the fields of a record, whichever way the record was written,
    each of them inside of the bracket that the form has opened. -/

namespace RecordFilter.Json

variable {ε α β γ : Type} {room : Room} {r : Reading}

/-- A value of the wrong kind is always refused, be it for its kind or for a fault. -/
theorem wrongType_ne_ok (r : Reading) (expected : String) (a : α) :
    wrongType r expected ≠ .ok a := by
  rw [wrongType]
  cases r.found with
  | error fault => exact nofun
  | ok found => exact nofun

/-! ## Sequences -/

/-- Every item of a sequence that is read has been read itself. -/
theorem mem_of_readSequence {item : Form α} {rs : List Reading} {as : List α}
    (h : readSequence item room rs = .ok as) : ∀ a ∈ as, ∃ r, item room r = .ok a := by
  induction rs generalizing as with
  | nil =>
      obtain rfl := Except.ok.inj h
      exact fun _ ha => nomatch ha
  | cons r rest ih =>
      rw [readSequence] at h
      obtain ⟨a, ha, h⟩ := bind_eq_ok h
      obtain ⟨rest', hrest, h⟩ := bind_eq_ok h
      obtain rfl := Except.ok.inj h
      intro x hx
      rcases List.mem_cons.mp hx with rfl | hx
      · exact ⟨r, ha⟩
      · exact ih hrest x hx

/-- A sequence is read inside of a bracket, item by item. -/
theorem of_sequenceForm {item : Form α} {as : List α}
    (h : sequenceForm item room r = .ok as) :
    ∃ inner, room.enter = .ok inner ∧ ∀ a ∈ as, ∃ r, item inner r = .ok a := by
  cases r with
  | array items ending =>
      rw [sequenceForm] at h
      obtain ⟨inner, henter, h⟩ := bind_eq_ok h
      obtain ⟨as', has, h⟩ := bind_eq_ok h
      obtain ⟨_, _, h⟩ := bind_eq_ok h
      obtain rfl := Except.ok.inj h
      exact ⟨inner, ofFault_eq_ok henter, mem_of_readSequence has⟩
  | _ =>
      simp only [sequenceForm] at h
      exact absurd h (wrongType_ne_ok _ _ _)

/-! ## Records -/

/-- What the fields of a record keep, all of them keep. -/
theorem readFields_induct {σ : Type} {field : Room → σ → String → Reading → Except Error σ}
    {P : σ → Prop} (hfield : ∀ s name r s', P s → field room s name r = .ok s' → P s')
    {rs : List (Label × Reading)} {s s' : σ} (hs : P s)
    (h : readFields field room s rs = .ok s') : P s' := by
  induction rs generalizing s with
  | nil =>
      obtain rfl := Except.ok.inj h
      exact hs
  | cons entry rest ih =>
      obtain ⟨label, r⟩ := entry
      rw [readFields] at h
      obtain ⟨name, -, h⟩ := bind_eq_ok h
      obtain ⟨t, ht, h⟩ := bind_eq_ok h
      exact ih (hfield s name r t hs ht) h

/-- A field that is read once, or was read before. -/
theorem of_readOnce {name : String} {form : Form α} {before after : Option α}
    (h : readOnce name form room before r = .ok after) :
    ∃ a, after = some a ∧ form room r = .ok a := by
  cases before with
  | some a => exact nomatch h
  | none =>
      obtain ⟨a, ha, rfl⟩ := map_eq_ok h
      exact ⟨a, rfl, ha⟩

theorem of_required {name : String} {field : Option α} {a : α}
    (h : required name field = .ok a) : field = some a := by
  cases field with
  | none => exact nomatch h
  | some b => exact congrArg some (Except.ok.inj h)

/-- The value of a field, if it has been read, is what the form makes of some
    reading. -/
def FieldRead (form : Form α) (room : Room) (field : Option α) : Prop :=
  ∀ a, field = some a → ∃ r, form room r = .ok a

theorem fieldRead_none (form : Form α) (room : Room) : FieldRead form room none :=
  fun _ h => nomatch h

/-- A field that was just read is what the form makes of a reading. -/
theorem fieldRead_of_readOnce {name : String} {form : Form α} {before after : Option α}
    (h : readOnce name form room before r = .ok after) : FieldRead form room after := by
  obtain ⟨a, rfl, ha⟩ := of_readOnce h
  rintro _ ⟨⟩
  exact ⟨r, ha⟩

/-- A record is read from an object or from an array, inside of its bracket. -/
theorem of_record {σ : Type} {form : RecordForm σ α} {a : α} (h : form.read room r = .ok a) :
    ∃ inner, room.enter = .ok inner
      ∧ ((∃ entries state, readFields form.field inner form.start entries = .ok state
            ∧ form.finish state = .ok a)
        ∨ ∃ items ending rest, form.items inner items ending = .ok (a, rest)) := by
  cases r with
  | object entries ending =>
      rw [RecordForm.read] at h
      obtain ⟨inner, henter, h⟩ := bind_eq_ok h
      obtain ⟨state, hstate, h⟩ := bind_eq_ok h
      obtain ⟨_, _, h⟩ := bind_eq_ok h
      exact ⟨inner, ofFault_eq_ok henter, Or.inl ⟨entries, state, hstate, h⟩⟩
  | array items ending =>
      rw [RecordForm.read] at h
      obtain ⟨inner, henter, h⟩ := bind_eq_ok h
      obtain ⟨⟨b, rest⟩, hitems, h⟩ := bind_eq_ok h
      obtain ⟨_, _, h⟩ := bind_eq_ok h
      obtain rfl := Except.ok.inj h
      exact ⟨inner, ofFault_eq_ok henter, Or.inr ⟨items, ending, rest, hitems⟩⟩
  | _ =>
      simp only [RecordForm.read] at h
      exact absurd h (wrongType_ne_ok _ _ _)

theorem tooShort_ne_ok (length : Nat) (expected : String) (ending : Ending) (a : α) :
    tooShort length expected ending ≠ .ok a := by
  cases ending with
  | closed => exact nofun
  | broken b => exact nofun

/-- **A RECORD OF ONE FIELD** is made of what was read for this field, however it was written. -/
theorem of_oneField {expected name : String} {form : Form α} {make : α → β} {b : β}
    (h : (oneField expected name form make).read room r = .ok b) :
    ∃ inner, room.enter = .ok inner ∧ ∃ r a, form inner r = .ok a ∧ b = make a := by
  obtain ⟨inner, henter, ⟨entries, state, hstate, hfinish⟩ | ⟨items, ending, rest, hitems⟩⟩ :=
    of_record h
  -- from an object: an entry of another name leaves the state alone
  · have hread : FieldRead form inner state := by
      refine readFields_induct (fun s key r s' hs h => ?_) (fieldRead_none _ _) hstate
      simp only [oneField] at h
      split_ifs at h
      · exact fieldRead_of_readOnce h
      · obtain ⟨_, -, rfl⟩ := map_eq_ok h
        exact hs
    obtain ⟨a, ha, rfl⟩ := map_eq_ok hfinish
    obtain ⟨r, hr⟩ := hread a (of_required ha)
    exact ⟨inner, henter, r, a, hr, rfl⟩
  -- from an array: its first item is the field
  · cases items with
    | nil => exact absurd hitems (tooShort_ne_ok _ _ _ _)
    | cons r rest =>
        obtain ⟨a, ha, heq⟩ := map_eq_ok hitems
        exact ⟨inner, henter, r, a, ha, (congrArg Prod.fst heq).symm⟩

/-- **A RECORD OF TWO FIELDS** is made of what was read for both, in whichever order and however
    they were written. -/
theorem of_twoFields {expected name₁ name₂ : String} {form₁ : Form α} {form₂ : Form β}
    {make : α → β → γ} {c : γ}
    (h : (twoFields expected name₁ form₁ name₂ form₂ make).read room r = .ok c) :
    ∃ inner, room.enter = .ok inner ∧ ∃ r₁ a r₂ b, form₁ inner r₁ = .ok a
      ∧ form₂ inner r₂ = .ok b ∧ c = make a b := by
  obtain ⟨inner, henter, ⟨entries, state, hstate, hfinish⟩ | ⟨items, ending, rest, hitems⟩⟩ :=
    of_record h
  -- from an object: each entry sets one of the two, or neither
  · have hread : FieldRead form₁ inner state.1 ∧ FieldRead form₂ inner state.2 := by
      refine readFields_induct
        (P := fun s => FieldRead form₁ inner s.1 ∧ FieldRead form₂ inner s.2)
        (fun s key r s' hs h => ?_) ⟨fieldRead_none _ _, fieldRead_none _ _⟩ hstate
      simp only [twoFields] at h
      split_ifs at h
      · obtain ⟨_, hread, rfl⟩ := map_eq_ok h
        exact ⟨fieldRead_of_readOnce hread, hs.2⟩
      · obtain ⟨_, hread, rfl⟩ := map_eq_ok h
        exact ⟨hs.1, fieldRead_of_readOnce hread⟩
      · obtain ⟨_, -, rfl⟩ := map_eq_ok h
        exact hs
    obtain ⟨a, ha, hfinish⟩ := bind_eq_ok hfinish
    obtain ⟨b, hb, hfinish⟩ := bind_eq_ok hfinish
    obtain ⟨r₁, hr₁⟩ := hread.1 a (of_required ha)
    obtain ⟨r₂, hr₂⟩ := hread.2 b (of_required hb)
    exact ⟨inner, henter, r₁, a, r₂, b, hr₁, hr₂, (Except.ok.inj hfinish).symm⟩
  -- from an array: its first two items are the fields
  · cases items with
    | nil => exact absurd hitems (tooShort_ne_ok _ _ _ _)
    | cons r₁ items =>
        obtain ⟨a, ha, hitems⟩ := bind_eq_ok hitems
        cases items with
        | nil => exact absurd hitems (tooShort_ne_ok _ _ _ _)
        | cons r₂ rest =>
            obtain ⟨b, hb, heq⟩ := bind_eq_ok hitems
            exact ⟨inner, henter, r₁, a, r₂, b, ha, hb,
              (congrArg Prod.fst (Except.ok.inj heq)).symm⟩

/-! ## Records that gather differently -/

/-- `image` reads a record as `form` does, and gathers the image of what `form` gathers: under
    `f` along the way and under `g` in the end. -/
structure RecordForm.Hom {σ τ : Type} (form : RecordForm σ α) (image : RecordForm τ β)
    (f : σ → τ) (g : α → β) : Prop where
  expected : image.expected = form.expected
  start : image.start = f form.start
  field : ∀ room state name r,
    image.field room (f state) name r = (form.field room state name r).map f
  finish : ∀ state, image.finish (f state) = (form.finish state).map g
  items : ∀ room rs ending,
    image.items room rs ending = (form.items room rs ending).map (Prod.map g id)

/-- Two readers of fields agree up to a function of their states if they do so field by field. -/
theorem readFields_map {σ τ : Type} {field : Room → σ → String → Reading → Except Error σ}
    {field' : Room → τ → String → Reading → Except Error τ} {f : σ → τ}
    (h : ∀ state name r, field' room (f state) name r = (field room state name r).map f)
    (state : σ) (rs : List (Label × Reading)) :
    readFields field' room (f state) rs = (readFields field room state rs).map f := by
  induction rs generalizing state with
  | nil => rfl
  | cons entry rs ih =>
      obtain ⟨label, r⟩ := entry
      cases label with
      | error fault => rfl
      | ok name =>
          show (field' room (f state) name r).bind _ = ((field room state name r).bind _).map f
          rw [h]
          cases field room state name r with
          | error e => rfl
          | ok state' => exact ih state'

/-- **A READING COMMUTES WITH WHAT IS GATHERED**: the image of a record, or the same error. -/
theorem RecordForm.Hom.read_map {σ τ : Type} {form : RecordForm σ α} {image : RecordForm τ β}
    {f : σ → τ} {g : α → β} (h : form.Hom image f g) (room : Room) (r : Reading) :
    image.read room r = (form.read room r).map g := by
  have hwrong : ∀ r : Reading, (wrongType r image.expected : Except Error β)
      = (wrongType r form.expected).map g := by
    intro r
    rw [h.expected, wrongType, wrongType]
    cases r.found <;> rfl
  cases r with
  | object entries ending =>
      rw [RecordForm.read, RecordForm.read]
      cases room.enter with
      | error fault => rfl
      | ok inner =>
          show (readFields image.field inner image.start entries).bind _
            = ((readFields form.field inner form.start entries).bind _).map g
          rw [h.start, readFields_map (h.field inner)]
          cases readFields form.field inner form.start entries with
          | error e => rfl
          | ok state =>
              cases ending with
              | broken b => rfl
              | closed => exact h.finish state
  | array items ending =>
      rw [RecordForm.read, RecordForm.read]
      cases room.enter with
      | error fault => rfl
      | ok inner =>
          show (image.items inner items ending).bind _
            = ((form.items inner items ending).bind _).map g
          rw [h.items]
          cases form.items inner items ending with
          | error e => rfl
          | ok read =>
              show (endOfArray read.2 ending).bind _ = ((endOfArray read.2 ending).bind _).map g
              cases endOfArray read.2 ending <;> rfl
  | _ =>
      simp only [RecordForm.read]
      exact hwrong _

/-- What is read of a text may be changed before or after the text has been checked to its end. -/
theorem TextReading.decode_map (t : TextReading) (read : Reading → Except Error α) (g : α → β) :
    t.decode (fun r => (read r).map g) = (t.decode read).map g := by
  rw [decode, decode]
  cases read t.value with
  | error e => rfl
  | ok a => cases t.trailing <;> rfl

end RecordFilter.Json
