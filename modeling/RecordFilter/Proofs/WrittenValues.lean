import RecordFilter.Proofs.ReadForms
import RecordFilter.Proofs.WrittenDates
import RecordFilter.Proofs.WrittenForms
import RecordFilter.Proofs.WrittenNumbers
import RecordFilter.Value.Form

/-! # Reading written values

    A value that is written as JSON reads back as the same value, and takes one
    bracket; floating point numbers are left out, whose texts are not exact
    numerals.  A time is read back as a clock shows it, and a leap second within
    a minute is the one value that is lost in this way: whatever text a value is
    read from, it is none (`not_hasInnerLeap_of_form`).  Only a value inside of a
    bracket is ever read. -/

namespace RecordFilter.Value

open Json

variable {room inner : Room}

/-! ## What a clock shows -/

/-- A leap second within a minute, which is written like the second behind it. -/
def HasInnerLeap (v : Value) : Prop := ∃ t, v = .dateTime t ∧ t.time.InnerLeap

theorem hasInnerLeap_dateTime_iff {t : DateTime} :
    (Value.dateTime t).HasInnerLeap ↔ t.time.InnerLeap := by
  constructor
  · rintro ⟨u, hu, hinner⟩
    rw [Value.dateTime.inj hu]
    exact hinner
  · intro hinner
    exact ⟨t, rfl, hinner⟩

instance : DecidablePred HasInnerLeap
  | .dateTime _ => decidable_of_iff _ hasInnerLeap_dateTime_iff.symm
  | .int32 _ | .int64 _ | .decimal _ | .float _ | .text _ | .bool _ | .date _ =>
      isFalse (by rintro ⟨_, h, -⟩; cases h)

/-- The value as a clock shows it. -/
def shown : Value → Value
  | .dateTime t => .dateTime t.shown
  | v => v

/-- What is the same as a clock shows it is the same, but for a leap second within a minute. -/
theorem same_iff_of_shown {v w : Value} (h : v.shown.same w = true) :
    v.same w = true ↔ ¬ v.HasInnerLeap := by
  cases v with
  | dateTime t =>
      cases w with
      | dateTime u =>
          obtain rfl : t.shown = u := beq_iff_eq.mp h
          rw [hasInnerLeap_dateTime_iff, ← TimeOfDay.shown_eq_self_iff]
          show (t == t.shown) = true ↔ _
          rw [beq_iff_eq]
          exact ⟨fun heq => (congrArg DateTime.time heq).symm,
            fun heq => by rw [DateTime.shown, heq]⟩
      | _ => cases h
  | _ =>
      refine iff_of_true h ?_
      rintro ⟨t, ht, -⟩
      cases ht

/-! ## Writing and reading -/

/-- The content of a value reads back at its type. -/
theorem readsAs_content (room : Room) {v : Value} (hv : v.fieldType ≠ .float) :
    ∃ w, ReadsAs (contentForm v.fieldType) room v.content w ∧ v.shown.same w = true := by
  cases v with
  | int32 n =>
      have hleast : -2 ^ 31 ≤ n.toInt := n.le_toInt
      have hlt : n.toInt < 2 ^ 31 := n.toInt_lt
      have hrange : (IntegerRange.signed 32).Contains n.toInt :=
        ⟨hleast, Int.le_sub_one_of_lt hlt⟩
      have hword : (IntegerRange.signed 64).Contains n.toInt :=
        ⟨Int.le_trans (by decide) hleast, Int.le_trans (Int.le_of_lt hlt) (by decide)⟩
      have h := (readsAs_integer room (contentName .int32) hrange hword).map fun i =>
        Value.int32 (Int32.ofInt i)
      rw [Int32.ofInt_toInt] at h
      exact ⟨_, h, beq_self_eq_true n⟩
  | int64 n =>
      have hrange : (IntegerRange.signed 64).Contains n.toInt :=
        ⟨n.le_toInt, Int.le_sub_one_of_lt n.toInt_lt⟩
      have h := (readsAs_integer room (contentName .int64) hrange hrange).map fun i =>
        Value.int64 (Int64.ofInt i)
      rw [Int64.ofInt_toInt] at h
      exact ⟨_, h, beq_self_eq_true n⟩
  | decimal d =>
      -- the scale may change, the number does not
      obtain ⟨e, hread, hsame⟩ := Decimal.read_text d
      refine ⟨.decimal e, ⟨_, .string _, ?_⟩, hsame⟩
      show decimalOf d.text = _
      rw [decimalOf, hread]
  | float x => exact absurd rfl hv
  | text s =>
      exact ⟨_, (readsAs_string room "a string" s).map Value.text, beq_self_eq_true s⟩
  | bool b => exact ⟨_, (readsAs_bool room b).map Value.bool, beq_self_eq_true b⟩
  | date d =>
      have hread : dateOf d.text = .ok (.date d) := by rw [dateOf, Date.readLoose_text]
      exact ⟨_, (readsAs_string room (contentName .date) d.text).bind hread, beq_self_eq_true d⟩
  | dateTime t =>
      have hread : dateTimeOf t.exactText = .ok (.dateTime t.shown) := by
        rw [dateTimeOf, DateTime.readLoose_exactText]
      exact ⟨_, (readsAs_string room (contentName .dateTime) t.exactText).bind hread,
        beq_self_eq_true t.shown⟩

/-- The name of a type is read as this type. -/
theorem variantName_typeNames (t : FieldType) : variantName typeNames t.name = .ok t := by
  cases t <;> rfl

/-- **VALUES READ BACK** inside of a bracket of their own, as a clock shows them. -/
theorem readsAs_toDocument {v : Value} (hv : v.fieldType ≠ .float)
    (henter : room.enter = .ok inner) :
    ∃ w, ReadsAs form room v.toDocument w ∧ v.shown.same w = true := by
  obtain ⟨w, ⟨r, hr, hread⟩, hsame⟩ := readsAs_content inner hv
  refine ⟨w, ⟨_, .object (.cons (.string _) (.cons hr .nil)), ?_⟩, hsame⟩
  rw [form, henter]
  show ((variantName typeNames v.fieldType.name).bind fun t =>
    (contentForm t inner r).bind fun v => .ok v) = _
  rw [variantName_typeNames]
  show ((contentForm v.fieldType inner r).bind fun v => .ok v) = _
  rw [hread]
  rfl

/-- The text of a value opens one bracket. -/
theorem nesting_toDocument {v : Value} (hv : v.fieldType ≠ .float) : v.toDocument.nesting = 1 := by
  cases v with
  | float x => exact absurd rfl hv
  | _ => rfl

/-! ## What has been read -/

/-- A value is only read where a bracket may be opened. -/
theorem enter_of_form {r : Reading} {v : Value} (h : form room r = .ok v) :
    ∃ inner, room.enter = .ok inner := by
  cases r with
  | object entries ending =>
      obtain ⟨inner, henter, -⟩ := bind_eq_ok h
      exact ⟨inner, ofFault_eq_ok henter⟩
  | array items ending =>
      obtain ⟨inner, henter, -⟩ := bind_eq_ok h
      exact ⟨inner, ofFault_eq_ok henter⟩
  | _ =>
      simp only [form] at h
      exact absurd h (wrongType_ne_ok _ _ _)

/-- Only a date with a time can be such a leap second. -/
theorem not_hasInnerLeap_of_fieldType {v : Value} (h : v.fieldType ≠ .dateTime) :
    ¬ v.HasInnerLeap := by
  rintro ⟨t, rfl, -⟩
  exact h rfl

end RecordFilter.Value
