import RecordFilter.Proofs.DateSpellings
import RecordFilter.Proofs.IntegerTexts
import RecordFilter.Proofs.WrittenValues

/-! # Reading literal texts again

    The literal text of a value is accepted at its type, and what is read from it is the same
    value: the same number of a decimal, at whatever scale its text has, and the same day and
    time.  Only a fraction of a second is lost, and a leap second within a minute, which a clock
    shows as the second behind it (`exists_reread`).

    A text that was coerced has neither, since no text of the strict format spells them
    (`DateTime.whole_of_read`).  So what was coerced from a text is coerced again from its
    own. -/

namespace RecordFilter

/-! ## Whole seconds -/

open Json

/-- What the strict format reads is a whole second, and one that a clock shows as no other. -/
theorem DateTime.whole_of_read {text : String} {t : DateTime} (h : DateTime.read text = .ok t) :
    t.time.fraction = 0 ∧ ¬ t.time.InnerLeap := by
  obtain ⟨day, clock, -, -, -, hwhole⟩ := Calendar.dateTime_read_ok_iff.mp h
  exact hwhole

/-- The text of a time is its own exactly if it is a whole second that a clock shows as no
    other. -/
theorem DateTime.wholeSecond_shown_eq_self_iff {t : DateTime} :
    t.wholeSecond.shown = t ↔ t.time.fraction = 0 ∧ ¬ t.time.InnerLeap := by
  constructor
  · intro h
    rw [← h]
    exact ⟨(TimeOfDay.shown_fraction _).trans (TimeOfDay.wholeSecond_fraction _),
      TimeOfDay.not_innerLeap_shown _⟩
  · rintro ⟨hzero, hinner⟩
    rw [DateTime.wholeSecond, TimeOfDay.wholeSecond_eq_self_iff.mpr hzero, DateTime.shown,
      TimeOfDay.shown_of_not_innerLeap hinner]

namespace Value

/-- A time with a fraction of a second. -/
def HasFraction (v : Value) : Prop := ∃ t, v = .dateTime t ∧ t.time.fraction ≠ 0

theorem hasFraction_dateTime_iff {t : DateTime} :
    (Value.dateTime t).HasFraction ↔ t.time.fraction ≠ 0 := by
  constructor
  · rintro ⟨u, hu, hne⟩
    rw [Value.dateTime.inj hu]
    exact hne
  · intro hne
    exact ⟨t, rfl, hne⟩

/-- A value that its literal text tells apart from all others of its type: it has neither a
    fraction of a second nor a leap second within a minute. -/
def IsWhole (v : Value) : Prop := ¬ v.HasFraction ∧ ¬ v.HasInnerLeap

theorem isWhole_dateTime_iff {t : DateTime} :
    (Value.dateTime t).IsWhole ↔ t.time.fraction = 0 ∧ ¬ t.time.InnerLeap := by
  rw [IsWhole, hasFraction_dateTime_iff, hasInnerLeap_dateTime_iff, not_not]

theorem isWhole_of_fieldType {v : Value} (h : v.fieldType ≠ .dateTime) : v.IsWhole := by
  refine ⟨?_, not_hasInnerLeap_of_fieldType h⟩
  rintro ⟨t, rfl, -⟩
  exact h rfl

/-- What is read from the literal text of a value: the same value, but for the fraction of a
    second and what a clock does not show. -/
structure RereadAs (v w : Value) : Prop where
  read : v.fieldType.coerceText v.literalText = .ok w
  same_iff : v.same w = true ↔ v.IsWhole
  wholeSecond : ∀ t, v = .dateTime t → w = .dateTime t.wholeSecond.shown

/-- Values of all types but one have no second to lose anything of. -/
theorem RereadAs.of_same {v w : Value} (hkind : (v.fieldType == .dateTime) = false)
    (hread : v.fieldType.coerceText v.literalText = .ok w) (hsame : v.same w = true) :
    v.RereadAs w := by
  have htype := ne_of_beq_false hkind
  refine ⟨hread, iff_of_true hsame (isWhole_of_fieldType htype), ?_⟩
  rintro t rfl
  exact absurd rfl htype

/-- **LITERAL TEXTS READ BACK** as the same value, but for the fraction of a second and what a
    clock does not show. -/
theorem exists_reread {v : Value} (hv : v.fieldType ≠ .float) : ∃ w, v.RereadAs w := by
  cases v with
  | int32 m =>
      have hread := FieldType.coerceText_int32_ok_iff.mpr (integerSpelling_integerText m.toInt)
      exact ⟨_, .of_same rfl hread (beq_self_eq_true m)⟩
  | int64 m =>
      have hread := FieldType.coerceText_int64_ok_iff.mpr (integerSpelling_integerText m.toInt)
      exact ⟨_, .of_same rfl hread (beq_self_eq_true m)⟩
  | decimal d =>
      -- the text may have lost the scale, not the number
      obtain ⟨e, hread, hsame⟩ := Decimal.read_text d
      exact ⟨_, .of_same rfl (FieldType.coerceText_decimal_ok_iff.mpr hread) hsame⟩
  | float x => exact absurd rfl hv
  | text s => exact ⟨_, .of_same rfl rfl (beq_self_eq_true s)⟩
  | bool b =>
      have hread : FieldType.bool.coerceText (boolText b) = .ok (.bool b) := by cases b <;> rfl
      exact ⟨_, .of_same rfl hread (beq_self_eq_true b)⟩
  | date d =>
      have hread : FieldType.date.coerceText d.text = .ok (.date d) := by
        rw [FieldType.coerceText_ok_iff, FieldType.readValue, Date.read_text]
        rfl
      exact ⟨_, .of_same rfl hread (beq_self_eq_true d)⟩
  | dateTime t =>
      have hread :
          FieldType.dateTime.coerceText t.text = .ok (.dateTime t.wholeSecond.shown) := by
        rw [FieldType.coerceText_ok_iff, FieldType.readValue, DateTime.read_text]
        rfl
      refine ⟨_, hread, ?_, fun u hu => by rw [Value.dateTime.inj hu]⟩
      rw [isWhole_dateTime_iff, ← DateTime.wholeSecond_shown_eq_self_iff]
      exact beq_iff_eq.trans eq_comm

/-- A coerced value has no fraction of a second, and is no leap second within a minute. -/
theorem isWhole_of_coerceText_ok {t : FieldType} {text : String} {v : Value}
    (h : t.coerceText text = .ok v) : v.IsWhole := by
  obtain ⟨htype, -⟩ := FieldType.of_coerceText_ok h
  by_cases ht : t = .dateTime
  · subst ht
    obtain ⟨u, hread, rfl⟩ := exists_of_mapError_map_ok (FieldType.coerceText_ok_iff.mp h)
    exact isWhole_dateTime_iff.mpr (DateTime.whole_of_read hread)
  · exact isWhole_of_fieldType (htype.trans_ne ht)

end Value

end RecordFilter
