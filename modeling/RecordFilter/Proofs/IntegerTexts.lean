import RecordFilter.Proofs.Building
import RecordFilter.Proofs.WrittenNumbers

/-! # Which texts are integers

    The reader of integers stops at the first thing that is wrong.  What it accepts can be
    said without it: one or more digits behind an optional sign, if they denote an integer of
    the range (`IntegerRange.read_ok_iff`).  So of two ranges each accepts what the other one
    does, as far as it holds the integer, and a decimal may be spelt like any integer. -/

namespace RecordFilter

/-- An integer is spelt by one or more digits behind an optional sign. -/
inductive IntegerSpelling : List Char → Int → Prop where
  | signed (negative : Bool) {s : List Char} : (∀ c ∈ s, c.isDigit = true) → s ≠ [] →
      IntegerSpelling (signChars negative ++ s) (withSign negative (ofDigits s))
  | plus {s : List Char} : (∀ c ∈ s, c.isDigit = true) → s ≠ [] →
      IntegerSpelling ('+' :: s) (ofDigits s)

/-- What is written for an integer is a spelling of it. -/
theorem integerSpelling_integerText (n : Int) : IntegerSpelling (integerText n).toList n := by
  have h := IntegerSpelling.signed (decide (n < 0))
    (fun _ => isDigit_of_mem_digitsOf) (digitsOf_ne_nil n.natAbs)
  rw [ofDigits_digitsOf, withSign_natAbs, signChars_decide] at h
  rw [integerText, String.toList_ofList]
  exact h

namespace IntegerRange

variable {range : IntegerRange} {negative : Bool} {s : List Char} {n : Int}

/-- What has a worth as a digit is a digit, and is worth its distance from `0`. -/
theorem isDigit_of_digit? {c : Char} {d : Nat} (h : digit? c = some d) :
    c.isDigit = true ∧ d = c.toNat - '0'.toNat := by
  by_cases hc : c.isDigit = true
  · exact ⟨hc, (Option.some.inj ((if_pos hc).symm.trans h)).symm⟩
  · exact nomatch (if_neg hc).symm.trans h

/-- What is read onto a number are digits, and every number on the way is in the range. -/
theorem of_readDigits_ok {soFar : Nat} (hsoFar : range.Contains (withSign negative soFar))
    (h : range.readDigits negative (withSign negative soFar) s = .ok n) :
    (∀ c ∈ s, c.isDigit = true) ∧ n = withSign negative (Nat.ofDigitChars 10 s soFar)
      ∧ range.Contains n := by
  induction s generalizing soFar with
  | nil =>
      obtain rfl := Except.ok.inj h
      exact ⟨List.forall_mem_nil _, rfl, hsoFar⟩
  | cons c s ih =>
      rw [readDigits] at h
      cases hdigit : digit? c with
      | none =>
          rw [hdigit] at h
          cases h
      | some d =>
          obtain ⟨hc, rfl⟩ := isDigit_of_digit? hdigit
          rw [hdigit] at h
          dsimp only at h
          rw [withSign_next] at h
          -- the next number is in the range, or the reader stops here
          split_ifs at h with hleast hgreatest
          obtain ⟨hs, hn, hrange⟩ := ih ⟨Int.not_lt.mp hleast, Int.not_lt.mp hgreatest⟩ h
          exact ⟨List.forall_mem_cons.mpr ⟨hc, hs⟩, by rw [hn, Nat.ofDigitChars_cons], hrange⟩

/-- What is read from zero on is a run of digits with its sign, and lies in the range. -/
theorem of_readDigits_zero_ok (hzero : range.Contains 0)
    (h : range.readDigits negative 0 s = .ok n) :
    (∀ c ∈ s, c.isDigit = true) ∧ n = withSign negative (ofDigits s) ∧ range.Contains n := by
  have hstart : withSign negative 0 = 0 := by cases negative <;> rfl
  rw [← hstart] at hzero h
  exact of_readDigits_ok hzero h

/-- **WHICH TEXTS ARE INTEGERS** of a range: the spellings of those that it holds. -/
theorem read_ok_iff (hzero : range.Contains 0) :
    range.read s = .ok n ↔ IntegerSpelling s n ∧ range.Contains n := by
  constructor
  · intro h
    -- no digits at all, a lone sign, or digits behind a plus, a minus or nothing
    rw [read.eq_def] at h
    split at h
    · exact nomatch h
    · exact nomatch h
    · exact nomatch h
    · next hne =>
        obtain ⟨hs, rfl, hrange⟩ := of_readDigits_zero_ok hzero h
        exact ⟨.plus hs hne, hrange⟩
    · next hne =>
        obtain ⟨hs, rfl, hrange⟩ := of_readDigits_zero_ok hzero h
        exact ⟨.signed true hs hne, hrange⟩
    · next hne _ _ _ _ =>
        obtain ⟨hs, rfl, hrange⟩ := of_readDigits_zero_ok hzero h
        exact ⟨.signed false hs hne, hrange⟩
  · rintro ⟨hspelling, hrange⟩
    cases hspelling with
    | signed negative hs hne => exact read_signed range negative hzero hs hne hrange
    | plus hs hne => exact read_plus range hzero hs hne hrange

/-- Integers of a width are read from the spellings of what they denote. -/
theorem map_read_ok_iff {α : Type} {ofInt : Int → α} {toInt : α → Int}
    (hzero : range.Contains 0) (hto : ∀ n, range.Contains n → toInt (ofInt n) = n)
    (hof : ∀ a, ofInt (toInt a) = a) (hrange : ∀ a, range.Contains (toInt a)) {a : α} :
    (range.read s).map ofInt = .ok a ↔ IntegerSpelling s (toInt a) := by
  constructor
  · intro h
    obtain ⟨n, hread, rfl⟩ := map_eq_ok h
    obtain ⟨hs, hn⟩ := (read_ok_iff hzero).mp hread
    rw [hto n hn]
    exact hs
  · intro h
    rw [(read_ok_iff hzero).mpr ⟨h, hrange a⟩]
    exact congrArg Except.ok (hof a)

theorem contains_int32 (m : Int32) : (signed 32).Contains m.toInt :=
  ⟨m.le_toInt, Int.le_sub_one_of_lt m.toInt_lt⟩

theorem contains_int64 (m : Int64) : (signed 64).Contains m.toInt :=
  ⟨m.le_toInt, Int.le_sub_one_of_lt m.toInt_lt⟩

/-- In the range of 32 bits no integer is wrapped around. -/
theorem toInt_ofInt_int32 {n : Int} (h : (signed 32).Contains n) : (Int32.ofInt n).toInt = n :=
  Int32.toInt_ofInt_of_le h.1 (Int.lt_of_le_sub_one h.2)

theorem toInt_ofInt_int64 {n : Int} (h : (signed 64).Contains n) : (Int64.ofInt n).toInt = n :=
  Int64.toInt_ofInt_of_le h.1 (Int.lt_of_le_sub_one h.2)

end IntegerRange

/-- **WHICH TEXTS ARE INTEGERS** of 32 bits: the spellings of these integers. -/
theorem readInt32_ok_iff {text : String} {m : Int32} :
    readInt32 text = .ok m ↔ IntegerSpelling text.toList m.toInt :=
  IntegerRange.map_read_ok_iff (by decide) (fun _ => IntegerRange.toInt_ofInt_int32)
    Int32.ofInt_toInt IntegerRange.contains_int32

/-- **WHICH TEXTS ARE INTEGERS** of 64 bits: the spellings of these integers. -/
theorem readInt64_ok_iff {text : String} {m : Int64} :
    readInt64 text = .ok m ↔ IntegerSpelling text.toList m.toInt :=
  IntegerRange.map_read_ok_iff (by decide) (fun _ => IntegerRange.toInt_ofInt_int64)
    Int64.ofInt_toInt IntegerRange.contains_int64

namespace Decimal

/-- A text without a point and without an exponent is read as a whole number. -/
theorem read_of_plain {s : List Char} {n : Int} (hne : s ≠ [])
    (hpoint : ∀ c ∈ s, (c != '.') = true) (hmark : ∀ c ∈ s, isExponentMark c = false)
    (hwhole : readWhole s = .ok n) : read (String.ofList s) = .ok (ofInt n) := by
  have hmarks : ∀ c ∈ s, (!isExponentMark c) = true := fun c hc => by rw [hmark c hc]; rfl
  have hexponent : readExponent s = .ok 0 := by
    rw [readExponent, List.dropWhile_eq_nil_iff.mpr hmarks]
  have hsplit : splitPoint s = (s, 0) := by
    rw [splitPoint, List.dropWhile_eq_nil_iff.mpr hpoint]
  rw [read, String.toList_ofList, hexponent, List.takeWhile_eq_self_iff.mpr hmarks]
  dsimp only
  rw [if_neg hne, readScaled, hsplit]
  dsimp only
  rw [dif_pos (by decide : (IntegerRange.signed 64).Contains ((0 : Nat) - 0)), hwhole]
  rfl

/-- **INTEGERS ARE DECIMALS** however they are spelt. -/
theorem read_of_integerSpelling {text : String} {n : Int}
    (h : IntegerSpelling text.toList n) : read text = .ok (ofInt n) := by
  rw [← String.ofList_toList (s := text)]
  generalize text.toList = s at h
  -- nothing in such a text can be taken for a point or an exponent mark
  have hplain : ∀ c ∈ s, c.isDigit = true ∨ c = '-' ∨ c = '+' := by
    intro c hc
    cases h with
    | signed negative hs hne =>
        rcases List.mem_append.mp hc with hc | hc
        · cases negative with
          | true => exact Or.inr (Or.inl (List.mem_singleton.mp hc))
          | false => exact nomatch hc
        · exact Or.inl (hs c hc)
    | plus hs hne =>
        rcases List.mem_cons.mp hc with rfl | hc
        · exact Or.inr (Or.inr rfl)
        · exact Or.inl (hs c hc)
  refine read_of_plain ?_ ?_ ?_ ?_
  · cases h with
    | signed negative hs hne => exact List.append_ne_nil_of_right_ne_nil _ hne
    | plus hs hne => exact List.cons_ne_nil _ _
  · intro c hc
    rcases hplain c hc with hc | rfl | rfl
    · exact bne_iff_ne.mpr (ne_of_isDigit hc rfl)
    · rfl
    · rfl
  · intro c hc
    rcases hplain c hc with hc | rfl | rfl
    · exact isExponentMark_eq_false (Or.inl hc)
    · rfl
    · rfl
  · cases h with
    | signed negative hs hne => exact readWhole_signed negative hs hne
    | plus hs hne =>
        rw [readWhole, readMagnitude_digits hs hne]
        rfl

end Decimal

namespace FieldType

/-- Coercion to 32 bits takes the spellings of the integer. -/
theorem coerceText_int32_ok_iff {text : String} {m : Int32} :
    int32.coerceText text = .ok (.int32 m) ↔ IntegerSpelling text.toList m.toInt := by
  rw [coerceText_ok_iff, ← readInt32_ok_iff]
  exact mapError_map_eq_ok_iff fun _ => Value.int32.inj

/-- Coercion to 64 bits takes the spellings of the integer. -/
theorem coerceText_int64_ok_iff {text : String} {m : Int64} :
    int64.coerceText text = .ok (.int64 m) ↔ IntegerSpelling text.toList m.toInt := by
  rw [coerceText_ok_iff, ← readInt64_ok_iff]
  exact mapError_map_eq_ok_iff fun _ => Value.int64.inj

theorem coerceText_decimal_ok_iff {text : String} {d : Decimal} :
    decimal.coerceText text = .ok (.decimal d) ↔ Decimal.read text = .ok d := by
  rw [coerceText_ok_iff]
  exact mapError_map_eq_ok_iff fun _ => Value.decimal.inj

end FieldType

end RecordFilter
