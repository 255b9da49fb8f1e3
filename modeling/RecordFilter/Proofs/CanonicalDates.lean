import RecordFilter.Proofs.DateSpellings
import RecordFilter.Proofs.Rereading

/-! # Written dates are one spelling of many

    What is written for a date is the one spelling of it without slack (`Style.canonical`): no
    blanks, two digits in every number but the year, and a sign in front of those years only
    that four digits alone do not say.  Digits of one length and one value are the same, so
    a text in this style is the text of its value.  The reader does not ask for it: it accepts
    every loose spelling, and there is no value that has only one. -/

namespace RecordFilter

/-! ## Runs of digits -/

/-- The first digit counts by the digits behind it. -/
theorem ofDigits_cons (c : Char) (ds : List Char) :
    ofDigits (c :: ds) = 10 ^ ds.length * (c.toNat - '0'.toNat) + ofDigits ds := by
  rw [ofDigits, Nat.ofDigitChars_cons, Nat.ofDigitChars_eq_ofDigitChars_zero, Nat.mul_zero,
    Nat.zero_add]
  rfl

/-- As many digits as there are bound the number that they spell. -/
theorem ofDigits_lt_pow {ds : List Char} (h : ∀ c ∈ ds, c.isDigit = true) :
    ofDigits ds < 10 ^ ds.length := by
  induction ds with
  | nil => exact Nat.one_pos
  | cons c ds ih =>
      have hc := Calendar.digit_range (h c (List.mem_cons_self ..))
      have hds := ih fun d hd => h d (List.mem_cons_of_mem _ hd)
      have hdigit : 10 ^ ds.length * (c.toNat - '0'.toNat) ≤ 10 ^ ds.length * 9 :=
        Nat.mul_le_mul_left _ (by rw [show '0'.toNat = 48 from rfl]; omega)
      rw [ofDigits_cons, List.length_cons, Nat.pow_succ]
      omega

/-- Where the first digit is not zero, no fewer digits denote the number. -/
theorem pow_le_ofDigits {c : Char} {ds : List Char} (h : c.isDigit = true) (hc : c ≠ '0') :
    10 ^ ds.length ≤ ofDigits (c :: ds) := by
  have hrange := Calendar.digit_range h
  have hne : c.toNat ≠ 48 := by
    intro heq
    exact hc (Char.toNat_inj.mp heq)
  have hdigit : 10 ^ ds.length * 1 ≤ 10 ^ ds.length * (c.toNat - '0'.toNat) :=
    Nat.mul_le_mul_left _ (by rw [show '0'.toNat = 48 from rfl]; omega)
  rw [ofDigits_cons]
  omega

/-- Of one length, no two runs of digits denote the same number. -/
theorem eq_of_ofDigits_eq {s t : List Char} (hs : ∀ c ∈ s, c.isDigit = true)
    (ht : ∀ c ∈ t, c.isDigit = true) (hlength : s.length = t.length)
    (h : ofDigits s = ofDigits t) : s = t := by
  induction s generalizing t with
  | nil => exact (List.length_eq_zero_iff.mp hlength.symm).symm
  | cons c s ih =>
      cases t with
      | nil => simp at hlength
      | cons d t =>
          obtain ⟨hc, hs⟩ := List.forall_mem_cons.mp hs
          obtain ⟨hd, ht⟩ := List.forall_mem_cons.mp ht
          replace hlength : s.length = t.length := Nat.succ.inj hlength
          -- the first digits are the quotients by one power, and what follows the remainders
          have hslt := ofDigits_lt_pow hs
          have htlt := ofDigits_lt_pow ht
          rw [← hlength] at htlt
          rw [ofDigits_cons, ofDigits_cons, ← hlength] at h
          have hpow : 0 < 10 ^ s.length := Nat.pow_pos (by decide)
          have hquotient := congrArg (· / 10 ^ s.length) h
          have hremainder := congrArg (· % 10 ^ s.length) h
          simp only [Nat.mul_add_div hpow, Nat.div_eq_of_lt hslt, Nat.div_eq_of_lt htlt,
            Nat.mul_add_mod, Nat.mod_eq_of_lt hslt, Nat.mod_eq_of_lt htlt] at hquotient hremainder
          have hc' := Calendar.digit_range hc
          have hd' := Calendar.digit_range hd
          have hchar : c = d := by
            refine Char.toNat_inj.mp ?_
            rw [show '0'.toNat = 48 from rfl] at hquotient
            omega
          rw [hchar, ih hs ht hlength hremainder]

theorem padded_of_le {width n : Nat} (h : 10 ^ width ≤ n) : padded width n = digitsOf n := by
  have hcount : width ≤ digitCount n := by
    by_contra hlt
    have hpos : 0 < width := by omega
    have := (digitCount_le_iff hpos).mp (Nat.le_of_not_le hlt)
    omega
  rw [padded, Nat.sub_eq_zero_of_le hcount]
  rfl

/-- A run of digits is what is written for its number at the width, if it has the width, or is
    longer and does not start with a zero. -/
theorem padded_ofDigits {width : Nat} {ds : List Char} (hwidth : 0 < width) (hds : IsRun ds)
    (h : ds.length = width ∨ (width < ds.length ∧ ds.head? ≠ some '0')) :
    padded width (ofDigits ds) = ds := by
  have hlt := ofDigits_lt_pow hds.2
  refine eq_of_ofDigits_eq (isRun_padded ..).2 hds.2 ?_ (ofDigits_padded ..)
  rcases h with hlength | ⟨hlonger, hhead⟩
  -- padded up to the width, or longer and then without a zero in front
  · rw [hlength] at hlt
    rw [length_padded hwidth hlt, hlength]
  · cases ds with
    | nil => exact absurd rfl hds.1
    | cons c ds =>
        have hle : 10 ^ ds.length ≤ ofDigits (c :: ds) := by
          refine pow_le_ofDigits (hds.2 c (List.mem_cons_self ..)) ?_
          rintro rfl
          exact hhead rfl
        have hpow : 10 ^ width ≤ 10 ^ ds.length :=
          Nat.pow_le_pow_right (by decide) (Nat.le_of_lt_succ hlonger)
        rw [padded_of_le (Nat.le_trans hpow hle)]
        have hcount := (digitCount_le_iff (Nat.succ_pos ds.length)).mpr hlt
        have hcount' : ¬ digitCount (ofDigits (c :: ds)) ≤ ds.length := by
          have hpos : 0 < ds.length := Nat.lt_of_lt_of_le hwidth (Nat.le_of_lt_succ hlonger)
          rw [digitCount_le_iff hpos]
          omega
        exact Nat.le_antisymm hcount (Nat.lt_of_not_le hcount')

namespace Calendar

/-! ## The style without slack -/

/-- A year without slack: four digits alone for the years from 0 to 9999, and for all others a
    sign and four digits, or more if the first of them is no zero. -/
inductive CanonicalYear : List Char → Int → Prop where
  | plain {ds : List Char} : IsRun ds → ds.length = 4 → CanonicalYear ds (ofDigits ds)
  | signed (negative : Bool) {ds : List Char} : IsRun ds →
      (ds.length = 4 ∨ (4 < ds.length ∧ ds.head? ≠ some '0')) →
      ¬ (0 ≤ withSign negative (ofDigits ds) ∧ withSign negative (ofDigits ds) ≤ 9999) →
      CanonicalYear (signOf negative :: ds) (withSign negative (ofDigits ds))

/-- A number of two digits without slack: both of them. -/
inductive CanonicalPair : List Char → Nat → Prop where
  | run {ds : List Char} : IsRun ds → ds.length = 2 → CanonicalPair ds (ofDigits ds)

namespace Style

/-- The style of the texts that are written. -/
def canonical : Style := ⟨CanonicalYear, CanonicalPair⟩

/-- A style that spells no number otherwise spells no value otherwise. -/
theorem Spells.mono {a b : Style} (hyear : ∀ s n, a.year s n → b.year s n)
    (hpair : ∀ s n, a.pair s n → b.pair s n) {s : List Char} {v : Value} (h : a.Spells s v) :
    b.Spells s v := by
  have hday : ∀ {s year month day}, a.Day s year month day → b.Day s year month day := by
    rintro s year month day ⟨y, m, d, hs, hy, hm, hd⟩
    exact ⟨y, m, d, hs, hyear _ _ hy, hpair _ _ hm, hpair _ _ hd⟩
  cases v with
  | date d => exact hday h
  | dateTime t =>
      obtain ⟨day, clock, hs, hdate, ⟨x, m, y, hclock, hx, hm, hy⟩, hzero⟩ := h
      exact ⟨day, clock, hs, hday hdate,
        ⟨x, m, y, hclock, hpair _ _ hx, hpair _ _ hm, hpair _ _ hy⟩, hzero⟩
  | _ => exact h

end Style

variable {s : List Char}

theorem behind_of_spelling {α : Type} {Spells : List Char → α → Prop} {n : α}
    (h : Spells s n) : Behind Spells s n :=
  ⟨[], s, rfl, List.forall_mem_nil _, h⟩

theorem yearSpelling_of_canonical {n : Int} (h : CanonicalYear s n) : YearSpelling s n := by
  cases h with
  | plain hds hlength => exact .plain hds (Nat.le_of_eq hlength)
  | signed negative hds _ _ => exact .signed negative hds

theorem pairSpelling_of_canonical {n : Nat} (h : CanonicalPair s n) : PairSpelling s n := by
  cases h with
  | run hds hlength => exact .run hds (Nat.le_of_eq hlength)

/-- Every canonical text is one of the looser ones. -/
theorem loose_of_canonical {v : Value} (h : Style.canonical.Spells s v) :
    Style.loose.Spells s v :=
  h.mono (fun _ _ hyear => behind_of_spelling (yearSpelling_of_canonical hyear))
    (fun _ _ hpair => behind_of_spelling (pairSpelling_of_canonical hpair))

/-- Blanks may stand in front of a text. -/
theorem loose_cons_blank {v : Value} (h : Style.loose.Spells s v) :
    Style.loose.Spells (' ' :: s) v := by
  have hday : ∀ {s year month day}, Style.loose.Day s year month day →
      Style.loose.Day (' ' :: s) year month day := by
    rintro s year month day ⟨y, m, d, rfl, ⟨gap, word, rfl, hgap, hword⟩, hm, hd⟩
    refine ⟨' ' :: (gap ++ word), m, d, rfl, ⟨' ' :: gap, word, rfl, ?_, hword⟩, hm, hd⟩
    exact List.forall_mem_cons.mpr ⟨rfl, hgap⟩
  cases v with
  | date d => exact hday h
  | dateTime t =>
      obtain ⟨day, clock, rfl, hdate, hclock, hzero⟩ := h
      exact ⟨' ' :: day, clock, rfl, hday hdate, hclock, hzero⟩
  | _ => exact h

/-! ## What is written has no slack -/

/-- The canonical pair of digits of a number is the number padded to two. -/
theorem canonicalPair_iff {n : Nat} (hn : n < 100) : CanonicalPair s n ↔ s = padded 2 n := by
  constructor
  · intro h
    cases h with
    | run hds hlength => exact (padded_ofDigits (by decide) hds (.inl hlength)).symm
  · rintro rfl
    have h := CanonicalPair.run (isRun_padded 2 n) (length_padded (by decide) hn)
    rwa [ofDigits_padded] at h

/-- What is padded to four digits has four, or more without a zero in front. -/
theorem padded_four (n : Nat) : (padded 4 n).length = 4
    ∨ (4 < (padded 4 n).length ∧ (padded 4 n).head? ≠ some '0') := by
  by_cases hn : n < 10 ^ 4
  · exact .inl (length_padded (by decide) hn)
  · right
    have hcount : ¬ digitCount n ≤ 4 := by rwa [digitCount_le_iff (by decide)]
    have hne : n ≠ 0 := by omega
    obtain ⟨c, ds, hdigits, hc⟩ := head_digitsOf hne
    rw [padded_of_le (Nat.le_of_not_lt hn)]
    refine ⟨Nat.lt_of_not_le hcount, ?_⟩
    rw [hdigits, List.head?_cons]
    intro heq
    exact hc (Option.some.inj heq)

theorem yearText_of_le {m : Nat} (h : m ≤ 9999) : Date.yearText m = padded 4 m := by
  rw [Date.yearText, if_pos ⟨Int.natCast_nonneg m, by omega⟩, Int.natAbs_natCast]

/-- Years that four digits do not say are written with their sign. -/
theorem yearText_withSign {negative : Bool} {m : Nat}
    (h : ¬ (0 ≤ withSign negative m ∧ withSign negative m ≤ 9999)) :
    Date.yearText (withSign negative m) = signOf negative :: padded 4 m := by
  rw [Date.yearText, if_neg h]
  cases negative with
  | true =>
      rw [withSign_true] at h ⊢
      rw [if_pos (by omega), Int.natAbs_neg, Int.natAbs_natCast]
      rfl
  | false =>
      rw [withSign_false, if_neg (by omega), Int.natAbs_natCast]
      rfl

/-- The canonical year is the year as a date shows it. -/
theorem canonicalYear_iff {n : Int} : CanonicalYear s n ↔ s = Date.yearText n := by
  constructor
  · intro h
    cases h with
    | plain hds hlength =>
        have hlt := ofDigits_lt_pow hds.2
        rw [hlength] at hlt
        rw [yearText_of_le (by omega), padded_ofDigits (by decide) hds (.inl hlength)]
    | signed negative hds hlength hout =>
        rw [yearText_withSign hout, padded_ofDigits (by decide) hds hlength]
  · rintro rfl
    -- four digits within the first ten thousand years, and a sign outside of them
    by_cases hplain : 0 ≤ n ∧ n ≤ 9999
    · obtain ⟨m, rfl⟩ := Int.eq_ofNat_of_zero_le hplain.1
      have h := CanonicalYear.plain (isRun_padded 4 m) (length_padded (by decide) (by omega))
      rw [ofDigits_padded] at h
      rwa [yearText_of_le (by omega)]
    · obtain ⟨negative, m, rfl⟩ : ∃ negative m, n = withSign negative m :=
        ⟨_, _, (withSign_natAbs n).symm⟩
      have h := CanonicalYear.signed negative (isRun_padded 4 m) (padded_four m)
      rw [ofDigits_padded] at h
      rw [yearText_withSign hplain]
      exact h hplain

/-- The canonical text of a day is the text of the date. -/
theorem canonical_day_iff {d : Date} :
    Style.canonical.Day s d.year d.month d.day ↔ s = d.chars := by
  have hmonth : d.month < 100 := by
    have := d.month_range
    omega
  have hday : d.day < 100 := by
    have := ranges_of_date d
    omega
  constructor
  · rintro ⟨y, m, x, rfl, hy, hm, hx⟩
    rw [canonicalYear_iff.mp hy, (canonicalPair_iff hmonth).mp hm, (canonicalPair_iff hday).mp hx]
    rfl
  · rintro rfl
    exact ⟨_, _, _, rfl, canonicalYear_iff.mpr rfl, (canonicalPair_iff hmonth).mpr rfl,
      (canonicalPair_iff hday).mpr rfl⟩

/-- The canonical text of a clock is what a time of day shows. -/
theorem canonical_clock_iff {t : TimeOfDay} :
    Style.canonical.Clock s t.hour t.minute t.shownSecond
      ↔ s = padded 2 t.hour ++ ':' :: (padded 2 t.minute ++ ':' :: padded 2 t.shownSecond) := by
  have hhour : t.hour < 100 := Nat.lt_trans t.hour_lt (by decide)
  have hminute : t.minute < 100 := Nat.lt_trans t.minute_lt (by decide)
  have hsecond : t.shownSecond < 100 := Nat.lt_of_le_of_lt t.shownSecond_le (by decide)
  constructor
  · rintro ⟨x, y, z, rfl, hx, hy, hz⟩
    rw [(canonicalPair_iff hhour).mp hx, (canonicalPair_iff hminute).mp hy,
      (canonicalPair_iff hsecond).mp hz]
  · rintro rfl
    exact ⟨_, _, _, rfl, (canonicalPair_iff hhour).mpr rfl, (canonicalPair_iff hminute).mpr rfl,
      (canonicalPair_iff hsecond).mpr rfl⟩

/-- **WHAT IS WRITTEN** for a date, or for a time on a day that its text tells apart, is its one
    spelling without slack. -/
theorem canonical_spells_iff {v : Value} (hv : v.fieldType.isTemporal = true)
    (hwhole : v.IsWhole) :
    Style.canonical.Spells s v ↔ s = v.literalText.toList := by
  cases v with
  | date d =>
      show Style.canonical.Day s d.year d.month d.day ↔ s = d.text.toList
      rw [canonical_day_iff, Date.text, String.toList_ofList]
  | dateTime t =>
      have hseconds := Value.isWhole_dateTime_iff.mp hwhole
      show Style.canonical.Spells s (.dateTime t) ↔ s = t.text.toList
      rw [DateTime.text, String.toList_ofList, DateTime.chars]
      constructor
      · rintro ⟨day, clock, rfl, hday, hclock, -⟩
        rw [canonical_day_iff.mp hday, canonical_clock_iff.mp hclock]
      · rintro rfl
        exact ⟨_, _, rfl, canonical_day_iff.mpr rfl, canonical_clock_iff.mpr rfl, hseconds⟩
  | _ => cases hv

end Calendar

open Calendar

/-! ## Coercion -/

namespace FieldType

variable {t : FieldType} {text : String} {v : Value}

/-- Coercion to a temporal type takes the loose spellings of its values. -/
theorem coerceText_temporal_ok_iff (ht : t.isTemporal = true) :
    t.coerceText text = .ok v ↔ v.fieldType = t ∧ Style.loose.Spells text.toList v := by
  rw [coerceText_ok_iff]
  cases t with
  | date =>
      constructor
      · intro h
        obtain ⟨d, hd, rfl⟩ := exists_of_mapError_map_ok h
        exact ⟨rfl, date_read_ok_iff.mp hd⟩
      · rintro ⟨hv, h⟩
        cases v with
        | date d =>
            rw [readValue, date_read_ok_iff.mpr h]
            rfl
        | _ => cases hv
  | dateTime =>
      constructor
      · intro h
        obtain ⟨u, hu, rfl⟩ := exists_of_mapError_map_ok h
        exact ⟨rfl, dateTime_read_ok_iff.mp hu⟩
      · rintro ⟨hv, h⟩
        cases v with
        | dateTime u =>
            rw [readValue, dateTime_read_ok_iff.mpr h]
            rfl
        | _ => cases hv
  | _ => cases ht

/-- A text that is refused as a date is refused for a fault of its reading. -/
theorem exists_fault_of_coerceText_error (ht : t.isTemporal = true) {e : CoercionError}
    (h : t.coerceText text = .error e) : ∃ fault, e = ⟨text, t, .temporal fault⟩ := by
  obtain ⟨reason, hreason, rfl⟩ := mapError_eq_error_iff.mp h
  cases t with
  | date =>
      obtain ⟨fault, -, rfl⟩ := exists_of_mapError_map_error hreason
      exact ⟨fault, rfl⟩
  | dateTime =>
      obtain ⟨fault, -, rfl⟩ := exists_of_mapError_map_error hreason
      exact ⟨fault, rfl⟩
  | _ => cases ht

end FieldType

/-- **DATES ARE READ LOOSELY**: a text is accepted for a date, or for a time on a day, exactly if
    it is a loose spelling of it, and refused as no such value if it is a loose spelling of
    none.  The text that an accepted value is written with is accepted for it too, and it is the
    one spelling without slack, so any two texts of a value in this style are the same.  But
    it is never the only text of the value, since a blank may always be put in front. -/
theorem dates_are_read_loosely {t : FieldType} (ht : t.isTemporal = true) :
    (∀ text v, t.coerceText text = .ok v
        ↔ v.fieldType = t ∧ Style.loose.Spells text.toList v)
      ∧ (∀ text, (∀ v, v.fieldType = t → ¬ Style.loose.Spells text.toList v) →
        ∃ fault, t.coerceText text = .error ⟨text, t, .temporal fault⟩)
      ∧ ∀ text v, t.coerceText text = .ok v →
        (text = v.literalText ↔ Style.canonical.Spells text.toList v)
          ∧ t.coerceText v.literalText = .ok v
          ∧ t.coerceText (" " ++ text) = .ok v := by
  refine ⟨fun text v => FieldType.coerceText_temporal_ok_iff ht, ?_, ?_⟩
  · intro text hnone
    cases h : t.coerceText text with
    | error e =>
        obtain ⟨fault, rfl⟩ := FieldType.exists_fault_of_coerceText_error ht h
        exact ⟨fault, rfl⟩
    | ok v =>
        obtain ⟨hv, hspells⟩ := (FieldType.coerceText_temporal_ok_iff ht).mp h
        exact absurd hspells (hnone v hv)
  · intro text v h
    obtain ⟨hv, hspells⟩ := (FieldType.coerceText_temporal_ok_iff ht).mp h
    have hwhole := Value.isWhole_of_coerceText_ok h
    subst hv
    have hcanonical {s : List Char} := canonical_spells_iff (s := s) ht hwhole
    refine ⟨?_, ?_, ?_⟩
    · rw [hcanonical, String.toList_inj]
    · exact (FieldType.coerceText_temporal_ok_iff ht).mpr
        ⟨rfl, loose_of_canonical (hcanonical.mpr rfl)⟩
    · rw [FieldType.coerceText_temporal_ok_iff ht, String.toList_append]
      exact ⟨rfl, loose_cons_blank hspells⟩

/-- A day without padding, behind blanks and behind a needless sign; the text that it is written
    with differs from all three, and a year of five digits needs a sign. -/
theorem dates_are_read_loosely_unpadded :
    let d : Date := { year := 2024, month := 5, day := 1 }
    FieldType.date.isTemporal = true
      ∧ FieldType.date.coerceText "2024-5-1" = .ok (.date d)
      ∧ FieldType.date.coerceText "+002024-\t05- 1" = .ok (.date d)
      ∧ Style.loose.Spells "+002024-\t05- 1".toList (.date d)
      ∧ ¬ Style.canonical.Spells "2024-5-1".toList (.date d)
      ∧ (Value.date d).literalText = "2024-05-01"
      ∧ FieldType.date.coerceText " 2024-5-1" = .ok (.date d)
      ∧ FieldType.date.coerceText "12024-05-01"
        = .error ⟨"12024-05-01", .date, .temporal .invalidCharacters⟩ := by
  intro d
  have htext : (Value.date d).literalText = "2024-05-01" := by decide +kernel
  have hshort : FieldType.date.coerceText "2024-5-1" = .ok (.date d) := by decide +kernel
  have hsigned : FieldType.date.coerceText "+002024-\t05- 1" = .ok (.date d) := by decide +kernel
  obtain ⟨hspelling, -, haccepted⟩ := dates_are_read_loosely (t := .date) rfl
  obtain ⟨hcanonical, -, hblank⟩ := haccepted "2024-5-1" _ hshort
  refine ⟨rfl, hshort, hsigned, ((hspelling _ _).mp hsigned).2, ?_, htext, hblank,
    by decide +kernel⟩
  intro h
  have hsame := hcanonical.mpr h
  rw [htext] at hsame
  exact absurd hsame (by decide)

end RecordFilter
