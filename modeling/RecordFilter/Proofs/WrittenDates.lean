import Mathlib.Tactic.SplitIfs
import RecordFilter.Calendar.Format
import RecordFilter.Proofs.Outcomes

/-! # Reading the texts of dates and times

    Each piece of a format reads what is written for it and leaves what follows.
    A number ends at a character that is neither a digit nor a blank (`Solid`),
    so fixed characters keep the pieces apart; the pieces of a date, and those of
    a time, are read whatever comes behind them, and whether or not blanks may
    stand between them.

    Both formats read every date back, in the years that need a sign too.  A date
    with a time is read back as a clock shows it (`ofClock?_shown`), which loses
    no leap second but those within a minute: with the fraction of its second by
    the loose format, and without it by the strict one, whose text has none. -/

namespace RecordFilter

/-! ## Clocks -/

namespace TimeOfDay

/-- A text names seconds up to 60, the leap second. -/
theorem shownSecond_le (t : TimeOfDay) : t.shownSecond ≤ 60 := by
  have hsecond := t.second_lt
  have hnanosecond := t.nanosecond_lt
  rw [shownSecond]
  omega

theorem fraction_lt (t : TimeOfDay) : t.fraction < 10 ^ 9 := Nat.mod_lt _ (by decide)

/-- **WHAT IS READ OFF A CLOCK** is a time that the clock shows so and that is no leap second
    within a minute. -/
theorem ofClock?_eq_some_iff {hour minute second fraction : Nat} {t : TimeOfDay} :
    ofClock? hour minute second fraction = some t
      ↔ t.hour = hour ∧ t.minute = minute ∧ t.shownSecond = second ∧ t.fraction = fraction
        ∧ ¬ t.InnerLeap := by
  have hlt := t.nanosecond_lt
  rw [ofClock?, ofParts?, ofParts?, shownSecond, TimeOfDay.fraction, InnerLeap]
  constructor
  · intro h
    split_ifs at h with hfraction hsecond hparts hparts
    · obtain rfl := Option.some.inj h
      dsimp only
      omega
    · obtain rfl := Option.some.inj h
      dsimp only
      omega
  · rintro ⟨rfl, rfl, rfl, rfl, hinner⟩
    have hsecond := t.second_lt
    have hnanosecond : t.nanosecond / 10 ^ 9 = 0 ∨ t.second = 59 ∧ t.nanosecond / 10 ^ 9 = 1 := by
      omega
    rw [if_pos (Nat.mod_lt _ (by decide))]
    -- the clock shows second 60 only where the time has second 59
    rcases hnanosecond with hzero | ⟨hlast, hone⟩
    · rw [if_neg (by omega), dif_pos ⟨t.hour_lt, t.minute_lt, by omega, by omega⟩]
      exact congrArg some (TimeOfDay.ext rfl rfl (by dsimp only; omega) (by dsimp only; omega))
    · rw [if_pos (by omega), dif_pos ⟨t.hour_lt, t.minute_lt, by omega, by omega⟩]
      exact congrArg some (TimeOfDay.ext rfl rfl hlast.symm (by dsimp only; omega))

/-- Every other time of day is shown as itself. -/
theorem shown_of_not_innerLeap {t : TimeOfDay} (h : ¬ t.InnerLeap) : t.shown = t := dif_neg h

/-- What a text shows has the second that the text names. -/
theorem shown_shownSecond (t : TimeOfDay) : t.shown.shownSecond = t.shownSecond := by
  rw [shown]
  split_ifs with h
  · obtain ⟨-, hleap⟩ := h
    simp only [shownSecond]
    omega
  · rfl

theorem shown_fraction (t : TimeOfDay) : t.shown.fraction = t.fraction := by
  rw [shown]
  split_ifs with h
  · exact (Nat.mod_eq_sub_mod h.2).symm
  · rfl

theorem shown_hour (t : TimeOfDay) : t.shown.hour = t.hour := by
  rw [shown]
  split_ifs <;> rfl

theorem shown_minute (t : TimeOfDay) : t.shown.minute = t.minute := by
  rw [shown]
  split_ifs <;> rfl

/-- What a text shows has no leap second within a minute. -/
theorem not_innerLeap_shown (t : TimeOfDay) : ¬ t.shown.InnerLeap := by
  rw [shown]
  split_ifs with h
  · rintro ⟨-, hleap⟩
    have hlt := t.nanosecond_lt
    dsimp only at hleap
    omega
  · exact h

/-- The time as which a clock shows another is the one that is read off it. -/
theorem ofClock?_shown (t : TimeOfDay) :
    ofClock? t.hour t.minute t.shownSecond t.fraction = some t.shown :=
  ofClock?_eq_some_iff.mpr
    ⟨shown_hour t, shown_minute t, shown_shownSecond t, shown_fraction t, not_innerLeap_shown t⟩

/-- **A TEXT SHOWS ITS TIME OF DAY** unless this is a leap second within a minute. -/
theorem shown_eq_self_iff {t : TimeOfDay} : t.shown = t ↔ ¬ t.InnerLeap := by
  constructor
  · intro h
    rw [← h]
    exact not_innerLeap_shown t
  · exact shown_of_not_innerLeap

/-! ## Whole seconds -/

theorem wholeSecond_shownSecond (t : TimeOfDay) :
    t.wholeSecond.shownSecond = t.shownSecond := by
  simp only [shownSecond, wholeSecond, Nat.mul_div_cancel _ (show 0 < 10 ^ 9 by decide)]

theorem wholeSecond_fraction (t : TimeOfDay) : t.wholeSecond.fraction = 0 :=
  Nat.mul_mod_left _ _

/-- Nothing is dropped where the second is whole. -/
theorem wholeSecond_eq_self_iff {t : TimeOfDay} : t.wholeSecond = t ↔ t.fraction = 0 := by
  constructor
  · intro h
    rw [← h]
    exact wholeSecond_fraction t
  · intro h
    exact TimeOfDay.ext rfl rfl rfl (Nat.div_mul_cancel (Nat.dvd_of_mod_eq_zero h))

end TimeOfDay

end RecordFilter

namespace RecordFilter.Calendar

open Text

/-! ## Runs of digits -/

theorem digit_range {c : Char} (h : c.isDigit = true) : 48 ≤ c.toNat ∧ c.toNat ≤ 57 := by
  simpa [Char.isDigit, UInt32.le_iff_toNat_le] using h

/-- No digit is a blank. -/
theorem isBlank_of_isDigit {c : Char} (h : c.isDigit = true) : isBlank c = false := by
  have hrange := digit_range h
  simp only [isBlank, Bool.or_eq_false_iff, Bool.and_eq_false_iff, decide_eq_false_iff_not,
    beq_eq_false_iff_ne]
  omega

/-- What follows starts with neither a digit nor a blank. -/
def Solid (rest : List Char) : Prop :=
  ∀ c t, rest = c :: t → c.isDigit = false ∧ isBlank c = false

theorem solid_nil : Solid [] := fun _ _ h => nomatch h

theorem solid_cons {c : Char} (t : List Char) (h : c.isDigit = false ∧ isBlank c = false) :
    Solid (c :: t) := by
  rintro d u ⟨⟩
  exact h

/-- Nothing is passed over in front of what is no blank. -/
theorem skipBlank_of_solid {rest : List Char} (h : Solid rest) : skipBlank rest = rest := by
  cases rest with
  | nil => rfl
  | cons c t => exact skipBlank_cons (h c t rfl).2 t

/-- Nothing is passed over in front of digits. -/
theorem skipBlank_digits {ds rest : List Char} (hds : ∀ c ∈ ds, c.isDigit = true)
    (hne : ds ≠ []) : skipBlank (ds ++ rest) = ds ++ rest := by
  cases ds with
  | nil => exact absurd rfl hne
  | cons c t => exact skipBlank_cons (isBlank_of_isDigit (hds c (List.mem_cons_self ..))) _

/-- A run of digits that is no longer than the width is read as a whole. -/
theorem readDigits_run {width : Option Nat} {ds rest : List Char}
    (hds : ∀ c ∈ ds, c.isDigit = true) (hne : ds ≠ []) (hrest : Solid rest)
    (hwidth : ∀ w, width = some w → ds.length ≤ w) :
    readDigits width (ds ++ rest) = .ok (ds, rest) := by
  have hrun : (ds ++ rest).takeWhile Char.isDigit = ds := by
    rw [List.takeWhile_append_of_pos hds]
    cases rest with
    | nil => exact List.append_nil ds
    | cons c t =>
        rw [List.takeWhile_cons_of_neg (by rw [(hrest c t rfl).1]; exact nofun), List.append_nil]
  cases ds with
  | nil => exact absurd rfl hne
  | cons c t =>
      have hdrop : ((c :: t) ++ rest).drop (c :: t).length = rest := List.drop_left
      cases width with
      | none =>
          simp only [readDigits, hrun, hdrop]
          exact if_neg hne
      | some w =>
          simp only [readDigits, hrun, List.take_of_length_le (hwidth w rfl), hdrop]
          exact if_neg hne

/-- A padded number is read as the run of its own digits. -/
theorem readDigits_padded {width w n : Nat} {rest : List Char} (hw : 0 < w) (hn : n < 10 ^ w)
    (hle : w ≤ width) (hrest : Solid rest) :
    readDigits (some width) (padded w n ++ rest) = .ok (padded w n, rest) := by
  refine readDigits_run (fun _ => isDigit_of_mem_padded) (padded_ne_nil w n) hrest ?_
  rintro _ ⟨⟩
  rw [length_padded hw hn]
  exact hle

/-! ## Pieces -/

variable {rest : List Char}

/-- A padded number of two digits is read if it lies between the bounds. -/
theorem readBetween_padded {least greatest n : Nat} (hleast : least ≤ n) (hgreatest : n ≤ greatest)
    (hn : n < 100) (hrest : Solid rest) :
    readBetween least greatest (padded 2 n ++ rest) = .ok (n, rest) := by
  rw [readBetween, readDigits_padded (by decide) hn (by decide) hrest]
  show (if least ≤ ofDigits (padded 2 n) ∧ ofDigits (padded 2 n) ≤ greatest then _ else _) = _
  rw [ofDigits_padded, if_pos ⟨hleast, hgreatest⟩]
  rfl

/-- Up to four digits are a year that needs no sign. -/
theorem readYear_digits {ds : List Char} (hds : ∀ c ∈ ds, c.isDigit = true) (hne : ds ≠ [])
    (hlength : ds.length ≤ 4) (hrest : Solid rest) :
    readYear (ds ++ rest) = .ok ((ofDigits ds : Int), rest) := by
  have hsign : ∀ d t, d.isDigit = false → ds ++ rest ≠ d :: t := by
    intro d t hd heq
    cases ds with
    | nil => exact hne rfl
    | cons c ds =>
        obtain ⟨rfl, -⟩ := List.cons.inj heq
        exact absurd rfl (ne_of_isDigit (hds c (List.mem_cons_self ..)) hd)
  rw [readYear]
  · rw [readDigits_run hds hne hrest (by rintro _ ⟨⟩; exact hlength)]
    rfl
  · exact fun t => hsign '-' t rfl
  · exact fun t => hsign '+' t rfl

/-- A year is read from four digits, or from its sign and as many as there are. -/
theorem readYear_yearText (year : Int) (hrest : Solid rest) :
    readYear (Date.yearText year ++ rest) = .ok (year, rest) := by
  have hdigits : ∀ c ∈ padded 4 year.natAbs, c.isDigit = true := fun _ => isDigit_of_mem_padded
  have hne := padded_ne_nil 4 year.natAbs
  have hrun : readDigits none _ = _ := readDigits_run hdigits hne hrest nofun
  rw [Date.yearText]
  -- the sign is written where four digits do not say the year
  by_cases hplain : 0 ≤ year ∧ year ≤ 9999
  · have hlength : (padded 4 year.natAbs).length ≤ 4 :=
      Nat.le_of_eq (length_padded (by decide) (by omega))
    rw [if_pos hplain, readYear_digits hdigits hne hlength hrest, ofDigits_padded]
    congr 2
    omega
  · rw [if_neg hplain]
    by_cases hnegative : year < 0
    · rw [if_pos hnegative, List.cons_append, readYear, hrun]
      show Except.ok (-(ofDigits (padded 4 year.natAbs) : Int), rest) = _
      rw [ofDigits_padded]
      congr 2
      omega
    · rw [if_neg hnegative, List.cons_append, readYear, hrun]
      show Except.ok ((ofDigits (padded 4 year.natAbs) : Int), rest) = _
      rw [ofDigits_padded]
      congr 2
      omega

/-- What a piece reads, the pieces behind it go on with. -/
theorem readPieces_cons (piece : Piece) {pieces : List Piece} {parts parts' : Parts}
    {s t : List Char} (h : piece.read parts s = .ok (parts', t)) :
    readPieces parts (piece :: pieces) s = readPieces parts' pieces t := by
  rw [readPieces, h]

/-- A fixed character is read as itself and leaves the parts alone. -/
theorem read_fixed (c : Char) (parts : Parts) (t : List Char) :
    (Piece.fixed c).read parts (c :: t) = .ok (parts, t) := if_pos rfl

/-- Nothing but blanks may be passed over. -/
def IsGap (gap : List Piece) : Prop := ∀ piece ∈ gap, piece = .blanks

theorem isGap_nil : IsGap [] := fun _ h => nomatch h

theorem isGap_blanks : IsGap [.blanks] := fun _ h => List.mem_singleton.mp h

/-- Where no blanks are written, none are passed over. -/
theorem readPieces_gap {gap : List Piece} (hgap : IsGap gap) (parts : Parts)
    (pieces : List Piece) (hrest : Solid rest) :
    readPieces parts (gap ++ pieces) rest = readPieces parts pieces rest := by
  induction gap with
  | nil => rfl
  | cons piece gap ih =>
      obtain rfl : piece = .blanks := hgap piece (List.mem_cons_self ..)
      have hread : Piece.blanks.read parts rest = .ok (parts, rest) := by
        rw [Piece.read, skipBlank_of_solid hrest]
      rw [List.cons_append, readPieces_cons .blanks hread]
      exact ih fun piece hpiece => hgap piece (List.mem_cons_of_mem _ hpiece)

/-- A year of the calendar is read as a part. -/
theorem read_year (d : Date) (parts : Parts) (hrest : Solid rest) :
    (Piece.number .year).read parts (Date.yearText d.year ++ rest)
      = .ok ({ parts with year := d.year }, rest) := by
  have hskip : skipBlank (Date.yearText d.year ++ rest) = Date.yearText d.year ++ rest := by
    rw [Date.yearText]
    split_ifs
    · exact skipBlank_digits (fun _ => isDigit_of_mem_padded) (padded_ne_nil _ _)
    · exact skipBlank_cons (by decide) _
    · exact skipBlank_cons (by decide) _
  have hrange : (IntegerRange.signed 32).Contains d.year :=
    ⟨Int.le_trans (by decide) d.leastYear_le, Int.le_trans d.le_greatestYear (by decide)⟩
  rw [Piece.read, readPart, hskip]
  dsimp only
  rw [readYear_yearText d.year hrest]
  exact if_pos hrange

/-- A part of two digits is read if it lies between its bounds. -/
theorem map_readBetween {α : Type} {least greatest n : Nat} (f : Nat × List Char → α)
    (hleast : least ≤ n) (hgreatest : n ≤ greatest) (hn : n < 100) (hrest : Solid rest) :
    (readBetween least greatest (skipBlank (padded 2 n ++ rest))).map f = .ok (f (n, rest)) := by
  rw [skipBlank_digits (fun _ => isDigit_of_mem_padded) (padded_ne_nil _ _),
    readBetween_padded hleast hgreatest hn hrest]
  rfl

/-! ## Dates -/

/-- No month has more than 31 days. -/
theorem daysInMonth_le (year : Int) (month : Nat) : daysInMonth year month ≤ 31 := by
  unfold daysInMonth
  split
  all_goals
    first
      | decide
      | split <;> decide

/-- The date of parts, whatever time they have. -/
theorem date_of_parts (d : Date) {parts : Parts} (hyear : parts.year = d.year)
    (hmonth : parts.month = d.month) (hday : parts.day = d.day) : parts.date = .ok d := by
  have hparts : Date.ofParts? d.year d.month d.day = some d :=
    dif_pos ⟨d.leastYear_le, d.le_greatestYear, d.day_pos, d.day_le⟩
  rw [Parts.date, hyear, hmonth, hday, hparts]

/-- Parts that name a date have its year, its month and its day. -/
theorem of_date_ok {parts : Parts} {d : Date} (h : parts.date = .ok d) :
    d.year = parts.year ∧ d.month = parts.month ∧ d.day = parts.day := by
  rw [Parts.date, Date.ofParts?] at h
  split_ifs at h with hparts
  rw [← Except.ok.inj h]
  exact ⟨rfl, rfl, rfl⟩

/-- The pieces of a date, a gap behind each number. -/
def datePieces (gap : List Piece) : List Piece :=
  .number .year :: (gap ++ .fixed '-' :: .number .month
    :: (gap ++ .fixed '-' :: .number .day :: gap))

/-- The pieces of a date read it at the front of a text. -/
theorem readPieces_date {gap : List Piece} (hgap : IsGap gap) (d : Date) (parts : Parts)
    (pieces : List Piece) (hrest : Solid rest) :
    readPieces parts (datePieces gap ++ pieces) (d.chars ++ rest)
      = readPieces { parts with year := d.year, month := d.month, day := d.day } pieces rest := by
  have hdash : ∀ t, Solid ('-' :: t) := fun t => solid_cons t (by decide)
  obtain ⟨hmonth, hmonth'⟩ := d.month_range
  have hday : d.day ≤ 31 := Nat.le_trans d.day_le (daysInMonth_le ..)
  rw [Date.chars]
  simp only [datePieces, List.append_assoc, List.cons_append]
  rw [readPieces_cons (.number .year) (read_year d parts (hdash _)),
    readPieces_gap hgap _ _ (hdash _), readPieces_cons (.fixed '-') (read_fixed ..),
    readPieces_cons (.number .month) (map_readBetween _ hmonth hmonth' (by omega) (hdash _)),
    readPieces_gap hgap _ _ (hdash _), readPieces_cons (.fixed '-') (read_fixed ..),
    readPieces_cons (.number .day) (map_readBetween _ d.day_pos hday (by omega) hrest),
    readPieces_gap hgap _ _ hrest]

/-! ## Times -/

/-- A fraction of at most nine digits is read in billionths. -/
theorem readFraction_padded {width n : Nat} (parts : Parts) (hwidth : 0 < width)
    (hnine : width ≤ 9) (hn : n < 10 ^ width) :
    readFraction parts ('.' :: padded width n)
      = .ok ({ parts with nanosecond := n * 10 ^ (9 - width) }, []) := by
  have hread := readDigits_padded hwidth hn hnine solid_nil
  rw [List.append_nil] at hread
  rw [readFraction, hread]
  show Except.ok ({ parts with
    nanosecond := ofDigits (padded width n) * 10 ^ (9 - (padded width n).length) }, _) = _
  rw [ofDigits_padded, length_padded hwidth hn]
  rfl

/-- The fraction that is written is read, in whichever of its widths. -/
theorem readFraction_fractionText {fraction : Nat} {parts : Parts}
    (hlt : fraction < 10 ^ 9) (hzero : parts.nanosecond = 0) :
    readFraction parts (DateTime.fractionText fraction)
      = .ok ({ parts with nanosecond := fraction }, []) := by
  rw [DateTime.fractionText]
  split_ifs with hnone hmilli hmicro
  · rw [hnone, ← hzero]
    rfl
  · rw [readFraction_padded parts (by decide) (by decide) (by omega),
      show fraction / 10 ^ 6 * 10 ^ (9 - 3) = fraction by omega]
  · rw [readFraction_padded parts (by decide) (by decide) (by omega),
      show fraction / 10 ^ 3 * 10 ^ (9 - 6) = fraction by omega]
  · rw [readFraction_padded parts (by decide) (by decide) hlt,
      show fraction * 10 ^ (9 - 9) = fraction by omega]

/-- A fraction starts with its point, so it ends the digits in front of it. -/
theorem solid_fractionText (fraction : Nat) : Solid (DateTime.fractionText fraction) := by
  rw [DateTime.fractionText]
  split_ifs
  · exact solid_nil
  all_goals exact solid_cons _ (by decide)

/-- The pieces of a time up to its second, a gap behind each number but the last. -/
def timePieces (gap : List Piece) : List Piece :=
  .number .hour :: (gap ++ .fixed ':' :: .number .minute
    :: (gap ++ [.fixed ':', .number .second]))

/-- The pieces of a time read it at the front of a text, up to its second. -/
theorem readPieces_time {gap : List Piece} (hgap : IsGap gap) (t : TimeOfDay) (parts : Parts)
    (pieces : List Piece) (hrest : Solid rest) :
    readPieces parts (timePieces gap ++ pieces)
        (padded 2 t.hour ++ ':' :: (padded 2 t.minute ++ ':' :: (padded 2 t.shownSecond ++ rest)))
      = readPieces { parts with hour := t.hour, minute := t.minute, second := t.shownSecond }
          pieces rest := by
  have hcolon : ∀ t, Solid (':' :: t) := fun t => solid_cons t (by decide)
  have hhour := t.hour_lt
  have hminute := t.minute_lt
  have hsecond := t.shownSecond_le
  simp only [timePieces, List.append_assoc, List.cons_append, List.nil_append]
  rw [readPieces_cons (.number .hour)
      (map_readBetween _ (Nat.zero_le _) (by omega) (by omega) (hcolon _)),
    readPieces_gap hgap _ _ (hcolon _), readPieces_cons (.fixed ':') (read_fixed ..),
    readPieces_cons (.number .minute)
      (map_readBetween _ (Nat.zero_le _) (by omega) (by omega) (hcolon _)),
    readPieces_gap hgap _ _ (hcolon _), readPieces_cons (.fixed ':') (read_fixed ..),
    readPieces_cons (.number .second)
      (map_readBetween _ (Nat.zero_le _) hsecond (by omega) hrest)]

/-- The pieces of a date with a time read it up to its second. -/
theorem readPieces_dateTime {gap : List Piece} (hgap : IsGap gap) (t : DateTime)
    (pieces : List Piece) (hrest : Solid rest) :
    readPieces {} (datePieces gap ++ .fixed 'T' :: (timePieces gap ++ pieces)) (t.chars ++ rest)
      = readPieces
          { year := t.date.year, month := t.date.month, day := t.date.day, hour := t.time.hour
            minute := t.time.minute, second := t.time.shownSecond } pieces rest := by
  rw [DateTime.chars]
  simp only [List.append_assoc, List.cons_append]
  rw [readPieces_date hgap t.date _ _ (solid_cons _ (by decide)),
    readPieces_cons (.fixed 'T') (read_fixed ..), readPieces_time hgap t.time _ _ hrest]

/-- Parts that name a time on a day name the day, and the time is read off their clock. -/
theorem of_dateTime_ok {parts : Parts} {t : DateTime} (h : parts.dateTime = .ok t) :
    parts.date = .ok t.date ∧ TimeOfDay.ofClock? parts.hour parts.minute parts.second
      parts.nanosecond = some t.time := by
  rw [Parts.dateTime] at h
  cases hdate : parts.date with
  | error fault =>
      rw [hdate] at h
      cases h
  | ok d =>
      cases htime : TimeOfDay.ofClock? parts.hour parts.minute parts.second parts.nanosecond with
      | none =>
          rw [hdate, htime] at h
          cases h
      | some time =>
          rw [hdate, htime] at h
          rw [← Except.ok.inj h]
          exact ⟨rfl, rfl⟩

/-- The time on a day of parts, read off its clock. -/
theorem dateTime_of_parts (t : DateTime) {parts : Parts} (hdate : parts.date = .ok t.date)
    (hhour : parts.hour = t.time.hour) (hminute : parts.minute = t.time.minute)
    (hsecond : parts.second = t.time.shownSecond)
    (hfraction : parts.nanosecond = t.time.fraction) : parts.dateTime = .ok t.shown := by
  rw [Parts.dateTime, hdate, hhour, hminute, hsecond, hfraction, TimeOfDay.ofClock?_shown]
  rfl

end RecordFilter.Calendar

namespace RecordFilter

open Calendar

/-- **DATES READ BACK** in every year of the calendar. -/
theorem Date.readLoose_text (d : Date) : Date.readLoose d.text = .ok d := by
  have h := readPieces_date isGap_blanks d {} [] solid_nil
  rw [List.append_nil, List.append_nil] at h
  rw [readLoose, text, String.toList_ofList, show looseDateFormat = datePieces [.blanks] from rfl,
    h]
  exact date_of_parts d rfl rfl rfl

/-- **DATES READ BACK** as themselves. -/
theorem Date.read_text (d : Date) : Date.read d.text = .ok d := by
  have h := readPieces_date isGap_nil d {} [] solid_nil
  rw [List.append_nil, List.append_nil] at h
  rw [read, text, String.toList_ofList, show dateFormat = datePieces [] from rfl, h]
  exact date_of_parts d rfl rfl rfl

/-- **DATES WITH A TIME READ BACK** as a clock shows them, fractions included. -/
theorem DateTime.readLoose_exactText (t : DateTime) :
    DateTime.readLoose t.exactText = .ok t.shown := by
  rw [readLoose, exactText, String.toList_ofList,
    show looseDateTimeFormat = datePieces [.blanks]
      ++ .fixed 'T' :: (timePieces [.blanks] ++ [.fraction, .blanks]) from rfl,
    readPieces_dateTime isGap_blanks t _ (solid_fractionText _),
    readPieces_cons .fraction (readFraction_fractionText t.time.fraction_lt rfl),
    show ([.blanks] : List Piece) = [.blanks] ++ [] from rfl,
    readPieces_gap isGap_blanks _ _ solid_nil]
  exact dateTime_of_parts t (date_of_parts t.date rfl rfl rfl) rfl rfl rfl rfl

/-- **WHOLE SECONDS READ BACK** as a clock shows them: the strict text of a date with a time
    leaves the fraction of its second out. -/
theorem DateTime.read_text (t : DateTime) : DateTime.read t.text = .ok t.wholeSecond.shown := by
  have h := readPieces_dateTime isGap_nil t [] solid_nil
  rw [List.append_nil, List.append_nil] at h
  rw [read, text, String.toList_ofList,
    show dateTimeFormat = datePieces [] ++ .fixed 'T' :: timePieces [] from rfl, h]
  exact dateTime_of_parts t.wholeSecond (date_of_parts t.date rfl rfl rfl) rfl rfl
    t.time.wholeSecond_shownSecond.symm t.time.wholeSecond_fraction.symm

end RecordFilter
