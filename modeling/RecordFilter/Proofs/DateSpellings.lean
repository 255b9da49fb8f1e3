import RecordFilter.Proofs.Outcomes
import RecordFilter.Proofs.WrittenNumbers
import RecordFilter.Proofs.WrittenDates
import RecordFilter.Value.Basic

/-! # Spellings of dates and times

    What the strict formats accept can be said without their reader (`Style.loose`): blanks may
    stand in front of every number, a number of two digits may have one, a year up to four, or
    any count of them behind a sign.

    The reader takes as many digits as it may.  As a fixed character stands behind every number
    but the last one, it takes no more than is spelt there, and each piece splits the text at
    the end of its number (`Splits`). -/

namespace RecordFilter

/-! ## Runs of digits -/

/-- One or more digits. -/
def IsRun (ds : List Char) : Prop := ds ≠ [] ∧ ∀ c ∈ ds, c.isDigit = true

/-- A padded number is a run of digits. -/
theorem isRun_padded (width n : Nat) : IsRun (padded width n) :=
  ⟨padded_ne_nil width n, fun _ => isDigit_of_mem_padded⟩

namespace Calendar

open Text

/-! ## Styles -/

/-- How the numbers of a text are spelt: the year, and those that have two digits at most. -/
structure Style where
  year : List Char → Int → Prop
  pair : List Char → Nat → Prop

/-- Blanks stand in front, if any. -/
def Behind {α : Type} (Spells : List Char → α → Prop) (s : List Char) (n : α) : Prop :=
  ∃ gap word, s = gap ++ word ∧ (∀ c ∈ gap, isBlank c = true) ∧ Spells word n

/-- The sign in front of a year. -/
def signOf (negative : Bool) : Char := if negative then '-' else '+'

/-- A year: up to four digits, or any count of them behind a sign. -/
inductive YearSpelling : List Char → Int → Prop where
  | plain {ds : List Char} : IsRun ds → ds.length ≤ 4 → YearSpelling ds (ofDigits ds)
  | signed (negative : Bool) {ds : List Char} : IsRun ds →
      YearSpelling (signOf negative :: ds) (withSign negative (ofDigits ds))

/-- A number of one or two digits. -/
inductive PairSpelling : List Char → Nat → Prop where
  | run {ds : List Char} : IsRun ds → ds.length ≤ 2 → PairSpelling ds (ofDigits ds)

namespace Style

/-- The style of the texts that are accepted. -/
def loose : Style := ⟨Behind YearSpelling, Behind PairSpelling⟩

variable (style : Style)

/-- A day is spelt by its year, month and day of the month, dashes between them. -/
def Day (s : List Char) (year : Int) (month day : Nat) : Prop :=
  ∃ y m d, s = y ++ '-' :: (m ++ '-' :: d)
    ∧ style.year y year ∧ style.pair m month ∧ style.pair d day

/-- A time is spelt by its hour, minute and second, colons between them. -/
def Clock (s : List Char) (hour minute second : Nat) : Prop :=
  ∃ h m t, s = h ++ ':' :: (m ++ ':' :: t)
    ∧ style.pair h hour ∧ style.pair m minute ∧ style.pair t second

/-- A time on a day is spelt by both, as a clock shows them, with a `T` between; a fraction of
    a second has no spelling, and a leap second within a minute has none of its own. -/
def Spells (s : List Char) : Value → Prop
  | .date d => style.Day s d.year d.month d.day
  | .dateTime t =>
      ∃ day clock, s = day ++ 'T' :: clock
        ∧ style.Day day t.date.year t.date.month t.date.day
        ∧ style.Clock clock t.time.hour t.time.minute t.time.shownSecond
        ∧ t.time.fraction = 0 ∧ ¬ t.time.InnerLeap
  | _ => False

end Style

/-! ## What is read -/

/-- What is passed over is blank. -/
theorem exists_gap (s : List Char) :
    ∃ gap, s = gap ++ skipBlank s ∧ ∀ c ∈ gap, isBlank c = true := by
  refine ⟨s.takeWhile isBlank, List.takeWhile_append_dropWhile.symm, ?_⟩
  intro c hc
  exact List.mem_takeWhile_imp hc

theorem skipBlank_gap {gap : List Char} (h : ∀ c ∈ gap, isBlank c = true) (s : List Char) :
    skipBlank (gap ++ s) = skipBlank s :=
  List.dropWhile_append_of_pos h

/-- What is read is a run of digits at the front, no longer than it may be. -/
theorem of_readDigits_ok {width : Option Nat} {s ds rest : List Char}
    (h : readDigits width s = .ok (ds, rest)) :
    s = ds ++ rest ∧ IsRun ds ∧ ∀ w, width = some w → ds.length ≤ w := by
  -- with a width or without, what is taken is a front part of the digits
  have hfront : ∀ ds', ds' <+: s.takeWhile Char.isDigit → ds' ≠ [] →
      s = ds' ++ s.drop ds'.length ∧ IsRun ds' := by
    intro ds' hpre hne
    refine ⟨(List.prefix_iff_eq_append.mp (hpre.trans (List.takeWhile_prefix _))).symm, hne, ?_⟩
    intro c hc
    exact List.mem_takeWhile_imp (hpre.subset hc)
  cases s with
  | nil => cases h
  | cons c s =>
      cases width with
      | none =>
          simp only [readDigits] at h
          split_ifs at h with hne
          obtain ⟨rfl, rfl⟩ := Prod.mk.inj (Except.ok.inj h)
          obtain ⟨hs, hrun⟩ := hfront _ (List.prefix_rfl) hne
          exact ⟨hs, hrun, by rintro _ ⟨⟩⟩
      | some w =>
          simp only [readDigits] at h
          split_ifs at h with hne
          obtain ⟨rfl, rfl⟩ := Prod.mk.inj (Except.ok.inj h)
          obtain ⟨hs, hrun⟩ := hfront _ (List.take_prefix w _) hne
          refine ⟨hs, hrun, ?_⟩
          rintro _ ⟨⟩
          exact List.length_take_le ..

/-! ### Numbers -/

variable {word rest s : List Char}

theorem signOf_solid (negative : Bool) :
    (signOf negative).isDigit = false ∧ isBlank (signOf negative) = false := by
  cases negative <;> decide

/-- What is read as a year is a spelling of it. -/
theorem of_readYear_ok {n : Int} (h : readYear s = .ok (n, rest)) :
    ∃ word, s = word ++ rest ∧ YearSpelling word n := by
  have hsigned : ∀ (negative : Bool) t,
      (readDigits none t).map (fun x => (withSign negative (ofDigits x.1), x.2)) = .ok (n, rest) →
      ∃ word, signOf negative :: t = word ++ rest ∧ YearSpelling word n := by
    intro negative t h
    obtain ⟨⟨ds, rest'⟩, hread, heq⟩ := map_eq_ok h
    obtain ⟨rfl, rfl⟩ := Prod.mk.inj heq
    obtain ⟨rfl, hds, -⟩ := of_readDigits_ok hread
    exact ⟨signOf negative :: ds, rfl, .signed negative hds⟩
  rw [readYear.eq_def] at h
  split at h
  · next t => exact hsigned true t h
  · next t => exact hsigned false t h
  · next t =>
      obtain ⟨⟨ds, rest'⟩, hread, heq⟩ := map_eq_ok h
      obtain ⟨rfl, rfl⟩ := Prod.mk.inj heq
      obtain ⟨rfl, hds, hlength⟩ := of_readDigits_ok hread
      exact ⟨ds, rfl, .plain hds (hlength 4 rfl)⟩

/-- Every spelling of a year is read as this year. -/
theorem readYear_of_spelling {n : Int} (h : YearSpelling word n) (hrest : Solid rest) :
    readYear (word ++ rest) = .ok (n, rest) := by
  cases h with
  | plain hds hlength => exact readYear_digits hds.2 hds.1 hlength hrest
  | signed negative hds =>
      have hread : readDigits none _ = _ := readDigits_run hds.2 hds.1 hrest (by rintro _ ⟨⟩)
      cases negative with
      | true =>
          show readYear ('-' :: (_ ++ rest)) = _
          rw [readYear, hread]
          rfl
      | false =>
          show readYear ('+' :: (_ ++ rest)) = _
          rw [readYear, hread]
          rfl

/-- What is read between two bounds is a spelling of a number between them. -/
theorem of_readBetween_ok {least greatest n : Nat}
    (h : readBetween least greatest s = .ok (n, rest)) :
    (∃ word, s = word ++ rest ∧ PairSpelling word n) ∧ least ≤ n ∧ n ≤ greatest := by
  obtain ⟨⟨ds, rest'⟩, hread, h⟩ := bind_eq_ok h
  dsimp only at h
  split_ifs at h with hrange
  obtain ⟨rfl, rfl⟩ := Prod.mk.inj (Except.ok.inj h)
  obtain ⟨rfl, hds, hlength⟩ := of_readDigits_ok hread
  exact ⟨⟨ds, rfl, .run hds (hlength 2 rfl)⟩, hrange⟩

/-- Every spelling of a number between the bounds is read as this number. -/
theorem readBetween_of_spelling {least greatest n : Nat} (h : PairSpelling word n)
    (hleast : least ≤ n) (hgreatest : n ≤ greatest) (hrest : Solid rest) :
    readBetween least greatest (word ++ rest) = .ok (n, rest) := by
  cases h with
  | run hds hlength =>
      rw [readBetween, readDigits_run hds.2 hds.1 hrest (by rintro _ ⟨⟩; exact hlength)]
      exact if_pos ⟨hleast, hgreatest⟩

/-- What is spelt starts with no blank. -/
theorem skipBlank_run {ds : List Char} (hds : IsRun ds) : skipBlank (ds ++ rest) = ds ++ rest :=
  skipBlank_digits hds.2 hds.1

/-- No spelling of a year starts with a blank. -/
theorem skipBlank_year {n : Int} (h : YearSpelling word n) :
    skipBlank (word ++ rest) = word ++ rest := by
  cases h with
  | plain hds _ => exact skipBlank_run hds
  | signed negative hds => exact skipBlank_cons (signOf_solid negative).2 _

theorem skipBlank_pair {n : Nat} (h : PairSpelling word n) :
    skipBlank (word ++ rest) = word ++ rest := by
  cases h with
  | run hds _ => exact skipBlank_run hds

/-- Blanks and what is spelt behind them are read alike with and without the blanks. -/
theorem skipBlank_behind {α : Type} {Spells : List Char → α → Prop} {n : α}
    (hskip : ∀ {word}, Spells word n → skipBlank (word ++ rest) = word ++ rest)
    (h : Behind Spells s n) : ∃ word, skipBlank (s ++ rest) = word ++ rest ∧ Spells word n := by
  obtain ⟨gap, word, rfl, hgap, hword⟩ := h
  refine ⟨word, ?_, hword⟩
  rw [List.append_assoc, skipBlank_gap hgap, hskip hword]

/-- What is read behind blanks stands behind those blanks in the text. -/
theorem behind_of_skipBlank {α : Type} {Spells : List Char → α → Prop} {n : α}
    (hs : skipBlank s = word ++ rest) (h : Spells word n) :
    ∃ front, s = front ++ rest ∧ Behind Spells front n := by
  obtain ⟨gap, hsplit, hgap⟩ := exists_gap s
  refine ⟨gap ++ word, ?_, gap, word, rfl, hgap, h⟩
  rw [List.append_assoc, ← hs]
  exact hsplit

/-! ### Pieces -/

variable {parts parts' : Parts} {pieces : List Piece}

/-- Behind a number the format is at its end or has a character that is in no number. -/
def Stops (pieces : List Piece) : Prop :=
  pieces = [] ∨ ∃ c rest, pieces = .fixed c :: rest ∧ c.isDigit = false ∧ isBlank c = false

theorem stops_nil : Stops [] := .inl rfl

/-- Without pieces nothing is read. -/
theorem readPieces_nil_iff : readPieces parts [] s = .ok parts' ↔ s = [] ∧ parts' = parts := by
  cases s with
  | nil => exact ⟨fun h => ⟨rfl, (Except.ok.inj h).symm⟩, fun h => congrArg Except.ok h.2.symm⟩
  | cons c s => exact iff_of_false (by rintro ⟨⟩) (by rintro ⟨⟨⟩, -⟩)

theorem readPieces_fixed_iff {c : Char} :
    readPieces parts (.fixed c :: pieces) s = .ok parts'
      ↔ ∃ rest, s = c :: rest ∧ readPieces parts pieces rest = .ok parts' := by
  constructor
  · intro h
    cases s with
    | nil => cases h
    | cons d s =>
        by_cases hd : d = c
        · subst hd
          rw [readPieces_cons (.fixed d) (read_fixed d parts s)] at h
          exact ⟨s, rfl, h⟩
        · rw [readPieces, Piece.read, if_neg hd] at h
          cases h
  · rintro ⟨rest, rfl, h⟩
    rw [readPieces_cons (.fixed c) (read_fixed c parts rest)]
    exact h

/-- Where the pieces stop a number, what they read starts with neither digit nor blank. -/
theorem solid_of_readPieces (hstops : Stops pieces)
    (h : readPieces parts pieces s = .ok parts') : Solid s := by
  rcases hstops with rfl | ⟨c, rest, rfl, hc⟩
  · rw [(readPieces_nil_iff.mp h).1]
    exact solid_nil
  · obtain ⟨t, rfl, -⟩ := readPieces_fixed_iff.mp h
    exact solid_cons t hc

/-- A piece reads what is spelt and leaves what follows, so it splits the text there. -/
structure Splits {α : Type} (parts : Parts) (piece : Piece) (Spells : List Char → α → Prop)
    (put : α → Parts) : Prop where
  of_read : ∀ {s p rest}, piece.read parts s = .ok (p, rest) →
    ∃ word n, s = word ++ rest ∧ Spells word n ∧ p = put n
  read : ∀ {word rest n}, Spells word n → Solid rest →
    piece.read parts (word ++ rest) = .ok (put n, rest)

namespace Splits

variable {α : Type} {piece : Piece} {Spells : List Char → α → Prop} {put : α → Parts}

/-- **ONE PIECE AND THE REST**: a text is read if it falls into a spelling for the piece and a
    text for the pieces behind it. -/
theorem readPieces_iff (h : Splits parts piece Spells put) (hstops : Stops pieces) :
    readPieces parts (piece :: pieces) s = .ok parts'
      ↔ ∃ word rest n, s = word ++ rest ∧ Spells word n
        ∧ readPieces (put n) pieces rest = .ok parts' := by
  constructor
  · intro hparts
    cases hread : piece.read parts s with
    | error fault =>
        rw [readPieces, hread] at hparts
        cases hparts
    | ok x =>
        obtain ⟨word, n, hs, hword, hput⟩ := h.of_read hread
        rw [readPieces_cons piece hread, hput] at hparts
        exact ⟨word, x.2, n, hs, hword, hparts⟩
  · rintro ⟨word, rest, n, rfl, hword, hparts⟩
    rw [readPieces_cons piece (h.read hword (solid_of_readPieces hstops hparts))]
    exact hparts

/-- A fixed character behind the piece ends what it reads. -/
theorem readPieces_fixed_iff (h : Splits parts piece Spells put) {c : Char}
    (hc : c.isDigit = false ∧ isBlank c = false) :
    readPieces parts (piece :: .fixed c :: pieces) s = .ok parts'
      ↔ ∃ word rest n, s = word ++ c :: rest ∧ Spells word n
        ∧ readPieces (put n) pieces rest = .ok parts' := by
  rw [h.readPieces_iff (.inr ⟨c, pieces, rfl, hc⟩)]
  constructor
  · rintro ⟨word, s', n, rfl, hword, hfixed⟩
    obtain ⟨rest, rfl, hparts⟩ := Calendar.readPieces_fixed_iff.mp hfixed
    exact ⟨word, rest, n, rfl, hword, hparts⟩
  · rintro ⟨word, rest, n, rfl, hword, hparts⟩
    exact ⟨word, c :: rest, n, rfl, hword, Calendar.readPieces_fixed_iff.mpr ⟨rest, rfl, hparts⟩⟩

end Splits

/-- The year takes every spelling of an integer of 32 bits. -/
theorem splits_year : Splits parts (.number .year)
    (fun word n => Behind YearSpelling word n ∧ (IntegerRange.signed 32).Contains n)
    (fun n => { parts with year := n }) where
  of_read := by
    intro s p rest h
    obtain ⟨⟨n, rest'⟩, hread, h⟩ := bind_eq_ok h
    dsimp only at h
    split_ifs at h with hrange
    obtain ⟨rfl, rfl⟩ := Prod.mk.inj (Except.ok.inj h)
    obtain ⟨word, hs, hword⟩ := of_readYear_ok hread
    obtain ⟨front, rfl, hfront⟩ := behind_of_skipBlank hs hword
    exact ⟨front, n, rfl, ⟨hfront, hrange⟩, rfl⟩
  read := by
    rintro front rest n ⟨hfront, hrange⟩ hrest
    obtain ⟨word, hs, hword⟩ := skipBlank_behind skipBlank_year hfront
    rw [Piece.read, readPart, hs]
    dsimp only
    rw [readYear_of_spelling hword hrest]
    exact if_pos hrange

/-- The numbers of two digits are read in one way, each within bounds of its own. -/
theorem splits_pair {part : Part} {least greatest : Nat} {put : Nat → Parts}
    (hpart : ∀ s, readPart part parts s
      = (readBetween least greatest (skipBlank s)).map fun x => (put x.1, x.2)) :
    Splits parts (.number part)
      (fun word n => Behind PairSpelling word n ∧ least ≤ n ∧ n ≤ greatest) put where
  of_read := by
    intro s p rest h
    rw [Piece.read, hpart] at h
    obtain ⟨⟨n, rest'⟩, hread, heq⟩ := map_eq_ok h
    obtain ⟨rfl, rfl⟩ := Prod.mk.inj heq
    obtain ⟨⟨word, hs, hword⟩, hrange⟩ := of_readBetween_ok hread
    obtain ⟨front, rfl, hfront⟩ := behind_of_skipBlank hs hword
    exact ⟨front, n, rfl, ⟨hfront, hrange⟩, rfl⟩
  read := by
    rintro front rest n ⟨hfront, hleast, hgreatest⟩ hrest
    obtain ⟨word, hs, hword⟩ := skipBlank_behind skipBlank_pair hfront
    rw [Piece.read, hpart, hs, readBetween_of_spelling hword hleast hgreatest hrest]
    rfl

/-- The month, like all that follows it, takes one or two digits between its bounds. -/
theorem splits_month : Splits parts (.number .month)
    (fun word n => Behind PairSpelling word n ∧ 1 ≤ n ∧ n ≤ 12)
    (fun n => { parts with month := n }) := splits_pair fun _ => rfl

theorem splits_day : Splits parts (.number .day)
    (fun word n => Behind PairSpelling word n ∧ 1 ≤ n ∧ n ≤ 31)
    (fun n => { parts with day := n }) := splits_pair fun _ => rfl

theorem splits_hour : Splits parts (.number .hour)
    (fun word n => Behind PairSpelling word n ∧ 0 ≤ n ∧ n ≤ 23)
    (fun n => { parts with hour := n }) := splits_pair fun _ => rfl

theorem splits_minute : Splits parts (.number .minute)
    (fun word n => Behind PairSpelling word n ∧ 0 ≤ n ∧ n ≤ 59)
    (fun n => { parts with minute := n }) := splits_pair fun _ => rfl

/-- The second may be 60: a leap second. -/
theorem splits_second : Splits parts (.number .second)
    (fun word n => Behind PairSpelling word n ∧ 0 ≤ n ∧ n ≤ 60)
    (fun n => { parts with second := n }) := splits_pair fun _ => rfl

/-! ### Formats -/

theorem solid_dash : '-'.isDigit = false ∧ isBlank '-' = false := by decide

theorem solid_colon : ':'.isDigit = false ∧ isBlank ':' = false := by decide

/-- The format of dates reads a day that is spelt at the front. -/
theorem readPieces_day_iff (hstops : Stops pieces) :
    readPieces parts (dateFormat ++ pieces) s = .ok parts'
      ↔ ∃ word rest year month day, s = word ++ rest
        ∧ (Style.loose.Day word year month day ∧ (IntegerRange.signed 32).Contains year
          ∧ (1 ≤ month ∧ month ≤ 12) ∧ (1 ≤ day ∧ day ≤ 31))
        ∧ readPieces { parts with year := year, month := month, day := day } pieces rest
          = .ok parts' := by
  constructor
  · intro h
    obtain ⟨y, s₁, year, rfl, ⟨hy, hyear⟩, h⟩ := (splits_year.readPieces_fixed_iff solid_dash).mp h
    obtain ⟨m, s₂, month, rfl, ⟨hm, hmonth⟩, h⟩ :=
      (splits_month.readPieces_fixed_iff solid_dash).mp h
    obtain ⟨d, rest, day, rfl, ⟨hd, hday⟩, h⟩ := (splits_day.readPieces_iff hstops).mp h
    refine ⟨y ++ '-' :: (m ++ '-' :: d), rest, year, month, day, ?_,
      ⟨⟨y, m, d, rfl, hy, hm, hd⟩, hyear, hmonth, hday⟩, h⟩
    simp
  · rintro ⟨_, rest, year, month, day, rfl, ⟨⟨y, m, d, rfl, hy, hm, hd⟩, hyear, hmonth, hday⟩, h⟩
    refine (splits_year.readPieces_fixed_iff solid_dash).mpr
      ⟨y, m ++ '-' :: (d ++ rest), year, by simp, ⟨hy, hyear⟩, ?_⟩
    refine (splits_month.readPieces_fixed_iff solid_dash).mpr
      ⟨m, d ++ rest, month, rfl, ⟨hm, hmonth⟩, ?_⟩
    exact (splits_day.readPieces_iff hstops).mpr ⟨d, rest, day, rfl, ⟨hd, hday⟩, h⟩

/-- The pieces of a time read one that is spelt. -/
theorem readPieces_clock_iff :
    readPieces parts (timePieces []) s = .ok parts'
      ↔ ∃ hour minute second,
        (Style.loose.Clock s hour minute second ∧ hour ≤ 23 ∧ minute ≤ 59 ∧ second ≤ 60)
        ∧ parts' = { parts with hour := hour, minute := minute, second := second } := by
  constructor
  · intro h
    -- every number ends at a colon or at the end of the text
    obtain ⟨x, s₁, hour, rfl, ⟨hx, -, hhour⟩, h⟩ :=
      (splits_hour.readPieces_fixed_iff solid_colon).mp h
    obtain ⟨y, s₂, minute, rfl, ⟨hy, -, hminute⟩, h⟩ :=
      (splits_minute.readPieces_fixed_iff solid_colon).mp h
    obtain ⟨z, s₃, second, rfl, ⟨hz, -, hsecond⟩, h⟩ :=
      (splits_second.readPieces_iff stops_nil).mp h
    obtain ⟨rfl, rfl⟩ := readPieces_nil_iff.mp h
    rw [List.append_nil]
    exact ⟨hour, minute, second, ⟨⟨x, y, z, rfl, hx, hy, hz⟩, hhour, hminute, hsecond⟩, rfl⟩
  · rintro ⟨hour, minute, second, ⟨⟨x, y, z, rfl, hx, hy, hz⟩, hhour, hminute, hsecond⟩, rfl⟩
    refine (splits_hour.readPieces_fixed_iff solid_colon).mpr
      ⟨x, y ++ ':' :: z, hour, rfl, ⟨hx, Nat.zero_le _, hhour⟩, ?_⟩
    refine (splits_minute.readPieces_fixed_iff solid_colon).mpr
      ⟨y, z, minute, rfl, ⟨hy, Nat.zero_le _, hminute⟩, ?_⟩
    exact (splits_second.readPieces_iff stops_nil).mpr ⟨z, [], second, (List.append_nil z).symm,
      ⟨hz, Nat.zero_le _, hsecond⟩, readPieces_nil_iff.mpr ⟨rfl, rfl⟩⟩

/-- The year, the month and the day of a date lie within the bounds of their readers. -/
theorem ranges_of_date (d : Date) : (IntegerRange.signed 32).Contains d.year
    ∧ (1 ≤ d.month ∧ d.month ≤ 12) ∧ (1 ≤ d.day ∧ d.day ≤ 31) :=
  ⟨⟨Int.le_trans (by decide) d.leastYear_le, Int.le_trans d.le_greatestYear (by decide)⟩,
    d.month_range, d.day_pos, Nat.le_trans d.day_le (daysInMonth_le ..)⟩

/-- **WHICH TEXTS ARE DATES**: the loose spellings of days that exist. -/
theorem date_read_ok_iff {text : String} {d : Date} :
    Date.read text = .ok d ↔ Style.loose.Spells text.toList (.date d) := by
  constructor
  · intro h
    obtain ⟨parts, hparts, hd⟩ := bind_eq_ok h
    obtain ⟨word, rest, year, month, day, hs, ⟨hday, -⟩, hrest⟩ :=
      (readPieces_day_iff stops_nil).mp hparts
    obtain ⟨rfl, rfl⟩ := readPieces_nil_iff.mp hrest
    obtain ⟨hyear, hmonth, hday'⟩ := of_date_ok hd
    rw [List.append_nil] at hs
    rw [hs, Style.Spells, hyear, hmonth, hday']
    exact hday
  · intro h
    have hparts : readPieces {} dateFormat text.toList
        = .ok { year := d.year, month := d.month, day := d.day } :=
      (readPieces_day_iff stops_nil).mpr
        ⟨text.toList, [], d.year, d.month, d.day, (List.append_nil _).symm,
          ⟨h, ranges_of_date d⟩, readPieces_nil_iff.mpr ⟨rfl, rfl⟩⟩
    rw [Date.read, hparts]
    exact date_of_parts d rfl rfl rfl

/-- **WHICH TEXTS ARE TIMES ON A DAY**: the loose spellings of whole seconds of days that
    exist, leap seconds at the ends of minutes among them. -/
theorem dateTime_read_ok_iff {text : String} {t : DateTime} :
    DateTime.read text = .ok t ↔ Style.loose.Spells text.toList (.dateTime t) := by
  have hstops : Stops (.fixed 'T' :: timePieces []) := .inr ⟨'T', _, rfl, by decide⟩
  constructor
  · intro h
    obtain ⟨parts, hparts, ht⟩ := bind_eq_ok h
    obtain ⟨word, rest, year, month, day, hs, ⟨hday, -⟩, hrest⟩ :=
      (readPieces_day_iff hstops).mp hparts
    obtain ⟨clock, rfl, hrest'⟩ := readPieces_fixed_iff.mp hrest
    obtain ⟨hour, minute, second, ⟨hclock, -⟩, rfl⟩ := readPieces_clock_iff.mp hrest'
    obtain ⟨hdate, htime⟩ := of_dateTime_ok ht
    obtain ⟨hyear, hmonth, hday'⟩ := of_date_ok hdate
    -- no text shows a leap second within a minute, or a fraction
    obtain ⟨hh, hm, hs', hzero, hinner⟩ := TimeOfDay.ofClock?_eq_some_iff.mp htime
    refine ⟨word, clock, hs, ?_, ?_, hzero, hinner⟩
    · rw [hyear, hmonth, hday']
      exact hday
    · rw [hh, hm, hs']
      exact hclock
  · rintro ⟨word, clock, hs, hday, hclock, hzero, hinner⟩
    have hparts : readPieces {} dateTimeFormat text.toList
        = .ok { year := t.date.year, month := t.date.month, day := t.date.day
                hour := t.time.hour, minute := t.time.minute, second := t.time.shownSecond } := by
      rw [hs]
      refine (readPieces_day_iff hstops).mpr ⟨word, 'T' :: clock, t.date.year, t.date.month,
        t.date.day, rfl, ⟨hday, ranges_of_date t.date⟩, ?_⟩
      refine readPieces_fixed_iff.mpr ⟨clock, rfl, readPieces_clock_iff.mpr ?_⟩
      exact ⟨_, _, _, ⟨hclock, Nat.le_of_lt_succ t.time.hour_lt,
        Nat.le_of_lt_succ t.time.minute_lt, t.time.shownSecond_le⟩, rfl⟩
    rw [DateTime.read, hparts]
    refine (dateTime_of_parts t (date_of_parts t.date rfl rfl rfl) rfl rfl rfl hzero.symm).trans ?_
    rw [DateTime.shown, TimeOfDay.shown_of_not_innerLeap hinner]

end Calendar

end RecordFilter
