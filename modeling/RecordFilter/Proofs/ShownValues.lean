import RecordFilter.Proofs.HandOver
import RecordFilter.Proofs.Rereading
import RecordFilter.Proofs.Restatement
import RecordFilter.Proofs.ShortestDigits

/-! # Shown values can be told apart

    In a shown condition a value is followed by a blank, a comma, a closing bracket or by
    nothing.  None of these stands in the text of a number, a boolean or a point in time, and
    a text ends at the first quote that is not written twice; so a shown value tells where it
    ends.  Of two values of one type that are shown alike each is the other one
    (`Value.tells_display`), and they compare alike with every value (`Value.order_of_same`).

    Things that tell where they end may be put in a row between separators
    (`forall₂_of_intercalate_eq`). -/

namespace RecordFilter

/-- What may follow a shown value or condition. -/
def Ends (s : List Char) : Prop := ∀ c ∈ s.head?, c = ' ' ∨ c = ',' ∨ c = ')'

/-- What may follow a row of them: a closing bracket, if anything. -/
def Closes (s : List Char) : Prop := ∀ c ∈ s.head?, c = ')'

theorem Closes.ends {s : List Char} (h : Closes s) : Ends s := fun c hc => Or.inr (Or.inr (h c hc))

theorem closes_bracket (s : List Char) : Closes (')' :: s) := by
  rintro c ⟨⟩
  rfl

/-- What is written for two things tells them apart and where it ends: what is the same text
    with what follows is the text of related things, followed by the same. -/
def Tells {α : Type} (write : α → List Char) (R : α → α → Prop) (x y : α) : Prop :=
  ∀ s t, Ends s → Ends t → write x ++ s = write y ++ t → R x y ∧ s = t

/-! ## Rows -/

section

variable {α : Type} {write : α → List Char} {R : α → α → Prop} {sep sep' : List Char}

/-- A separator starts like nothing that closes a row. -/
def Separates (sep : List Char) : Prop := ∃ c t, sep = c :: t ∧ (c = ' ' ∨ c = ',')

/-- A separator ends every value in front of it. -/
theorem Separates.ends (h : Separates sep) (s : List Char) : Ends (sep ++ s) := by
  obtain ⟨c, t, rfl, hc⟩ := h
  rintro d ⟨⟩
  exact hc.imp_right Or.inl

/-- No separator starts with a bracket that closes. -/
theorem Separates.not_closes (h : Separates sep) (s : List Char) : ¬ Closes (sep ++ s) := by
  obtain ⟨c, t, rfl, hc⟩ := h
  intro hcloses
  obtain rfl : c = ')' := hcloses c rfl
  rcases hc with hc | hc
  · exact absurd hc (by decide)
  · exact absurd hc (by decide)

/-- **ROWS CAN BE TOLD APART**: the text of a row between separators tells its members, where
    it ends, and its separator, if there is any. -/
theorem forall₂_of_intercalate_eq (hsep : Separates sep) (hsep' : Separates sep')
    (hseps : ∀ u v, sep ++ u = sep' ++ v → sep = sep' ∧ u = v) {xs ys : List α}
    (htells : ∀ x ∈ xs, ∀ y ∈ ys, Tells write R x y) (hxs : xs ≠ []) (hys : ys ≠ [])
    {s t : List Char} (hs : Closes s) (ht : Closes t)
    (h : sep.intercalate (xs.map write) ++ s = sep'.intercalate (ys.map write) ++ t) :
    List.Forall₂ R xs ys ∧ s = t ∧ (1 < xs.length → sep = sep') := by
  induction xs generalizing ys with
  | nil => exact absurd rfl hxs
  | cons x xs ih =>
      obtain ⟨y, ys, rfl⟩ := List.exists_cons_of_ne_nil hys
      have hfirst := htells x (List.mem_cons_self ..) y (List.mem_cons_self ..)
      -- a row of one member is followed by what closes it, a longer one by its separator
      match xs, ys with
      | [], [] =>
          obtain ⟨hxy, rfl⟩ := hfirst s t hs.ends ht.ends (by simpa using h)
          exact ⟨.cons hxy .nil, rfl, fun hlength => absurd hlength (by simp)⟩
      | [], y' :: ys =>
          rw [List.map_cons, List.map_cons, List.map_cons, List.intercalate_cons_cons,
            List.append_assoc, List.append_assoc] at h
          obtain ⟨-, rfl⟩ := hfirst s _ hs.ends (hsep'.ends _) (by simpa using h)
          exact absurd hs (hsep'.not_closes _)
      | x' :: xs, [] =>
          rw [List.map_cons, List.map_cons, List.map_cons, List.intercalate_cons_cons,
            List.append_assoc, List.append_assoc] at h
          obtain ⟨-, rfl⟩ := hfirst _ t (hsep.ends _) ht.ends (by simpa using h)
          exact absurd ht (hsep.not_closes _)
      | x' :: xs, y' :: ys =>
          rw [List.map_cons, List.map_cons, List.map_cons, List.map_cons,
            List.intercalate_cons_cons, List.intercalate_cons_cons, List.append_assoc,
            List.append_assoc, List.append_assoc, List.append_assoc] at h
          obtain ⟨hxy, hrest⟩ := hfirst _ _ (hsep.ends _) (hsep'.ends _) h
          obtain ⟨hsame, hrest⟩ := hseps _ _ hrest
          obtain ⟨hall, rfl, -⟩ := ih
            (fun x hx y hy => htells x (List.mem_cons_of_mem _ hx) y (List.mem_cons_of_mem _ hy))
            (List.cons_ne_nil _ _) (List.cons_ne_nil _ _) hrest
          exact ⟨.cons hxy hall, rfl, fun _ => hsame⟩

end

/-! ## Plain texts -/

/-- A character that neither ends a shown value nor quotes it. -/
def isPlain (c : Char) : Bool := c != ' ' && c != ',' && c != ')' && c != '\''

/-- A text of such characters. -/
def Plain (s : List Char) : Prop := ∀ c ∈ s, isPlain c = true

instance (s : List Char) : Decidable (Plain s) :=
  decidable_of_iff (s.all isPlain = true) List.all_eq_true

theorem plain_cons {c : Char} {s : List Char} :
    Plain (c :: s) ↔ isPlain c = true ∧ Plain s := List.forall_mem_cons

theorem plain_append {s t : List Char} : Plain (s ++ t) ↔ Plain s ∧ Plain t :=
  List.forall_mem_append

/-- Digits are plain. -/
theorem plain_of_isDigit {s : List Char} (h : ∀ c ∈ s, c.isDigit = true) : Plain s := by
  intro c hc
  have hdigit := h c hc
  simp only [isPlain, Bool.and_eq_true, bne_iff_ne]
  exact ⟨⟨⟨ne_of_isDigit hdigit rfl, ne_of_isDigit hdigit rfl⟩, ne_of_isDigit hdigit rfl⟩,
    ne_of_isDigit hdigit rfl⟩

theorem plain_digitsOf (n : Nat) : Plain (digitsOf n) :=
  plain_of_isDigit fun _ => isDigit_of_mem_digitsOf

theorem plain_padded (width n : Nat) : Plain (padded width n) :=
  plain_of_isDigit fun _ => isDigit_of_mem_padded

theorem plain_signChars (negative : Bool) : Plain (signChars negative) := by
  cases negative with
  | true => exact List.forall_mem_singleton.mpr rfl
  | false => exact List.forall_mem_nil _

/-- A plain text is what stands in front of the first character that is not plain. -/
theorem takeWhile_isPlain {a s : List Char} (ha : Plain a) (hs : Ends s) :
    (a ++ s).takeWhile isPlain = a := by
  have hnone : s.takeWhile isPlain = [] := by
    cases s with
    | nil => rfl
    | cons c s =>
        have hc : isPlain c = false := by
          rcases hs c rfl with rfl | rfl | rfl <;> rfl
        simp [hc]
  rw [List.takeWhile_append_of_pos ha, hnone, List.append_nil]

/-- Plain texts in front of what ends them are read off in one way. -/
theorem eq_of_plain_append {a b s t : List Char} (ha : Plain a) (hb : Plain b) (hs : Ends s)
    (ht : Ends t) (h : a ++ s = b ++ t) : a = b ∧ s = t := by
  have hab : a = b := by
    rw [← takeWhile_isPlain ha hs, h, takeWhile_isPlain hb ht]
  subst hab
  exact ⟨rfl, List.append_cancel_left h⟩

/-- Integers are shown in plain characters. -/
theorem plain_integerText (n : Int) : Plain (integerText n).toList := by
  rw [integerText, String.toList_ofList, ← signChars_decide]
  exact plain_append.mpr ⟨plain_signChars _, plain_digitsOf _⟩

/-- A point behind the first digit keeps a text plain. -/
theorem plain_mantissa {ds : List Char} : Plain ds → Plain (match ds with
    | d :: e :: rest => d :: '.' :: e :: rest
    | ds => ds) := by
  intro hds
  have hpoint : isPlain '.' = true := rfl
  split
  · simpa [plain_cons, hpoint] using hds
  · exact hds

theorem plain_magnitudeText {ds : List Char} (hds : Plain ds) (scale : Int) :
    Plain (Decimal.magnitudeText ds scale) := by
  have htake : ∀ k, Plain (ds.take k) := fun k c hc => hds c (List.mem_of_mem_take hc)
  have hdrop : ∀ k, Plain (ds.drop k) := fun k c hc => hds c (List.mem_of_mem_drop hc)
  have hzeros : ∀ k, Plain (zeros k) := fun k => plain_of_isDigit fun _ => isDigit_of_mem_zeros
  have hmarks : isPlain '.' = true ∧ isPlain '0' = true ∧ isPlain 'E' = true
      ∧ isPlain 'e' = true ∧ isPlain '-' = true ∧ isPlain '+' = true := by decide
  unfold Decimal.magnitudeText
  dsimp only
  split_ifs
  · exact plain_append.mpr ⟨plain_mantissa hds, by simp [plain_cons, plain_digitsOf, hmarks]⟩
  · simp [plain_append, plain_cons, hds, hzeros, hmarks]
  · simp [plain_append, plain_cons, htake, hdrop, hmarks]
  · simp [plain_append, plain_cons, plain_digitsOf, hds, hmarks]
  · simp [plain_append, hds, hzeros]

/-- Decimals are shown in plain characters. -/
theorem plain_decimalText (d : Decimal) : Plain d.text.toList := by
  rw [Decimal.text]
  by_cases hzero : d.unscaled = 0
  · rw [if_pos hzero]
    exact List.forall_mem_singleton.mpr rfl
  · rw [if_neg hzero, String.toList_ofList, ← signChars_decide]
    exact plain_append.mpr ⟨plain_signChars _, plain_magnitudeText (plain_digitsOf _) _⟩

/-- Finite doubles are shown in plain characters. -/
theorem plain_doubleText {x : Double} (hx : x.isFinite = true) : Plain x.text.toList := by
  cases x with
  | nan => exact nomatch hx
  | infinite s => exact nomatch hx
  | finite negative rank =>
      rw [Double.toList_text_finite]
      refine plain_append.mpr ⟨plain_signChars _, ?_⟩
      intro c hc
      rcases Double.isDigit_or_point_of_mem hc with hc | rfl
      · exact plain_of_isDigit (List.forall_mem_singleton.mpr hc) c (List.mem_singleton_self c)
      · rfl

theorem plain_date (d : Date) : Plain d.chars := by
  have hyear : Plain (Date.yearText d.year) := by
    rw [Date.yearText]
    split_ifs
    · exact plain_padded _ _
    · exact plain_cons.mpr ⟨rfl, plain_padded _ _⟩
    · exact plain_cons.mpr ⟨rfl, plain_padded _ _⟩
  have hmark : isPlain '-' = true := rfl
  simp [Date.chars, plain_append, plain_cons, plain_padded, hyear, hmark]

/-- Dates with a time are shown in plain characters. -/
theorem plain_dateTime (t : DateTime) : Plain t.chars := by
  have hmarks : isPlain 'T' = true ∧ isPlain ':' = true := ⟨rfl, rfl⟩
  simp [DateTime.chars, plain_append, plain_cons, plain_padded, plain_date, hmarks]

/-! ## Quoted texts -/

/-- Every quote of a text twice. -/
def doubled (s : List Char) : List Char :=
  s.flatMap fun c => if c = '\'' then ['\'', '\''] else [c]

theorem doubled_cons_quote (s : List Char) : doubled ('\'' :: s) = '\'' :: '\'' :: doubled s := rfl

theorem doubled_cons {c : Char} (hc : c ≠ '\'') (s : List Char) :
    doubled (c :: s) = c :: doubled s := by
  rw [doubled, List.flatMap_cons, if_neg hc]
  rfl

/-- Plain characters hold no quote to be doubled. -/
theorem doubled_of_plain {s : List Char} (hs : Plain s) : doubled s = s := by
  induction s with
  | nil => rfl
  | cons c s ih =>
      obtain ⟨hc, hs⟩ := plain_cons.mp hs
      have hne : c ≠ '\'' := by
        rintro rfl
        exact absurd hc (by decide)
      rw [doubled_cons hne, ih hs]

/-- Reads a text up to the quote that closes it, and what follows. -/
def readDoubled : List Char → List Char × List Char
  | '\'' :: '\'' :: t => ('\'' :: (readDoubled t).1, (readDoubled t).2)
  | '\'' :: t => ([], t)
  | c :: t => (c :: (readDoubled t).1, (readDoubled t).2)
  | [] => ([], [])

/-- **A QUOTED TEXT TELLS WHERE IT ENDS**: at the quote that no other one follows. -/
theorem readDoubled_doubled (a : List Char) {s : List Char} (hs : Ends s) :
    readDoubled (doubled a ++ '\'' :: s) = (a, s) := by
  induction a with
  | nil =>
      show readDoubled ('\'' :: s) = ([], s)
      rw [readDoubled]
      rintro t rfl
      exact absurd (hs '\'' rfl) (by decide)
  | cons c a ih =>
      by_cases hc : c = '\''
      · subst hc
        rw [doubled_cons_quote]
        show readDoubled ('\'' :: '\'' :: (doubled a ++ '\'' :: s)) = _
        rw [readDoubled, ih]
      · rw [doubled_cons hc]
        show readDoubled (c :: (doubled a ++ '\'' :: s)) = _
        rw [readDoubled, ih]
        · intro t hquote
          exact absurd hquote hc
        · exact hc

/-- A quoted text ends at the first quote that is not doubled, so it is read off in one way. -/
theorem eq_of_doubled_append {a b s t : List Char} (hs : Ends s) (ht : Ends t)
    (h : doubled a ++ '\'' :: s = doubled b ++ '\'' :: t) : a = b ∧ s = t := by
  have hread := congrArg readDoubled h
  rw [readDoubled_doubled a hs, readDoubled_doubled b ht] at hread
  exact Prod.mk.inj hread

namespace Value

/-! ## Values -/

/-- A number of a type is the same as another one of the type if they stand for one number. -/
theorem same_decimal_iff {d e : Decimal} :
    (Value.decimal d).same (.decimal e) = true ↔ d.toRat = e.toRat := by
  show (d.order e == .eq) = true ↔ _
  rw [beq_iff_eq, Decimal.order_eq_compare, compare_eq_iff_eq]

/-- Every finite value is equal to itself. -/
theorem same_self_of_isFinite {v : Value} (hv : v.IsFinite) : v.same v = true := by
  cases v with
  | decimal d => exact same_decimal_iff.mpr rfl
  | float x =>
      cases x with
      | finite s rank =>
          show (some (compare (Double.signedUnits s rank) (Double.signedUnits s rank))
            == some .eq) = true
          rw [Std.compare_self]
          rfl
      | nan => exact nomatch hv _ rfl
      | infinite s => exact nomatch hv _ rfl
  | _ => exact beq_self_eq_true _

/-- Numbers with places apart, a value is the same as itself only. -/
theorem eq_of_same {v w : Value} (h : v.same w = true) (hdecimal : v.fieldType ≠ .decimal)
    (hfloat : v.fieldType ≠ .float) : v = w := by
  cases v with
  | decimal d => exact absurd rfl hdecimal
  | float x => exact absurd rfl hfloat
  | _ =>
      cases w <;> first
        | exact congrArg _ (beq_iff_eq.mp h)
        | exact nomatch h

/-- Two values that are the same as a third one are the same. -/
theorem same_of_same_right {v w u : Value} (hv : v.same u = true) (hw : w.same u = true)
    (hfloat : u.fieldType ≠ .float) : v.same w = true := by
  have hvu := Predicate.fieldType_of_same hv
  have hwu := Predicate.fieldType_of_same hw
  by_cases hdecimal : u.fieldType = .decimal
  · cases u with
    | decimal d =>
        cases v with
        | decimal e =>
            cases w with
            | decimal f =>
                rw [same_decimal_iff] at hv hw ⊢
                exact hv.trans hw.symm
            | _ => exact nomatch hwu
        | _ => exact nomatch hvu
    | _ => exact nomatch hdecimal
  · obtain rfl := eq_of_same hw (hwu ▸ hdecimal) (hwu ▸ hfloat)
    exact hv

/-- **LITERAL TEXTS TELL VALUES APART**, those of one type and whole seconds. -/
theorem same_of_literalText_eq {v w : Value} (htype : v.fieldType = w.fieldType)
    (hv : v.IsFinite) (hw : w.IsFinite) (hv' : v.IsWhole) (hw' : w.IsWhole)
    (h : v.literalText = w.literalText) : v.same w = true := by
  by_cases hfloat : v.fieldType = .float
  · cases v with
    | float x =>
        cases w with
        | float y =>
            obtain rfl := Double.eq_of_text_eq (hv x rfl) (hw y rfl) h
            exact same_self_of_isFinite hv
        | _ => exact nomatch htype
    | _ => exact nomatch hfloat
  · -- both are the same as what is read from the text
    obtain ⟨u, hu⟩ := exists_reread hfloat
    obtain ⟨u', hu'⟩ := exists_reread (htype ▸ hfloat)
    obtain rfl : u' = u := by
      have hread := hu'.read
      rw [← htype, ← h, hu.read] at hread
      exact (Except.ok.inj hread).symm
    refine same_of_same_right (hu.same_iff.mpr hv') (hu'.same_iff.mpr hw') ?_
    rw [← Predicate.fieldType_of_same (hu.same_iff.mpr hv')]
    exact hfloat

/-- Values of the type are shown between quotes. -/
def isQuoted : FieldType → Bool
  | .text | .date | .dateTime => true
  | _ => false

/-- A text without quotes is not changed between quotes. -/
theorem toList_quoted_of_plain {s : String} (h : Plain s.toList) :
    ("'" ++ s ++ "'").toList = '\'' :: (doubled s.toList ++ ['\'']) := by
  rw [doubled_of_plain h]
  simp

/-- Texts and dates are shown between quotes. -/
theorem toList_display_of_isQuoted {v : Value} (h : isQuoted v.fieldType = true) :
    v.display.toList = '\'' :: (doubled v.literalText.toList ++ ['\'']) := by
  cases v with
  | text s => exact String.toList_ofList
  | date d =>
      refine toList_quoted_of_plain ?_
      rw [literalText, Date.text, String.toList_ofList]
      exact plain_date d
  | dateTime t =>
      refine toList_quoted_of_plain ?_
      rw [literalText, DateTime.text, String.toList_ofList]
      exact plain_dateTime t
  | _ => cases h

/-- All other finite values are shown bare, in plain characters. -/
theorem display_of_not_isQuoted {v : Value} (h : isQuoted v.fieldType = false)
    (hv : v.IsFinite) : v.display = v.literalText ∧ Plain v.literalText.toList := by
  cases v with
  | int32 n => exact ⟨rfl, plain_integerText _⟩
  | int64 n => exact ⟨rfl, plain_integerText _⟩
  | decimal d => exact ⟨rfl, plain_decimalText d⟩
  | float x => exact ⟨rfl, plain_doubleText (hv x rfl)⟩
  | bool b =>
      refine ⟨rfl, ?_⟩
      cases b <;> decide
  | _ => exact nomatch h

/-- **SHOWN VALUES CAN BE TOLD APART**, those of one type. -/
theorem tells_display {v w : Value} (htype : v.fieldType = w.fieldType)
    (hv : v.IsFinite) (hw : w.IsFinite) (hv' : v.IsWhole) (hw' : w.IsWhole) :
    Tells (fun v => v.display.toList) (fun v w => v.same w = true) v w := by
  intro s t hs ht h
  dsimp only at h
  have hliteral : v.literalText.toList = w.literalText.toList ∧ s = t := by
    cases hquoted : isQuoted v.fieldType with
    | true =>
        rw [toList_display_of_isQuoted hquoted, toList_display_of_isQuoted (htype ▸ hquoted)] at h
        refine eq_of_doubled_append hs ht ?_
        simpa using h
    | false =>
        obtain ⟨hshown, hplain⟩ := display_of_not_isQuoted hquoted hv
        obtain ⟨hshown', hplain'⟩ := display_of_not_isQuoted (htype ▸ hquoted) hw
        rw [hshown, hshown'] at h
        exact eq_of_plain_append hplain hplain' hs ht h
  obtain ⟨htext, rfl⟩ := hliteral
  exact ⟨same_of_literalText_eq htype hv hw hv' hw' (String.toList_inj.mp htext), rfl⟩

/-! ## Values that are the same -/

/-- Floating point numbers that compare as equal are one infinity or one rational number. -/
theorem restates_of_order_float {x y : Double} (h : x.order y = some .eq) :
    (Value.float x).Restates (.float y) := by
  cases x with
  | nan => exact nomatch h
  | infinite s =>
      cases y with
      | nan => exact nomatch h
      | infinite t =>
          cases s <;> cases t <;> first | exact Or.inl rfl | exact nomatch h
      | finite t b => cases s <;> exact nomatch h
  | finite s a =>
      cases y with
      | nan => exact nomatch h
      | infinite t => cases t <;> exact nomatch h
      | finite t b =>
          rw [Double.order_eq_compare rfl rfl, Option.some.injEq, compare_eq_iff_eq] at h
          exact Or.inr ⟨_, rfl, congrArg some h.symm⟩

/-- What is the same stands for the same number. -/
theorem restates_of_same {v w : Value} (h : v.same w = true) : v.Restates w := by
  by_cases hdecimal : v.fieldType = .decimal
  · cases v with
    | decimal d =>
        cases w with
        | decimal e => exact Or.inr ⟨_, rfl, congrArg some (same_decimal_iff.mp h).symm⟩
        | _ => exact nomatch h
    | _ => exact nomatch hdecimal
  by_cases hfloat : v.fieldType = .float
  · cases v with
    | float x =>
        cases w with
        | float y => exact restates_of_order_float (beq_iff_eq.mp h)
        | _ => exact nomatch h
    | _ => exact nomatch hfloat
  · exact Or.inl (eq_of_same h hdecimal hfloat)

/-- **VALUES THAT ARE THE SAME COMPARE ALIKE** with every value. -/
theorem order_of_same {v w : Value} (h : v.same w = true) (u : Value) :
    u.order v = u.order w := by
  refine order_congr (Or.inl rfl) (restates_of_same h) ⟨fun _ => Iff.rfl, fun _ => ?_⟩
  rw [IsFloat, IsFloat, Predicate.fieldType_of_same h]

end Value

end RecordFilter
