import Mathlib.Data.List.TakeWhile
import RecordFilter.Number.DecimalText

/-! # Reading the texts of numbers

    The text of an integer reads back in every range that holds it, and the text
    of a decimal reads back as the same number (`Decimal.read_text`).  Only where
    zeros are put behind the digits of a decimal does its scale get lost; in all
    other texts the places that are counted and the exponent together give the
    scale that was written. -/

namespace RecordFilter

/-- A magnitude behind a sign. -/
def withSign (negative : Bool) (n : Nat) : Int := if negative then -(n : Int) else n

@[simp] theorem withSign_true (n : Nat) : withSign true n = -(n : Int) := rfl

@[simp] theorem withSign_false (n : Nat) : withSign false n = n := rfl

/-- The sign in front of a magnitude. -/
def signChars (negative : Bool) : List Char := if negative then ['-'] else []

/-- An integer is its magnitude with its sign. -/
theorem withSign_natAbs (n : Int) : withSign (decide (n < 0)) n.natAbs = n := by
  rw [withSign]
  by_cases hn : n < 0
  · rw [if_pos (decide_eq_true hn)]
    omega
  · rw [if_neg (by rw [decide_eq_false hn]; exact nofun)]
    omega

/-- Zeros at the end go along with the sign. -/
theorem withSign_mul_pow (negative : Bool) (n k : Nat) :
    withSign negative (n * 10 ^ k) = withSign negative n * 10 ^ k := by
  cases negative with
  | true => rw [withSign_true, withSign_true, Int.natCast_mul, Int.natCast_pow, Int.neg_mul]; rfl
  | false => rw [withSign_false, withSign_false, Int.natCast_mul, Int.natCast_pow]; rfl

/-- One digit more takes a number away from zero. -/
theorem withSign_next (negative : Bool) (soFar d : Nat) :
    (if negative then withSign negative soFar * 10 - (d : Int)
      else withSign negative soFar * 10 + (d : Int)) = withSign negative (10 * soFar + d) := by
  cases negative with
  | true =>
      show -(soFar : Int) * 10 - _ = -((10 * soFar + _ : Nat) : Int)
      omega
  | false =>
      show (soFar : Int) * 10 + _ = ((10 * soFar + _ : Nat) : Int)
      omega

/-- The sign in front of an integer is a minus, or there is none. -/
theorem signChars_decide (n : Int) :
    signChars (decide (n < 0)) = if n < 0 then ['-'] else [] := by
  rw [signChars]
  simp only [decide_eq_true_eq]

/-! ## Integers -/

theorem digit?_of_isDigit {c : Char} (h : c.isDigit = true) :
    digit? c = some (c.toNat - '0'.toNat) := if_pos h

/-- Further digits make a number no smaller. -/
theorem le_ofDigitChars (s : List Char) (soFar : Nat) : soFar ≤ Nat.ofDigitChars 10 s soFar := by
  rw [Nat.ofDigitChars_eq_ofDigitChars_zero]
  have : 1 * soFar ≤ 10 ^ s.length * soFar :=
    Nat.mul_le_mul_right soFar (Nat.pow_pos (by decide))
  omega

namespace IntegerRange

variable {range : IntegerRange} {negative : Bool} {s : List Char}

/-- Digits are read onto a number as long as what they denote lies in the range:
    no number on the way is further from zero. -/
theorem readDigits_eq (hzero : range.Contains 0) (hs : ∀ c ∈ s, c.isDigit = true) {soFar : Nat}
    (h : range.Contains (withSign negative (Nat.ofDigitChars 10 s soFar))) :
    range.readDigits negative (withSign negative soFar) s
      = .ok (withSign negative (Nat.ofDigitChars 10 s soFar)) := by
  induction s generalizing soFar with
  | nil => rfl
  | cons c s ih =>
      have hle := le_ofDigitChars s (10 * soFar + (c.toNat - '0'.toNat))
      rw [Nat.ofDigitChars_cons] at h ⊢
      rw [readDigits, digit?_of_isDigit (hs c (List.mem_cons_self ..))]
      dsimp only
      -- the digits to come only take the number further from zero, and it ends in the range
      have hnear : range.Contains (withSign negative (10 * soFar + (c.toNat - '0'.toNat))) := by
        obtain ⟨hleast, hgreatest⟩ := h
        obtain ⟨hleast0, hgreatest0⟩ := hzero
        cases negative with
        | true =>
            rw [withSign_true] at hleast ⊢
            exact ⟨by omega, by omega⟩
        | false =>
            rw [withSign_false] at hgreatest ⊢
            exact ⟨by omega, by omega⟩
      rw [withSign_next, if_neg (Int.not_lt.mpr hnear.1), if_neg (Int.not_lt.mpr hnear.2)]
      exact ih (fun d hd => hs d (List.mem_cons_of_mem _ hd)) h

/-- A run of digits is read as its number, if this lies in the range. -/
theorem read_digits (hzero : range.Contains 0) (hs : ∀ c ∈ s, c.isDigit = true) (hne : s ≠ [])
    (h : range.Contains (ofDigits s)) : range.read s = .ok (ofDigits s : Int) := by
  cases s with
  | nil => exact absurd rfl hne
  | cons c s =>
      have hsign : ∀ d t, d.isDigit = false → c :: s ≠ d :: t := by
        rintro d t hd ⟨⟩
        exact absurd rfl (ne_of_isDigit (hs c (List.mem_cons_self ..)) hd)
      rw [read]
      · rw [← withSign_false] at h ⊢
        exact readDigits_eq hzero hs h
      · exact nofun
      · exact hsign '+' [] rfl
      · exact hsign '-' [] rfl
      · exact fun t => hsign '+' t rfl
      · exact fun t => hsign '-' t rfl

/-- An integer behind its sign is read in every range that holds it. -/
theorem read_signed (range : IntegerRange) (negative : Bool) (hzero : range.Contains 0)
    (hs : ∀ c ∈ s, c.isDigit = true) (hne : s ≠ [])
    (h : range.Contains (withSign negative (ofDigits s))) :
    range.read (signChars negative ++ s) = .ok (withSign negative (ofDigits s)) := by
  cases negative with
  | true =>
      cases s with
      | nil => exact absurd rfl hne
      | cons c s =>
          -- behind the sign nothing but digits is left to read
          show range.readDigits true (withSign true 0) (c :: s) = _
          exact readDigits_eq hzero hs h
  | false => exact read_digits hzero hs hne h

/-- A plus in front of the digits changes nothing. -/
theorem read_plus (range : IntegerRange) (hzero : range.Contains 0)
    (hs : ∀ c ∈ s, c.isDigit = true) (hne : s ≠ []) (h : range.Contains (ofDigits s)) :
    range.read ('+' :: s) = .ok (ofDigits s : Int) := by
  cases s with
  | nil => exact absurd rfl hne
  | cons c s =>
      rw [← withSign_false] at h ⊢
      exact readDigits_eq hzero hs h

end IntegerRange

/-! ## Decimals -/

/-- A run that a character ends is taken and dropped up to it. -/
theorem takeWhile_append_cons {p : Char → Bool} {xs ys : List Char} {y : Char}
    (hxs : ∀ x ∈ xs, p x = true) (hy : p y = false) : (xs ++ y :: ys).takeWhile p = xs := by
  rw [List.takeWhile_append_of_pos hxs, List.takeWhile_cons_of_neg (by rw [hy]; exact nofun),
    List.append_nil]

theorem dropWhile_append_cons {p : Char → Bool} {xs ys : List Char} {y : Char}
    (hxs : ∀ x ∈ xs, p x = true) (hy : p y = false) :
    (xs ++ y :: ys).dropWhile p = y :: ys := by
  rw [List.dropWhile_append_of_pos hxs, List.dropWhile_cons_of_neg (by rw [hy]; exact nofun)]

namespace Decimal

/-! ### Numbers at another scale -/

/-- Two magnitudes are equal if they start at one position and agree at a common scale. -/
theorem magnitudeOrder_eq {a b : Decimal} (hposition : a.position = b.position)
    (hrescaled : a.rescaled (max a.scale b.scale) = b.rescaled (max a.scale b.scale)) :
    magnitudeOrder a b = .eq := by
  rw [magnitudeOrder, hposition, Std.compare_self]
  dsimp only
  rw [hrescaled, Std.compare_self]

/-- Zeros behind the digits and as many places more are the same number. -/
theorem sameValue_of_shift {a b : Decimal} (k : Nat) (hscale : b.scale = a.scale + k)
    (hunscaled : b.unscaled = a.unscaled * 10 ^ k) : a.sameValue b = true := by
  have hsign : b.unscaled.sign = a.unscaled.sign := by
    have hpow : (10 ^ k : Int).sign = 1 :=
      Int.sign_eq_one_of_pos (Int.pow_pos (by decide))
    rw [hunscaled, Int.sign_mul, hpow, Int.mul_one]
  rw [sameValue, order, hsign, Std.compare_self]
  dsimp only
  -- zero has no position; other numbers have the same first digit and agree where both scales end
  by_cases hzero : a.unscaled = 0
  · rw [if_pos hzero]
    rfl
  · have hnatAbs : b.unscaled.natAbs = a.unscaled.natAbs * 10 ^ k := by
      rw [hunscaled, Int.natAbs_mul, Int.natAbs_pow]
      rfl
    have hposition : a.position = b.position := by
      rw [position, position, hnatAbs, digitCount, digitCount,
        digitsOf_mul_pow (Int.natAbs_ne_zero.mpr hzero), List.length_append, zeros,
        List.length_replicate, hscale]
      omega
    have hrescaled : a.rescaled b.scale = b.rescaled b.scale := by
      have hmore : (b.scale - a.scale).toNat = k := by omega
      have hnone : (b.scale - b.scale).toNat = 0 := by omega
      rw [rescaled, rescaled, hnatAbs, hmore, hnone, Nat.pow_zero, Nat.mul_one]
    have hmax : max a.scale b.scale = b.scale := by omega
    have hmax' : max b.scale a.scale = b.scale := by omega
    rw [if_neg hzero]
    split
    · rw [magnitudeOrder_eq hposition (by rw [hmax, hrescaled])]
      rfl
    · rw [magnitudeOrder_eq hposition.symm (by rw [hmax', hrescaled])]
      rfl

/-! ### The parts of a text -/

/-- A run of digits is read as the magnitude that it spells. -/
theorem readMagnitude_digits {ds : List Char} (hds : ∀ c ∈ ds, c.isDigit = true)
    (hne : ds ≠ []) : readMagnitude ds = .ok (ofDigits ds) := by
  cases ds with
  | nil => exact absurd rfl hne
  | cons c ds =>
      have hall : ((c :: ds).all fun c => c.isDigit || c == '_') = true :=
        List.all_eq_true.mpr fun d hd => by rw [hds d hd]; rfl
      rw [readMagnitude, if_pos hall, List.filter_eq_self.mpr hds]
      · exact nofun
      · rintro t ⟨⟩
        exact absurd (hds '_' (List.mem_cons_self ..)) (by decide)

/-- Digits behind a sign, or behind none, are read as an integer of any size. -/
theorem readWhole_signed (negative : Bool) {ds : List Char} (hds : ∀ c ∈ ds, c.isDigit = true)
    (hne : ds ≠ []) :
    readWhole (signChars negative ++ ds) = .ok (withSign negative (ofDigits ds)) := by
  cases negative with
  | true =>
      show readWhole ('-' :: ds) = _
      rw [readWhole, readMagnitude_digits hds hne]
      rfl
  | false =>
      show readWhole ds = _
      rw [readWhole.eq_def]
      split
      · exact absurd (hds '-' (List.mem_cons_self ..)) (by decide)
      · exact absurd (hds '+' (List.mem_cons_self ..)) (by decide)
      · rw [readMagnitude_digits hds hne]
        rfl

/-- The exponent behind the digits of a text, with its mark. -/
inductive ExponentOf : List Char → Int → Prop where
  | none : ExponentOf [] 0
  | some {c : Char} {s : List Char} {x : Int} :
      isExponentMark c = true → (IntegerRange.signed 128).read s = .ok x →
      ExponentOf (c :: s) x

/-- A magnitude as it is written: digits with a point in front of the last of
    them, and an exponent.  What the exponent leaves of the places is the scale. -/
inductive Writes : List Char → List Char → Int → Prop where
  | intro {mantissa e ds : List Char} {places : Nat} {x scale : Int} :
      mantissa ≠ [] → (∀ c ∈ mantissa, c.isDigit = true ∨ c = '.') →
      splitPoint mantissa = (ds, places) → ExponentOf e x → scale = places - x →
      Writes (mantissa ++ e) ds scale

/-- Digits without a point have no places behind one. -/
theorem splitPoint_digits {m : List Char} (hm : ∀ c ∈ m, c.isDigit = true) :
    splitPoint m = (m, 0) := by
  have hdrop : m.dropWhile (· != '.') = [] :=
    List.dropWhile_eq_nil_iff.mpr fun c hc => bne_iff_ne.mpr (ne_of_isDigit (hm c hc) rfl)
  rw [splitPoint, hdrop]

/-- The digits in front of a point and behind it are joined; those behind it are counted. -/
theorem splitPoint_point {w p : List Char} (hw : ∀ c ∈ w, c.isDigit = true)
    (hp : ∀ c ∈ p, c.isDigit = true) :
    splitPoint (w ++ '.' :: p) = (w ++ p, p.length) := by
  have hne : ∀ c ∈ w, (c != '.') = true := fun c hc =>
    bne_iff_ne.mpr (ne_of_isDigit (hw c hc) rfl)
  have hfilter : p.filter (· != '_') = p :=
    List.filter_eq_self.mpr fun c hc => bne_iff_ne.mpr (ne_of_isDigit (hp c hc) rfl)
  rw [splitPoint, dropWhile_append_cons hne rfl, takeWhile_append_cons hne rfl]
  dsimp only
  rw [hfilter]

/-- A sign stays in front of the digits. -/
theorem splitPoint_sign (negative : Bool) {m ds : List Char} {places : Nat}
    (h : splitPoint m = (ds, places)) :
    splitPoint (signChars negative ++ m) = (signChars negative ++ ds, places) := by
  cases negative with
  | false => exact h
  | true =>
      show splitPoint ('-' :: m) = ('-' :: ds, places)
      rw [splitPoint] at h ⊢
      rw [List.dropWhile_cons_of_pos rfl, List.takeWhile_cons_of_pos rfl]
      split at h
      all_goals
        obtain ⟨rfl, rfl⟩ := Prod.mk.inj h
        rfl

/-- No digit and no point starts an exponent. -/
theorem isExponentMark_eq_false {c : Char} (h : c.isDigit = true ∨ c = '.') :
    isExponentMark c = false := by
  rcases h with h | rfl
  · rw [isExponentMark, Bool.or_eq_false_iff, beq_eq_false_iff_ne, beq_eq_false_iff_ne]
    exact ⟨ne_of_isDigit h rfl, ne_of_isDigit h rfl⟩
  · rfl

/-- **WHAT IS WRITTEN IS READ**: the digits of a magnitude at its scale, behind
    any sign. -/
theorem read_of_writes (negative : Bool) {s ds : List Char} {scale : Int}
    (h : Writes s ds scale) (hds : ∀ c ∈ ds, c.isDigit = true) (hne : ds ≠ [])
    (hscale : (IntegerRange.signed 64).Contains scale) :
    read (String.ofList (signChars negative ++ s))
      = .ok ⟨withSign negative (ofDigits ds), scale, hscale⟩ := by
  cases h with
  | @intro mantissa e _ places x _ hmantissa hplain hsplit hexponent heq =>
      subst heq
      -- no exponent mark stands in the mantissa, so it ends where the exponent starts
      have hmarks : ∀ c ∈ signChars negative ++ mantissa, (!isExponentMark c) = true := by
        intro c hc
        rw [Bool.not_eq_true']
        rcases List.mem_append.mp hc with hc | hc
        · cases negative with
          | true =>
              rw [List.mem_singleton.mp hc]
              rfl
          | false => exact nomatch hc
        · exact isExponentMark_eq_false (hplain c hc)
      have htake : (signChars negative ++ (mantissa ++ e)).takeWhile (fun c => !isExponentMark c)
          = signChars negative ++ mantissa := by
        rw [← List.append_assoc]
        cases hexponent with
        | none => rw [List.append_nil, List.takeWhile_eq_self_iff.mpr hmarks]
        | some hmark _ => exact takeWhile_append_cons hmarks (by rw [hmark]; rfl)
      have hread : readExponent (signChars negative ++ (mantissa ++ e)) = .ok x := by
        rw [← List.append_assoc, readExponent]
        cases hexponent with
        | none => rw [List.append_nil, List.dropWhile_eq_nil_iff.mpr hmarks]
        | some hmark hx =>
            rw [dropWhile_append_cons hmarks (by rw [hmark]; rfl)]
            exact hx
      rw [read, String.toList_ofList, htake, hread]
      dsimp only
      rw [if_neg (List.append_ne_nil_of_right_ne_nil _ hmantissa), readScaled,
        splitPoint_sign negative hsplit]
      dsimp only
      rw [dif_pos hscale, readWhole_signed negative hds hne]

/-! ### The texts of magnitudes -/

theorem isDigit_of_take {ds : List Char} (hds : ∀ c ∈ ds, c.isDigit = true) (k : Nat) :
    ∀ c ∈ ds.take k, c.isDigit = true := fun c hc => hds c (List.mem_of_mem_take hc)

theorem isDigit_of_drop {ds : List Char} (hds : ∀ c ∈ ds, c.isDigit = true) (k : Nat) :
    ∀ c ∈ ds.drop k, c.isDigit = true := fun c hc => hds c (List.mem_of_mem_drop hc)

/-- Digits around a point, with an exponent, write all the digits at the scale of the places less
    the exponent. -/
theorem writes_point {w p e : List Char} {x scale : Int} (hw : ∀ c ∈ w, c.isDigit = true)
    (hp : ∀ c ∈ p, c.isDigit = true) (he : ExponentOf e x) (hscale : scale = p.length - x) :
    Writes ((w ++ '.' :: p) ++ e) (w ++ p) scale := by
  refine .intro (List.append_ne_nil_of_right_ne_nil _ nofun) ?_ (splitPoint_point hw hp) he
    hscale
  intro c hc
  rcases List.mem_append.mp hc with hc | hc
  · exact Or.inl (hw c hc)
  · rcases List.mem_cons.mp hc with rfl | hc
    · exact Or.inr rfl
    · exact Or.inl (hp c hc)

/-- Digits without a point, with an exponent, write themselves at the scale that the exponent
    takes away. -/
theorem writes_digits {ds e : List Char} {x scale : Int} (hds : ∀ c ∈ ds, c.isDigit = true)
    (hne : ds ≠ []) (he : ExponentOf e x) (hscale : scale = -x) : Writes (ds ++ e) ds scale := by
  refine .intro hne (fun c hc => Or.inl (hds c hc)) (splitPoint_digits hds) he ?_
  rw [hscale]
  exact (Int.zero_sub x).symm

/-- Digits around a point write all the digits at the scale of the places. -/
theorem writes_plainPoint {w p : List Char} {scale : Int} (hw : ∀ c ∈ w, c.isDigit = true)
    (hp : ∀ c ∈ p, c.isDigit = true) (hscale : scale = p.length) :
    Writes (w ++ '.' :: p) (w ++ p) scale := by
  have h := writes_point hw hp .none (hscale.trans (Int.sub_zero _).symm)
  rw [List.append_nil] at h
  exact h

theorem writes_plainDigits {ds : List Char} (hds : ∀ c ∈ ds, c.isDigit = true) (hne : ds ≠ []) :
    Writes ds ds 0 := by
  have h := writes_digits hds hne .none Int.neg_zero.symm
  rw [List.append_nil] at h
  exact h

/-- The range of exponents holds every count of places that a scale can ask for. -/
theorem signed128_contains (negative : Bool) {j : Nat} (hj : j ≤ 2 ^ 63) :
    (IntegerRange.signed 128).Contains (withSign negative j) := by
  show -2 ^ 127 ≤ withSign negative j ∧ withSign negative j ≤ 2 ^ 127 - 1
  cases negative with
  | true => rw [withSign_true]; omega
  | false => rw [withSign_false]; omega

/-- A small exponent is read behind its minus. -/
theorem exponentOf_minus {j : Nat} (hj : j ≤ 2 ^ 63) :
    ExponentOf ('E' :: '-' :: digitsOf j) (-j) := by
  refine .some rfl ?_
  have hread := IntegerRange.read_signed (.signed 128) true (by decide)
    (fun _ => isDigit_of_mem_digitsOf) (digitsOf_ne_nil j)
  rw [ofDigits_digitsOf] at hread
  exact hread (signed128_contains true hj)

theorem exponentOf_plus {j : Nat} (hj : j ≤ 2 ^ 63) :
    ExponentOf ('e' :: '+' :: digitsOf j) j := by
  refine .some rfl ?_
  have hread := IntegerRange.read_plus (.signed 128) (by decide)
    (fun _ => isDigit_of_mem_digitsOf) (digitsOf_ne_nil j)
  rw [ofDigits_digitsOf] at hread
  exact hread (signed128_contains false hj)

/-- A point behind the first digit, and an exponent that moves it to its place. -/
theorem writes_scientific {ds : List Char} (hds : ∀ c ∈ ds, c.isDigit = true) (hne : ds ≠ [])
    {scale : Int} {j : Nat} (hj : j ≤ 2 ^ 63) (hscale : scale = ds.length - 1 + j) :
    Writes ((match ds with
      | d :: e :: rest => d :: '.' :: e :: rest
      | ds => ds) ++ 'E' :: '-' :: digitsOf j) ds scale := by
  have he := exponentOf_minus hj
  match ds, hne with
  | [d], _ =>
      refine writes_digits hds nofun he ?_
      rw [hscale, List.length_singleton]
      omega
  | d :: e :: rest, _ =>
      have hd : ∀ c ∈ [d], c.isDigit = true := fun c hc =>
        hds c (List.mem_of_mem_take (i := 1) hc)
      refine writes_point hd (fun c hc => hds c (List.mem_cons_of_mem _ hc)) he ?_
      rw [hscale, List.length_cons]
      omega

/-- **EVERY MAGNITUDE IS WRITTEN** with its digits and its scale, but for zeros
    that make up for a negative scale. -/
theorem writes_magnitudeText (n : Nat) {scale : Int}
    (hscale : (IntegerRange.signed 64).Contains scale) :
    ∃ ds scale' k, Writes (magnitudeText (digitsOf n) scale) ds scale'
      ∧ (IntegerRange.signed 64).Contains scale'
      ∧ (∀ c ∈ ds, c.isDigit = true) ∧ ds ≠ []
      ∧ scale' = scale + (k : Nat) ∧ ofDigits ds = n * 10 ^ k := by
  have hdigits : ∀ c ∈ digitsOf n, c.isDigit = true := fun _ => isDigit_of_mem_digitsOf
  have hne := digitsOf_ne_nil n
  have hlength : 0 < (digitsOf n).length := List.length_pos_iff.mpr hne
  have hvalue : ofDigits (digitsOf n) = n * 10 ^ 0 := by
    rw [ofDigits_digitsOf, Nat.pow_zero, Nat.mul_one]
  have hbounds : -2 ^ 63 ≤ scale ∧ scale ≤ 2 ^ 63 - 1 := hscale
  unfold magnitudeText
  dsimp only
  -- the styles of the writer in turn: with an exponent, a point in front, a point inside, an
  -- exponent behind, zeros behind
  split_ifs with hpositive hfar hcount hfar
  · refine ⟨digitsOf n, scale, 0, ?_, hscale, hdigits, hne, (Int.add_zero _).symm, hvalue⟩
    rw [mostLeadingZeros] at hfar
    exact writes_scientific hdigits hne (by omega) (by omega)
  · -- a point behind a zero, and zeros between the point and the digits
    refine ⟨['0'] ++ (zeros (scale - (digitsOf n).length).toNat ++ digitsOf n), scale, 0, ?_,
      hscale, ?_, nofun, (Int.add_zero _).symm, ?_⟩
    · have hplaces : ∀ c ∈ zeros (scale - (digitsOf n).length).toNat ++ digitsOf n,
          c.isDigit = true :=
        fun c hc => (List.mem_append.mp hc).elim isDigit_of_mem_zeros (hdigits c)
      refine writes_plainPoint (List.forall_mem_singleton.mpr rfl) hplaces ?_
      rw [List.length_append, zeros, List.length_replicate]
      omega
    · intro c hc
      rcases List.mem_append.mp hc with hc | hc
      · rw [List.mem_singleton.mp hc]
        rfl
      · exact (List.mem_append.mp hc).elim isDigit_of_mem_zeros (hdigits c)
    · rw [show ['0'] = zeros 1 from rfl, ofDigits_zeros_append, ofDigits_zeros_append, hvalue]
  · -- a point between the digits
    refine ⟨_, scale, 0, ?_, hscale, hdigits, hne, (Int.add_zero _).symm, hvalue⟩
    have hplaces : scale = ((digitsOf n).drop ((digitsOf n).length - scale).toNat).length := by
      rw [List.length_drop]
      omega
    have h := writes_plainPoint (isDigit_of_take hdigits ((digitsOf n).length - scale).toNat)
      (isDigit_of_drop hdigits _) hplaces
    rw [List.take_append_drop] at h
    exact h
  · refine ⟨digitsOf n, scale, 0, ?_, hscale, hdigits, hne, (Int.add_zero _).symm, hvalue⟩
    rw [mostTrailingZeros] at hfar
    exact writes_digits hdigits hne (exponentOf_plus (j := (-scale).toNat) (by omega)) (by omega)
  · -- zeros in place of the scale
    have hall : ∀ c ∈ digitsOf n ++ zeros (-scale).toNat, c.isDigit = true :=
      fun c hc => (List.mem_append.mp hc).elim (hdigits c) isDigit_of_mem_zeros
    have hnonempty := List.append_ne_nil_of_left_ne_nil hne (zeros (-scale).toNat)
    exact ⟨_, 0, (-scale).toNat, writes_plainDigits hall hnonempty, by decide, hall, hnonempty,
      by omega, by rw [ofDigits_append_zeros, ofDigits_digitsOf]⟩

/-- **DECIMALS READ BACK**: the text of a decimal reads as the same number. -/
theorem read_text (d : Decimal) : ∃ e, read d.text = .ok e ∧ d.sameValue e = true := by
  by_cases hzero : d.unscaled = 0
  · refine ⟨ofInt 0, ?_, ?_⟩
    · rw [text, if_pos hzero]
      rfl
    · rw [sameValue, order, hzero]
      rfl
  · obtain ⟨ds, scale, k, hwrites, hscale, hds, hne, hplaces, hvalue⟩ :=
      writes_magnitudeText d.unscaled.natAbs d.scale_mem
    refine ⟨⟨withSign (decide (d.unscaled < 0)) (ofDigits ds), scale, hscale⟩, ?_,
      sameValue_of_shift k hplaces ?_⟩
    · rw [text, if_neg hzero, ← signChars_decide]
      exact read_of_writes _ hwrites hds hne hscale
    · show withSign _ (ofDigits ds) = _
      rw [hvalue, withSign_mul_pow, withSign_natAbs]

end Decimal

end RecordFilter
