import Mathlib.Tactic.Linarith
import RecordFilter.Number.DoubleText
import RecordFilter.Proofs.ExactNumbers
import RecordFilter.Proofs.WrittenNumbers

/-! # Shortest digits tell numbers apart

    The text of a finite number has digits that denote a number in the interval of its rank.
    They are found with seventeen digits at the latest: there the grid is finer than the
    interval is wide, so one of the two neighbours lies inside.

    The intervals of different ranks have no number in common.  The high end of one is the low
    end of the next, halfway between the two magnitudes, and it belongs to the one of them
    whose significand is even.  So the text of a finite number determines it
    (`Double.eq_of_text_eq`). -/

namespace RecordFilter

namespace Double

/-- The next magnitude is one step of the scale away, also at the end of a block. -/
theorem units_succ (rank : Nat) : units (rank + 1) = units rank + 2 ^ shift rank := by
  by_cases hend : rank % 2 ^ 52 = 2 ^ 52 - 1
  · -- the next rank is the first of a block, whose scale is the double but for the first two
    rcases Nat.eq_zero_or_pos (rank / 2 ^ 52) with hblock | hblock
    · obtain rfl : rank = 2 ^ 52 - 1 := by omega
      decide
    · have hscale : shift (rank + 1) = shift rank + 1 := by
        rw [shift, shift]
        omega
      have hfirst : significand (rank + 1) = 2 ^ 52 := by
        rw [significand]
        split_ifs <;> omega
      have hlast : significand rank = 2 ^ 53 - 1 := by
        rw [significand]
        split_ifs <;> omega
      rw [units, units, hscale, hfirst, hlast, Nat.pow_succ]
      omega
  · have hscale : shift (rank + 1) = shift rank := by
      rw [shift, shift]
      omega
    have hnext : significand (rank + 1) = significand rank + 1 := by
      rw [significand, significand]
      split_ifs <;> omega
    rw [units, units, hscale, hnext, Nat.succ_mul]

/-- A higher rank has more units. -/
theorem units_strictMono : StrictMono units := strictMono_nat_of_lt_succ fun rank => by
  rw [units_succ]
  exact Nat.lt_add_of_pos_right (Nat.pow_pos (by decide))

/-- A significand is even as its rank is. -/
theorem significand_mod_two (rank : Nat) : significand rank % 2 = rank % 2 := by
  rw [significand]
  split_ifs <;> omega

/-- A significand has 53 bits. -/
theorem significand_lt (rank : Nat) : significand rank < 2 ^ 53 := by
  rw [significand]
  split_ifs <;> omega

end Double

namespace Shortest

open Double

namespace Interval

/-! ## Intervals -/

/-- The number lies in the interval, and at an end of it only if the ends belong to it. -/
def Has (i : Interval) (q : ℚ) : Prop :=
  i.low ≤ q * i.den ∧ q * i.den ≤ i.high
    ∧ (i.closed = false → i.low < q * i.den ∧ q * i.den < i.high)

/-- Whether a fraction is inside of an interval is decided across its denominator. -/
theorem contains_iff (i : Interval) {num den : Nat} (hden : 0 < den) :
    i.contains num den = true ↔ i.Has (num / den) := by
  have hpos : (0 : ℚ) < den := Nat.cast_pos.mpr hden
  have hscale : (num / den : ℚ) * i.den = (num * i.den : Nat) / den := by
    push_cast
    ring
  rw [Has, hscale, le_div_iff₀ hpos, div_le_iff₀ hpos, lt_div_iff₀ hpos, div_lt_iff₀ hpos,
    contains]
  norm_cast
  cases i.closed with
  | true => simp
  | false =>
      simp only [Bool.false_eq_true, if_false, Bool.and_eq_true, decide_eq_true_eq,
        forall_const]
      exact ⟨fun h => ⟨h.1.le, h.2.le, h⟩, fun h => h.2.2⟩

theorem value_ofRank (rank : Nat) : (ofRank rank).value = 4 * units rank := by
  rw [ofRank, units, Nat.mul_assoc]

/-- The high end of an interval is halfway to the next magnitude. -/
theorem high_ofRank (rank : Nat) :
    (ofRank rank).high = 2 * (units rank + units (rank + 1)) := by
  rw [units_succ]
  show (4 * significand rank + 2) * 2 ^ shift rank = _
  rw [units]
  ring

/-- The low end of an interval is halfway to the magnitude before it. -/
theorem low_ofRank_succ (rank : Nat) :
    (ofRank (rank + 1)).low = 2 * (units rank + units (rank + 1)) := by
  have hunits := units_succ rank
  rw [hunits]
  show (4 * significand (rank + 1) - _) * 2 ^ shift (rank + 1) = _
  have hscaled : significand (rank + 1) * 2 ^ shift (rank + 1) = units rank + 2 ^ shift rank :=
    hunits
  rw [Nat.sub_mul, Nat.mul_assoc, hscaled]
  by_cases hfirst : significand (rank + 1) = 2 ^ 52 ∧ 0 < shift (rank + 1)
  · -- the step before the first rank of a block is half of the one behind it
    have hscale : shift (rank + 1) = shift rank + 1 := by
      have hrank := hfirst.1
      have hpos := hfirst.2
      rw [significand] at hrank
      rw [shift] at hpos ⊢
      rw [shift]
      split_ifs at hrank <;> omega
    rw [if_pos hfirst, hscale, Nat.pow_succ]
    omega
  · have hscale : shift (rank + 1) = shift rank := by
      rw [significand, shift] at hfirst
      rw [shift, shift]
      split_ifs at hfirst <;> omega
    rw [if_neg hfirst, hscale]
    omega

/-- The interval of an even rank has its bounds inside. -/
theorem closed_ofRank (rank : Nat) : (ofRank rank).closed = decide (rank % 2 = 0) := by
  rw [ofRank, significand_mod_two]

/-- **INTERVALS ARE APART**: no number lies in those of two ranks. -/
theorem eq_of_has {a b : Nat} {q : ℚ} (ha : (ofRank a).Has q) (hb : (ofRank b).Has q) :
    a = b := by
  wlog hlt : a < b generalizing a b with hwlog
  · rcases Nat.lt_or_eq_of_le (Nat.le_of_not_lt hlt) with h | h
    · exact (hwlog hb ha h).symm
    · exact h.symm
  exfalso
  obtain ⟨b, rfl⟩ : ∃ c, b = c + 1 := ⟨b - 1, by omega⟩
  have hhigh : q * (ofRank a).den ≤ 2 * (units a + units (a + 1)) := by
    have h := ha.2.1
    rw [high_ofRank] at h
    exact_mod_cast h
  have hlow : 2 * (units b + units (b + 1)) ≤ q * (ofRank a).den := by
    have h := hb.1
    rw [low_ofRank_succ] at h
    exact_mod_cast h
  rcases Nat.lt_or_eq_of_le (Nat.le_of_lt_succ hlt) with h | rfl
  · -- the ends do not meet
    have hless : units a < units b := units_strictMono h
    have hless' : units (a + 1) < units (b + 1) := units_strictMono (Nat.succ_lt_succ h)
    have hq : (2 * (units b + units (b + 1)) : ℚ) ≤ 2 * (units a + units (a + 1)) :=
      hlow.trans hhigh
    have : 2 * (units b + units (b + 1)) ≤ 2 * (units a + units (a + 1)) := by exact_mod_cast hq
    omega
  · -- the ends meet, and one of the intervals is without its ends
    rcases Nat.mod_two_eq_zero_or_one a with hmod | hmod
    · have hopen := (hb.2.2 (by rw [closed_ofRank]; exact decide_eq_false (by omega))).1
      rw [low_ofRank_succ] at hopen
      push_cast at hopen
      exact absurd hhigh (not_le.mpr hopen)
    · have hopen := (ha.2.2 (by rw [closed_ofRank]; exact decide_eq_false (by omega))).2
      rw [high_ofRank] at hopen
      push_cast at hopen
      exact absurd hlow (not_le.mpr hopen)

/-- An interval is so wide that a grid of seventeen digits is finer. -/
theorem value_lt_width (rank : Nat) :
    (ofRank (rank + 1)).value
      < 10 ^ 16 * ((ofRank (rank + 1)).high - (ofRank (rank + 1)).low) := by
  have hscale : 0 < 2 ^ shift (rank + 1) := Nat.pow_pos (by decide)
  have hlt := significand_lt (rank + 1)
  show 4 * significand (rank + 1) * 2 ^ shift (rank + 1)
    < 10 ^ 16 * ((4 * significand (rank + 1) + 2) * 2 ^ shift (rank + 1)
      - (4 * significand (rank + 1) - _) * 2 ^ shift (rank + 1))
  rw [← Nat.sub_mul, ← Nat.mul_assoc]
  refine Nat.mul_lt_mul_of_pos_right ?_ hscale
  split_ifs with hfirst
  · rw [hfirst.1]
    decide
  · omega

/-- Below a double there is room, unless it is zero. -/
theorem low_lt_value (rank : Nat) : (ofRank (rank + 1)).low < (ofRank (rank + 1)).value := by
  have hunits := units_strictMono (lt_add_one rank)
  rw [low_ofRank_succ, value_ofRank]
  omega

/-- Above a double there is room. -/
theorem value_lt_high (rank : Nat) : (ofRank rank).value < (ofRank rank).high := by
  have hunits := units_strictMono (lt_add_one rank)
  rw [high_ofRank, value_ofRank]
  omega

theorem value_pos (rank : Nat) : 0 < (ofRank (rank + 1)).value := by
  have hunits := units_strictMono (Nat.succ_pos rank)
  rw [value_ofRank]
  exact Nat.mul_pos (by decide) (Nat.zero_lt_of_lt hunits)

end Interval

/-! ## Grids -/

/-- The step of a grid, a power of ten, as a fraction. -/
def step (e : Int) : Nat × Nat := if 0 ≤ e then (10 ^ e.toNat, 1) else (1, 10 ^ (-e).toNat)

theorem step_pos (e : Int) : 0 < (step e).2 := by
  rw [step]
  split_ifs
  · exact Nat.one_pos
  · exact Nat.pow_pos (by decide)

/-- The step of an exponent is that power of ten. -/
theorem cast_step (e : Int) : ((step e).1 : ℚ) = (10 : ℚ) ^ e * (step e).2 := by
  rw [step]
  split_ifs with he
  · obtain ⟨n, rfl⟩ := Int.eq_ofNat_of_zero_le he
    push_cast
    rw [Int.toNat_natCast, zpow_natCast, mul_one]
  · obtain ⟨n, hn⟩ := Int.eq_ofNat_of_zero_le (show 0 ≤ -e by omega)
    obtain rfl : e = -(n : Int) := by omega
    rw [neg_neg, Int.toNat_natCast, zpow_neg, zpow_natCast]
    push_cast
    exact (inv_mul_cancel₀ (by positivity)).symm

theorem step_num_pos (e : Int) : 0 < (step e).1 := by
  rw [step]
  split_ifs
  · exact Nat.pow_pos (by decide)
  · exact Nat.one_pos

/-- A number of steps is that multiple of the power of ten. -/
theorem step_mul (n : Nat) (e : Int) : ((n * (step e).1 : Nat) : ℚ) / (step e).2 = n * 10 ^ e := by
  have hpos : ((step e).2 : ℚ) ≠ 0 := Nat.cast_ne_zero.mpr (step_pos e).ne'
  push_cast
  rw [cast_step, ← mul_assoc, mul_div_cancel_right₀ _ hpos]

variable {tie : Tie} {i : Interval}

/-- The neighbour that is taken lies in the interval. -/
theorem contains_of_neighbour {stepNum stepDen n : Nat}
    (h : neighbour tie i stepNum stepDen = some n) :
    i.contains (n * stepNum) stepDen = true := by
  rw [neighbour.eq_def] at h
  dsimp only at h
  split at h
  · exact nomatch h
  · next hbelow _ => rwa [← Option.some.inj h]
  · next _ habove => rwa [← Option.some.inj h]
  · next hbelow habove =>
      -- both neighbours lie in the interval, so it does not matter which is nearer
      have hboth : n = i.value * stepDen / (i.den * stepNum)
          ∨ n = i.value * stepDen / (i.den * stepNum) + 1 := by
        split at h
        · exact Or.inl (Option.some.inj h).symm
        · exact Or.inr (Option.some.inj h).symm
        · cases tie with
          | upward => exact Or.inr (Option.some.inj h).symm
          | even =>
              have hn := (Option.some.inj h).symm
              split_ifs at hn with heven
              · exact Or.inl hn
              · exact Or.inr hn
      rcases hboth with rfl | rfl
      · exact hbelow
      · exact habove

/-- What lies strictly between the bounds lies in the interval, closed or not. -/
theorem contains_of_lt {num den : Nat} (hlow : i.low * den < num * i.den)
    (hhigh : num * i.den < i.high * den) : i.contains num den = true := by
  rw [Interval.contains]
  split_ifs
  · simp only [Bool.and_eq_true, decide_eq_true_eq]
    exact ⟨hlow.le, hhigh.le⟩
  · simp only [Bool.and_eq_true, decide_eq_true_eq]
    exact ⟨hlow, hhigh⟩

/-- On a grid that is finer than the interval is wide, a neighbour lies inside. -/
theorem contains_below_or_above {stepNum stepDen : Nat} (hstep : 0 < stepDen)
    (hlow : i.low < i.value) (hhigh : i.value < i.high) (hden : 0 < i.den * stepNum)
    (hfine : i.den * stepNum < (i.high - i.low) * stepDen) :
    i.contains (i.value * stepDen / (i.den * stepNum) * stepNum) stepDen = true
      ∨ i.contains ((i.value * stepDen / (i.den * stepNum) + 1) * stepNum) stepDen = true := by
  have hdiv := Nat.div_add_mod (i.value * stepDen) (i.den * stepNum)
  have hmod := Nat.mod_lt (i.value * stepDen) hden
  have hlow' := Nat.mul_lt_mul_of_pos_right hlow hstep
  have hhigh' := Nat.mul_lt_mul_of_pos_right hhigh hstep
  have hgrid : ∀ k, k * stepNum * i.den = i.den * stepNum * k := fun k => by ring
  rw [Nat.sub_mul] at hfine
  by_cases hbelow : i.low * stepDen
      < i.den * stepNum * (i.value * stepDen / (i.den * stepNum))
  · refine Or.inl (contains_of_lt ?_ ?_)
    · rw [hgrid]
      exact hbelow
    · rw [hgrid]
      omega
  · -- the lower neighbour is at the low end or before it, so the upper one is not at the high end
    refine Or.inr (contains_of_lt ?_ ?_)
    · rw [hgrid, Nat.mul_succ]
      omega
    · rw [hgrid, Nat.mul_succ]
      omega

/-- A neighbour is taken as soon as one of the two lies in the interval. -/
theorem exists_neighbour {stepNum stepDen : Nat}
    (h : i.contains (i.value * stepDen / (i.den * stepNum) * stepNum) stepDen = true
      ∨ i.contains ((i.value * stepDen / (i.den * stepNum) + 1) * stepNum) stepDen = true) :
    ∃ n, neighbour tie i stepNum stepDen = some n := by
  rw [neighbour.eq_def]
  dsimp only
  split
  · next hbelow habove =>
      rw [hbelow, habove] at h
      exact absurd h (by decide)
  · exact ⟨_, rfl⟩
  · exact ⟨_, rfl⟩
  · split
    · exact ⟨_, rfl⟩
    · exact ⟨_, rfl⟩
    · cases tie <;> exact ⟨_, rfl⟩

/-- **A SEARCH ENDS INSIDE** of the interval, if one of its grids has a neighbour there. -/
theorem has_of_search {point : Int} {count room n c : Nat}
    (hlast : ∃ k < room, ∃ m, neighbour tie i (step (point - (count + k : Nat))).1
      (step (point - (count + k : Nat))).2 = some m)
    (h : search tie i point count room = (n, c)) : i.Has (n * 10 ^ (point - c)) := by
  induction room generalizing count with
  | zero =>
      obtain ⟨k, hk, -⟩ := hlast
      exact absurd hk (Nat.not_lt_zero k)
  | succ room ih =>
      rw [search] at h
      rw [← step] at h
      cases hneighbour : neighbour tie i (step (point - count)).1 (step (point - count)).2 with
      | some m =>
          rw [hneighbour] at h
          obtain ⟨rfl, rfl⟩ := Prod.mk.inj h
          have hcontains := contains_of_neighbour hneighbour
          rw [i.contains_iff (step_pos _), step_mul] at hcontains
          exact hcontains
      | none =>
          rw [hneighbour] at h
          -- the grid with a neighbour is one of those that are left
          obtain ⟨k, hk, m, hm⟩ := hlast
          cases k with
          | zero =>
              rw [Nat.add_zero, hneighbour] at hm
              exact nomatch hm
          | succ k =>
              refine ih ⟨k, Nat.lt_of_succ_lt_succ hk, m, ?_⟩ h
              rw [Nat.succ_add_eq_add_succ]
              exact hm

/-- The first digit of a fraction stands right behind its point. -/
theorem pow_pointOf_le {num : Nat} (hnum : num ≠ 0) (den : Nat) :
    (10 : ℚ) ^ (pointOf num den - 1) * den ≤ num := by
  have hten : (10 : ℚ) ≠ 0 := by norm_num
  -- the digits that are there leave one place open at most
  have hcounts : (10 : ℚ) ^ ((digitCount num : Int) - digitCount den - 1) * den ≤ num := by
    have hnumber : ((10 ^ (digitCount num - 1) : Nat) : ℚ) ≤ num :=
      Nat.cast_le.mpr (pow_le_of_digitCount hnum)
    have hdivisor : (den : ℚ) ≤ (10 ^ digitCount den : Nat) :=
      Nat.cast_le.mpr (lt_pow_digitCount den).le
    have hexponent : (digitCount num : Int) - digitCount den - 1 + digitCount den
        = (digitCount num - 1 : Nat) := by
      have := digitCount_pos num
      omega
    calc (10 : ℚ) ^ ((digitCount num : Int) - digitCount den - 1) * den
        ≤ 10 ^ ((digitCount num : Int) - digitCount den - 1) * (10 ^ digitCount den : Nat) :=
          mul_le_mul_of_nonneg_left hdivisor (zpow_pos (by norm_num) _).le
      _ = ((10 ^ (digitCount num - 1) : Nat) : ℚ) := by
          push_cast
          rw [← zpow_natCast, ← zpow_add₀ hten, hexponent, zpow_natCast]
      _ ≤ num := hnumber
  rw [pointOf]
  by_cases hle : digitCount den ≤ digitCount num
  · simp only [if_pos hle]
    split_ifs with hreached
    · rw [add_sub_cancel_right, ← Nat.cast_sub hle, zpow_natCast, mul_comm]
      exact_mod_cast hreached
    · exact hcounts
  · simp only [if_neg hle]
    split_ifs with hreached
    · rw [add_sub_cancel_right, ← neg_sub, ← Nat.cast_sub (Nat.le_of_not_le hle), zpow_neg,
        zpow_natCast, inv_mul_le_iff₀ (by positivity), mul_comm]
      exact_mod_cast hreached
    · exact hcounts

/-- With seventeen digits a neighbour lies in the interval. -/
theorem exists_neighbour_seventeen (tie : Tie) (rank : Nat) :
    let i := Interval.ofRank (rank + 1)
    let e := pointOf i.value i.den - 17
    ∃ n, neighbour tie i (step e).1 (step e).2 = some n := by
  intro i e
  have hden : 0 < i.den := Nat.mul_pos (by decide) (Nat.pow_pos (by decide))
  have hwidth := Interval.value_lt_width rank
  have hpoint : (10 : ℚ) ^ (e + 16) * i.den ≤ i.value := by
    have h := pow_pointOf_le (Interval.value_pos rank).ne' i.den
    rwa [show pointOf i.value i.den - 1 = e + 16 by omega] at h
  have hfine : i.den * (step e).1 < (i.high - i.low) * (step e).2 := by
    have hpos : (0 : ℚ) < (step e).2 := Nat.cast_pos.mpr (step_pos e)
    have hwidth' : (i.value : ℚ) < 10 ^ 16 * ((i.high - i.low : Nat) : ℚ) := by
      exact_mod_cast hwidth
    have hsixteen : (10 : ℚ) ^ (e + 16) = 10 ^ e * 10 ^ 16 := by
      rw [zpow_add₀ (by norm_num)]
      norm_num
    rw [hsixteen] at hpoint
    have hlt : (10 : ℚ) ^ e * i.den < ((i.high - i.low : Nat) : ℚ) := by linarith
    have hscaled := mul_lt_mul_of_pos_right hlt hpos
    rw [mul_right_comm, ← cast_step, mul_comm] at hscaled
    exact_mod_cast hscaled
  exact exists_neighbour (contains_below_or_above (step_pos e) (Interval.low_lt_value rank)
    (Interval.value_lt_high _) (Nat.mul_pos hden (step_num_pos e)) hfine)

end Shortest

/-! ## Digits -/

/-- The number that digits denote with the point at its place. -/
def DigitString.toRat (s : DigitString) : ℚ :=
  ofDigits s.digits * (10 : ℚ) ^ (s.point - s.digits.length)

namespace Shortest

/-- Only zeros are dropped. -/
theorem exists_dropZeros (ds : List Char) : ∃ k, ds = dropZeros ds ++ zeros k := by
  refine ⟨(ds.reverse.takeWhile (· == '0')).length, ?_⟩
  have hzeros : ds.reverse.takeWhile (· == '0')
      = zeros (ds.reverse.takeWhile (· == '0')).length := by
    refine List.eq_replicate_iff.mpr ⟨rfl, fun c hc => ?_⟩
    exact beq_iff_eq.mp (List.mem_takeWhile_imp (p := (· == '0')) hc)
  have hsplit := congrArg List.reverse (List.takeWhile_append_dropWhile (p := (· == '0'))
    (l := ds.reverse))
  rw [List.reverse_append, List.reverse_reverse, hzeros, zeros, List.reverse_replicate] at hsplit
  exact hsplit.symm

theorem isDigit_of_mem_dropZeros {n : Nat} {c : Char} (hc : c ∈ dropZeros (digitsOf n)) :
    c.isDigit = true := by
  obtain ⟨k, hk⟩ := exists_dropZeros (digitsOf n)
  refine isDigit_of_mem_digitsOf (n := n) ?_
  rw [hk]
  exact List.mem_append_left _ hc

/-- Without the zeros at their end the digits denote the same number at the same place. -/
theorem toRat_dropZeros (n : Nat) (point : Int) (count : Nat) :
    DigitString.toRat ⟨dropZeros (digitsOf n), point + ((digitsOf n).length - count)⟩
      = n * (10 : ℚ) ^ (point - count) := by
  obtain ⟨k, hk⟩ := exists_dropZeros (digitsOf n)
  have hvalue : ofDigits (dropZeros (digitsOf n)) * 10 ^ k = n := by
    rw [← ofDigits_append_zeros, ← hk, ofDigits_digitsOf]
  have hlength : (digitsOf n).length = (dropZeros (digitsOf n)).length + k := by
    have h := congrArg List.length hk
    rwa [List.length_append, zeros, List.length_replicate] at h
  have hplaces : point + ((digitsOf n).length - count) - (dropZeros (digitsOf n)).length
      = k + (point - count) := by
    rw [hlength]
    push_cast
    ring
  rw [DigitString.toRat, hplaces, zpow_add₀ (by norm_num : (10 : ℚ) ≠ 0), zpow_natCast,
    ← mul_assoc]
  exact_mod_cast congrArg (fun m : Nat => (m : ℚ) * 10 ^ (point - count)) hvalue

/-- **SHORTEST DIGITS ROUND BACK**: what they denote lies in the interval of the rank. -/
theorem has_digits (tie : Tie) (rank : Nat) :
    (Interval.ofRank (rank + 1)).Has (digits tie (rank + 1)).toRat := by
  obtain ⟨m, hm⟩ := exists_neighbour_seventeen tie rank
  rw [digits, toRat_dropZeros]
  exact has_of_search ⟨16, by decide, m, hm⟩ rfl

end Shortest

namespace Double

open Decimal

/-- The number that digits with a point denote. -/
def plainRat (text : List Char) : ℚ :=
  ofDigits (splitPoint text).1 * (10 : ℚ) ^ (-((splitPoint text).2 : Int))

/-- Putting the point among the digits, or zeros around them, keeps the number. -/
theorem plainRat_positionalText {s : DigitString} (hs : ∀ c ∈ s.digits, c.isDigit = true) :
    plainRat (positionalText false s) = s.toRat := by
  have hten : (10 : ℚ) ≠ 0 := by norm_num
  obtain ⟨ds, point⟩ := s
  rw [positionalText, if_neg Bool.false_ne_true, DigitString.toRat, plainRat]
  dsimp only at hs ⊢
  split_ifs with hbefore hbehind
  · -- zeros between the point and the digits
    have hplaces : ∀ c ∈ zeros (-point).toNat ++ ds, c.isDigit = true :=
      fun c hc => (List.mem_append.mp hc).elim isDigit_of_mem_zeros (hs c)
    have hwhole : ∀ c ∈ ['0'], c.isDigit = true := List.forall_mem_singleton.mpr rfl
    rw [← List.singleton_append, splitPoint_point hwhole hplaces]
    dsimp only
    rw [show ['0'] = zeros 1 from rfl, ofDigits_zeros_append, ofDigits_zeros_append,
      List.length_append, zeros, List.length_replicate]
    congr 2
    omega
  · -- zeros behind the digits
    have hall : ∀ c ∈ ds ++ zeros (point - ds.length).toNat, c.isDigit = true :=
      fun c hc => (List.mem_append.mp hc).elim (hs c) isDigit_of_mem_zeros
    rw [List.append_nil, splitPoint_digits hall, ofDigits_append_zeros]
    dsimp only
    have hexponent : point - ds.length = ((point - ds.length).toNat : Int) := by omega
    rw [hexponent, zpow_natCast]
    push_cast
    simp
  · rw [splitPoint_point (isDigit_of_take hs _) (isDigit_of_drop hs _)]
    dsimp only
    rw [List.take_append_drop, List.length_drop]
    congr 2
    omega

theorem isDigit_or_point_of_mem_positionalText {s : DigitString}
    (hs : ∀ c ∈ s.digits, c.isDigit = true) {c : Char} (hc : c ∈ positionalText false s) :
    c.isDigit = true ∨ c = '.' := by
  rw [positionalText, if_neg Bool.false_ne_true] at hc
  split_ifs at hc
  · rcases List.mem_cons.mp hc with rfl | hc
    · exact Or.inl rfl
    rcases List.mem_cons.mp hc with rfl | hc
    · exact Or.inr rfl
    · exact Or.inl ((List.mem_append.mp hc).elim isDigit_of_mem_zeros (hs c))
  · rw [List.append_nil] at hc
    exact Or.inl ((List.mem_append.mp hc).elim (hs c) isDigit_of_mem_zeros)
  · rcases List.mem_append.mp hc with hc | hc
    · exact Or.inl (isDigit_of_take hs _ c hc)
    rcases List.mem_cons.mp hc with rfl | hc
    · exact Or.inr rfl
    · exact Or.inl (isDigit_of_drop hs _ c hc)

/-- A magnitude other than zero is written with its shortest digits. -/
theorem magnitudeText_plainLayout (rank : Nat) :
    magnitudeText plainLayout (rank + 1)
      = positionalText false (Shortest.digits .upward (rank + 1)) := rfl

/-- The plain text of a double without its sign has digits and a point only. -/
theorem isDigit_or_point_of_mem {rank : Nat} {c : Char}
    (hc : c ∈ magnitudeText plainLayout rank) : c.isDigit = true ∨ c = '.' := by
  cases rank with
  | zero => exact Or.inl (isDigit_of_mem_zeros (k := 1) hc)
  | succ rank =>
      rw [magnitudeText_plainLayout] at hc
      exact isDigit_or_point_of_mem_positionalText
        (fun _ => Shortest.isDigit_of_mem_dropZeros) hc

/-- **A TEXT DENOTES A NUMBER OF ITS INTERVAL.** -/
theorem has_plainRat (rank : Nat) :
    (Shortest.Interval.ofRank rank).Has (plainRat (magnitudeText plainLayout rank)) := by
  cases rank with
  | zero =>
      have hzero : plainRat (magnitudeText plainLayout 0) = 0 := by
        rw [show magnitudeText plainLayout 0 = zeros 1 from rfl, plainRat,
          splitPoint_digits fun _ => isDigit_of_mem_zeros]
        exact mul_eq_zero_of_left Nat.cast_zero _
      rw [hzero]
      refine ⟨?_, ?_, nofun⟩
      · rw [zero_mul]
        exact_mod_cast (by decide : (Shortest.Interval.ofRank 0).low ≤ 0)
      · rw [zero_mul]
        exact Nat.cast_nonneg _
  | succ rank =>
      rw [magnitudeText_plainLayout,
        plainRat_positionalText fun _ => Shortest.isDigit_of_mem_dropZeros]
      exact Shortest.has_digits .upward rank

theorem eq_of_magnitudeText_eq {a b : Nat}
    (h : magnitudeText plainLayout a = magnitudeText plainLayout b) : a = b :=
  Shortest.Interval.eq_of_has (has_plainRat a) (h ▸ has_plainRat b)

/-- A finite double is shown as its sign and its magnitude. -/
theorem toList_text_finite (negative : Bool) (rank : Fin (2047 * 2 ^ 52)) :
    (finite negative rank).text.toList
      = signChars negative ++ magnitudeText plainLayout rank :=
  String.toList_ofList

/-- **THE TEXT OF A NUMBER DETERMINES IT**, its sign included. -/
theorem eq_of_text_eq {x y : Double} (hx : x.isFinite = true) (hy : y.isFinite = true)
    (h : x.text = y.text) : x = y := by
  -- a magnitude has no sign in front, so the signs are told apart
  have hsign : ∀ {a b : Nat},
      '-' :: magnitudeText plainLayout a ≠ magnitudeText plainLayout b := by
    intro a b heq
    rcases isDigit_or_point_of_mem (heq ▸ List.mem_cons_self ..) with hminus | hminus
    · exact absurd hminus (by decide)
    · exact absurd hminus (by decide)
  cases x with
  | nan => exact nomatch hx
  | infinite s => exact nomatch hx
  | finite s a =>
      cases y with
      | nan => exact nomatch hy
      | infinite t => exact nomatch hy
      | finite t b =>
          have hchars := congrArg String.toList h
          rw [toList_text_finite, toList_text_finite] at hchars
          have hranks : s = t ∧ a.val = b.val := by
            cases s with
            | false =>
                cases t with
                | false => exact ⟨rfl, eq_of_magnitudeText_eq hchars⟩
                | true => exact absurd hchars.symm hsign
            | true =>
                cases t with
                | false => exact absurd hchars hsign
                | true => exact ⟨rfl, eq_of_magnitudeText_eq (List.cons.inj hchars).2⟩
          obtain ⟨rfl, hrank⟩ := hranks
          rw [Fin.ext hrank]

end Double

end RecordFilter
