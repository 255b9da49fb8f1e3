/-! # Decimal digits

    Digits as characters and as numbers: the value of one digit, the number
    that a run of digits denotes, the digits of a number, and padding with
    zeros to a least width.  Only the ten ASCII digits count. -/

namespace RecordFilter

-- A power of a number is the core library's one, whatever else is imported.
attribute [instance (2000), default_instance 20000] instPowNat

/-- The value of a decimal digit, `none` for any other character. -/
def digit? (c : Char) : Option Nat :=
  if c.isDigit then some (c.toNat - '0'.toNat) else none

/-- The decimal digits of a number, without leading zeros; `0` is `['0']`. -/
def digitsOf (n : Nat) : List Char := Nat.toDigits 10 n

/-- The number that a run of digits denotes; no digits denote zero. -/
def ofDigits (s : List Char) : Nat := Nat.ofDigitChars 10 s 0

/-- How many decimal digits a number has; zero has one. -/
def digitCount (n : Nat) : Nat := (digitsOf n).length

/-- A run of zeros. -/
def zeros (n : Nat) : List Char := List.replicate n '0'

/-- The digits of `n`, zeros in front up to the width. -/
def padded (width n : Nat) : List Char :=
  zeros (width - digitCount n) ++ digitsOf n

/-- Reading the digits of a number gives the number back. -/
theorem ofDigits_digitsOf (n : Nat) : ofDigits (digitsOf n) = n :=
  Nat.ofDigitChars_toDigits (by decide) (by decide)

/-- The digits of a number are digits. -/
theorem isDigit_of_mem_digitsOf {n : Nat} {c : Char} (h : c ∈ digitsOf n) :
    c.isDigit = true :=
  Nat.isDigit_of_mem_toDigits (by decide) (by decide) h

theorem digitsOf_ne_nil (n : Nat) : digitsOf n ≠ [] := Nat.toDigits_ne_nil

/-- A character that is no digit is none of the digits. -/
theorem ne_of_isDigit {c d : Char} (hc : c.isDigit = true) (hd : d.isDigit = false) : c ≠ d := by
  rintro rfl
  rw [hc] at hd
  exact nomatch hd

/-- The digits of a number other than zero do not start with a zero. -/
theorem head_digitsOf {n : Nat} (hn : n ≠ 0) :
    ∃ c t, digitsOf n = c :: t ∧ c ≠ '0' := by
  induction n using Nat.strongRecOn with
  | ind n ih =>
      by_cases hlt : n < 10
      · refine ⟨Nat.digitChar n, [], Nat.toDigits_of_lt_base hlt, ?_⟩
        have hdigit : ∀ m < 10, m ≠ 0 → Nat.digitChar m ≠ '0' := by decide
        exact hdigit n hlt hn
      · obtain ⟨c, t, hdigits, hc⟩ := ih (n / 10) (by omega) (by omega)
        refine ⟨c, t ++ [Nat.digitChar (n % 10)], ?_, hc⟩
        rw [digitsOf, Nat.toDigits_of_base_le (by decide) (Nat.le_of_not_lt hlt),
          show Nat.toDigits 10 (n / 10) = c :: t from hdigits]
        rfl

theorem digitCount_le_iff {n k : Nat} (hk : 0 < k) : digitCount n ≤ k ↔ n < 10 ^ k :=
  Nat.length_toDigits_le_iff (by decide) hk

theorem ofDigits_zeros_append (k : Nat) (s : List Char) : ofDigits (zeros k ++ s) = ofDigits s := by
  rw [ofDigits, Nat.ofDigitChars_append, zeros, Nat.ofDigitChars_replicate_zero, Nat.mul_zero]
  rfl

theorem ofDigits_append_zeros (s : List Char) (k : Nat) :
    ofDigits (s ++ zeros k) = ofDigits s * 10 ^ k := by
  rw [ofDigits, Nat.ofDigitChars_append, zeros, Nat.ofDigitChars_replicate_zero, Nat.mul_comm]
  rfl

/-- Zeros behind the digits of a number multiply it. -/
theorem digitsOf_mul_pow {n : Nat} (hn : n ≠ 0) (k : Nat) :
    digitsOf (n * 10 ^ k) = digitsOf n ++ zeros k := by
  induction k with
  | zero => rw [Nat.pow_zero, Nat.mul_one, zeros, List.replicate_zero, List.append_nil]
  | succ k ih =>
      have hpos : 0 < n * 10 ^ k := Nat.mul_pos (Nat.pos_of_ne_zero hn) (Nat.pow_pos (by decide))
      calc digitsOf (n * 10 ^ (k + 1))
          = digitsOf (10 * (n * 10 ^ k) + 0) := by
            rw [Nat.pow_succ, ← Nat.mul_assoc, Nat.mul_comm _ 10]; rfl
        _ = digitsOf (n * 10 ^ k) ++ digitsOf 0 :=
            (Nat.toDigits_append_toDigits (by decide) hpos (by decide)).symm
        _ = digitsOf n ++ zeros (k + 1) := by
            rw [ih, List.append_assoc, zeros, zeros, List.replicate_succ']
            rfl

theorem isDigit_of_mem_zeros {k : Nat} {c : Char} (h : c ∈ zeros k) : c.isDigit = true := by
  rw [List.eq_of_mem_replicate h]
  rfl

theorem ofDigits_padded (width n : Nat) : ofDigits (padded width n) = n := by
  rw [padded, ofDigits_zeros_append, ofDigits_digitsOf]

theorem isDigit_of_mem_padded {width n : Nat} {c : Char} (h : c ∈ padded width n) :
    c.isDigit = true := by
  rcases List.mem_append.mp h with h | h
  · exact isDigit_of_mem_zeros h
  · exact isDigit_of_mem_digitsOf h

theorem padded_ne_nil (width n : Nat) : padded width n ≠ [] :=
  List.append_ne_nil_of_right_ne_nil _ (digitsOf_ne_nil n)

/-- A number that fits is padded to the width. -/
theorem length_padded {width n : Nat} (hwidth : 0 < width) (hn : n < 10 ^ width) :
    (padded width n).length = width := by
  have hle : digitCount n ≤ width := (digitCount_le_iff hwidth).mpr hn
  rw [padded, List.length_append, zeros, List.length_replicate]
  exact Nat.sub_add_cancel hle

end RecordFilter
