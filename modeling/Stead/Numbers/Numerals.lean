import Mathlib.Algebra.Order.Field.Rat
import Mathlib.Data.List.Basic
import Mathlib.Tactic.NormNum

/-!
# Numbers that are written as texts

The numeric literals that the language accepts when it converts a text to a number, with the number
that each of them stands for before that number is rounded: decimal literals with a fraction and an
exponent, and whole numbers in base 16, 8 and 2. A text that is written otherwise stands for no
number, and neither does `Infinity`, which is accepted but is no finite number.

## How a literal is read

A literal is read from the outside. The sign comes first, then the exponent, which begins at the
only `e` or `E`, and then the fraction, which begins at the only point. The digits on both sides of
the point are one whole number, divided by a power of ten for the places after the point. The empty
text is a literal for zero; white space at the ends is not part of a literal and has to be taken off
before.

## What is proved

A whole number in decimal digits is a literal for itself: nothing in it is a sign, a point or an
exponent, so that the outer readings pass it on unchanged. With a sign and a negative exponent such
digits are a literal for every number that is a whole one divided by a power of ten
(`value?_signed`); the numbers of a binary format are among them.
-/

namespace Numeral

/-- The value of a digit; 16 for what is no digit of any base. -/
def digitValue (c : Char) : ℕ :=
  if c.isDigit then c.toNat - 48
  else if 'a' ≤ c ∧ c ≤ 'f' then c.toNat - 87
  else if 'A' ≤ c ∧ c ≤ 'F' then c.toNat - 55
  else 16

/-- A whole number in digits of the base, of which there is at least one. -/
def natural? (base : ℕ) (text : List Char) : Option ℕ :=
  if text ≠ [] ∧ text.all (fun c ↦ digitValue c < base) then
    some (text.foldl (fun n c ↦ base * n + digitValue c) 0)
  else none

/-- `12`, `12.`, `12.5` or `.5` -/
def decimal? (text : List Char) : Option ℚ :=
  match text.splitOn '.' with
  | [whole] => (natural? 10 whole).map Nat.cast
  | [whole, places] => (natural? 10 (whole ++ places)).map fun n ↦ n / 10 ^ places.length
  | _ => none

/-- An exponent, with its sign. -/
def exponent? : List Char → Option ℤ
  | '-' :: digits => (natural? 10 digits).map fun n ↦ -(n : ℤ)
  | '+' :: digits => (natural? 10 digits).map Nat.cast
  | digits => (natural? 10 digits).map Nat.cast

/-- A decimal literal without a sign. -/
def unsigned? (text : List Char) : Option ℚ :=
  match text.splitOnP fun c ↦ c = 'e' ∨ c = 'E' with
  | [mantissa] => decimal? mantissa
  | [mantissa, exponent] => do
    let x ← decimal? mantissa
    let k ← exponent? exponent
    some (x * 10 ^ k)
  | _ => none

/-- The number that a literal stands for. -/
def value? : List Char → Option ℚ
  | [] => some 0
  | '0' :: 'x' :: digits | '0' :: 'X' :: digits => (natural? 16 digits).map Nat.cast
  | '0' :: 'o' :: digits | '0' :: 'O' :: digits => (natural? 8 digits).map Nat.cast
  | '0' :: 'b' :: digits | '0' :: 'B' :: digits => (natural? 2 digits).map Nat.cast
  | '-' :: text => (unsigned? text).map Neg.neg
  | '+' :: text => unsigned? text
  | text => unsigned? text

example : value? "-12.5e-1".toList = some (-5 / 4) := by decide +kernel

/-! ### Whole numbers -/

variable {text : List Char}

/-- A decimal digit has its value in every base. -/
theorem digitValue_of_isDigit {c : Char} (h : c.isDigit = true) :
    digitValue c = c.toNat - 48 ∧ digitValue c < 10 := by
  rw [digitValue, if_pos h]
  rw [Char.isDigit, Bool.and_eq_true, decide_eq_true_iff, decide_eq_true_iff] at h
  have hhigh : c.toNat ≤ 57 := h.2
  omega

/-- The digits of a whole number are read as this number. -/
theorem natural?_toDigits (n : ℕ) : natural? 10 (Nat.toDigits 10 n) = some n := by
  have hdigit : ∀ c ∈ Nat.toDigits 10 n, c.isDigit = true := fun c hc ↦
    Nat.isDigit_of_mem_toDigits (by decide) le_rfl hc
  have hall : (Nat.toDigits 10 n).all (fun c ↦ digitValue c < 10) = true :=
    List.all_eq_true.2 fun c hc ↦ decide_eq_true (digitValue_of_isDigit (hdigit c hc)).2
  have hfold : (Nat.toDigits 10 n).foldl (fun n c ↦ 10 * n + digitValue c) 0 =
      Nat.ofDigitChars 10 (Nat.toDigits 10 n) 0 := by
    rw [Nat.ofDigitChars_eq_foldl]
    refine List.foldl_ext _ _ _ fun m c hc ↦ ?_
    rw [(digitValue_of_isDigit (hdigit c hc)).1]
    rfl
  rw [natural?, if_pos ⟨Nat.toDigits_ne_nil, hall⟩, hfold, Nat.ofDigitChars_ten_toDigits]

/-- What is no digit does not occur in the digits of a number. -/
theorem not_mem_toDigits {c : Char} (h : c.isDigit = false) (n : ℕ) : c ∉ Nat.toDigits 10 n :=
  fun hmem ↦ by
    rw [Nat.isDigit_of_mem_toDigits (by decide) le_rfl hmem] at h
    cases h

/-- No exponent begins within the digits of a number. -/
theorem no_exponent_mark (n : ℕ) : ∀ c ∈ Nat.toDigits 10 n, decide (c = 'e' ∨ c = 'E') = false := by
  intro c hc
  rw [decide_eq_false_iff_not, not_or]
  constructor
  · rintro rfl
    exact not_mem_toDigits (by decide) n hc
  · rintro rfl
    exact not_mem_toDigits (by decide) n hc

/-- Digits without a point are a whole number. -/
theorem decimal?_toDigits (n : ℕ) : decimal? (Nat.toDigits 10 n) = some (n : ℚ) := by
  rw [decimal?, List.splitOn_eq_singleton (not_mem_toDigits (by decide) n)]
  show (natural? 10 (Nat.toDigits 10 n)).map Nat.cast = _
  rw [natural?_toDigits]
  rfl

/-- **A fraction with a power of ten** for its denominator has a literal. -/
theorem value?_signed (negative : Bool) (m k : ℕ) :
    value? ((if negative then '-' else '+') :: (Nat.toDigits 10 m ++ 'e' :: '-' ::
      Nat.toDigits 10 k)) = some ((if negative then -1 else 1) * (m / 10 ^ k) : ℚ) := by
  have hunsigned : unsigned? (Nat.toDigits 10 m ++ 'e' :: '-' :: Nat.toDigits 10 k) =
      some (m / 10 ^ k : ℚ) := by
    -- the text falls apart at its only `e`
    have hsplit : (Nat.toDigits 10 m ++ 'e' :: '-' :: Nat.toDigits 10 k).splitOnP
        (fun c ↦ c = 'e' ∨ c = 'E') = [Nat.toDigits 10 m, '-' :: Nat.toDigits 10 k] := by
      rw [List.splitOnP_append_cons_of_forall_mem (no_exponent_mark m) _ (by decide),
        List.splitOnP_eq_singleton fun c hc ↦ ?_]
      rcases List.mem_cons.1 hc with rfl | hdigit
      · rfl
      · exact no_exponent_mark k c hdigit
    rw [unsigned?, hsplit]
    show (do
      let x ← decimal? (Nat.toDigits 10 m)
      let k ← exponent? ('-' :: Nat.toDigits 10 k)
      some (x * 10 ^ k)) = _
    rw [decimal?_toDigits, exponent?, natural?_toDigits]
    show some ((m : ℚ) * 10 ^ (-(k : ℤ))) = _
    rw [zpow_neg, zpow_natCast, div_eq_mul_inv]
  cases negative with
  | false =>
    show unsigned? _ = _
    rw [hunsigned]
    simp
  | true =>
    show (unsigned? _).map Neg.neg = _
    rw [hunsigned]
    simp

end Numeral
