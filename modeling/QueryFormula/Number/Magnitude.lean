import QueryFormula.Number.Decimal

/-!
# Magnitudes of binary64 numbers

A finite binary64 number without its sign is a natural number of units `2 ^ -1074`: a mantissa
below `2 ^ 53`, shifted.  Rounding takes any ratio of natural numbers to the nearest magnitude, an
exact half to the even mantissa, and fails only beyond the largest.
-/

namespace QueryFormula

/-- The finite binary64 number `mantissa · 2 ^ exponent` in units of `2 ^ -1074`.  The mantissa
uses all 53 bits unless the exponent is zero, so each number has one form. -/
structure Magnitude where
  mantissa : Nat
  exponent : Nat
  mantissa_lt : mantissa < 2 ^ 53
  normal : exponent = 0 ∨ 2 ^ 52 ≤ mantissa
  exponent_le : exponent ≤ 2045
deriving Repr, DecidableEq

namespace Magnitude

/-- The number zero. -/
def zero : Magnitude :=
  ⟨0, 0, by decide, .inl rfl, by decide⟩

instance : Inhabited Magnitude := ⟨zero⟩

/-- The number as a multiple of `2 ^ -1074`. -/
def units (x : Magnitude) : Nat :=
  x.mantissa * 2 ^ x.exponent

/-- The natural number nearest to `num / den`, and the even one of two equally near. -/
def roundHalfEven (num den : Nat) : Nat :=
  let quotient := num / den
  let twice := 2 * (num % den)
  if twice < den ∨ twice = den ∧ quotient % 2 = 0 then quotient else quotient + 1

theorem div_le_roundHalfEven (num den : Nat) : num / den ≤ roundHalfEven num den := by
  simp only [roundHalfEven]
  split <;> omega

theorem roundHalfEven_le_div_add_one (num den : Nat) :
    roundHalfEven num den ≤ num / den + 1 := by
  simp only [roundHalfEven]
  split <;> omega

/-- The exponent of the magnitudes around `num / den` units. -/
def exponentAt (num den : Nat) : Nat :=
  (num / den).log2 + 1 - 53

/-- The mantissa of `num / den` units before it is known to need no 54th bit. -/
def mantissaAt (num den : Nat) : Nat :=
  roundHalfEven num (den * 2 ^ exponentAt num den)

theorem mantissaAt_le (num den : Nat) : mantissaAt num den ≤ 2 ^ 53 := by
  have hlog : num / den < 2 ^ ((num / den).log2 + 1) := Nat.lt_log2_self
  have hpow : 2 ^ ((num / den).log2 + 1) ≤ 2 ^ (53 + exponentAt num den) :=
    Nat.pow_le_pow_right (by decide) (by simp only [exponentAt]; omega)
  have hquot : num / (den * 2 ^ exponentAt num den) < 2 ^ 53 := by
    rw [← Nat.div_div_eq_div_mul]
    apply Nat.div_lt_of_lt_mul
    rw [← Nat.pow_add, Nat.add_comm]
    exact Nat.lt_of_lt_of_le hlog hpow
  exact Nat.le_trans (roundHalfEven_le_div_add_one _ _) hquot

/-- Unless they are the smallest ones, magnitudes around `num / den` units use all bits. -/
theorem le_div_of_exponentAt_ne_zero (num den : Nat) (h : exponentAt num den ≠ 0) :
    2 ^ 52 ≤ num / (den * 2 ^ exponentAt num den) := by
  have hlog : (num / den).log2 = 52 + exponentAt num den := by
    simp only [exponentAt] at h ⊢
    omega
  have hne : num / den ≠ 0 := by
    intro hz
    rw [hz, Nat.log2_zero] at hlog
    omega
  rw [← Nat.div_div_eq_div_mul, Nat.le_div_iff_mul_le (Nat.two_pow_pos _), ← Nat.pow_add, ← hlog]
  exact Nat.log2_self_le hne

theorem le_mantissaAt (num den : Nat) (h : exponentAt num den ≠ 0) :
    2 ^ 52 ≤ mantissaAt num den :=
  Nat.le_trans (le_div_of_exponentAt_ne_zero num den h) (div_le_roundHalfEven _ _)

/-- The magnitude of a rounded mantissa; a 54th bit moves into the exponent, and an exponent that
is too large leaves the finite numbers. -/
def assemble (mantissa exponent : Nat) (hle : mantissa ≤ 2 ^ 53)
    (hnormal : exponent = 0 ∨ 2 ^ 52 ≤ mantissa) : Option Magnitude :=
  if hmax : mantissa = 2 ^ 53 then
    if hexp : exponent + 1 ≤ 2045 then
      some ⟨2 ^ 52, exponent + 1, by decide, .inr (Nat.le_refl _), hexp⟩
    else none
  else
    if hexp : exponent ≤ 2045 then
      some ⟨mantissa, exponent, by omega, hnormal, hexp⟩
    else none

/-- The magnitude nearest to `num / den`, and the one with the even mantissa of two equally near;
none when the ratio rounds beyond the largest. -/
def ofRatio (num den : Nat) : Option Magnitude :=
  let scaled := num * 2 ^ 1074
  assemble (mantissaAt scaled den) (exponentAt scaled den) (mantissaAt_le _ _) <| by
    by_cases h : exponentAt scaled den = 0
    · exact .inl h
    · exact .inr (le_mantissaAt _ _ h)

/-- The magnitude nearest to a decimal; none when it rounds beyond the largest.  Exponents for
which the answer is plain are decided first, so that the work stays in proportion to the
digits. -/
def ofDecimal (d : Decimal) : Option Magnitude :=
  if d.digits = 0 then some zero
  else if 310 < d.exponent then none
  else if d.digits.log2 + 1 + 3 * d.exponent < -1075 then some zero
  else if 0 ≤ d.exponent then ofRatio (d.digits * 10 ^ d.exponent.toNat) 1
  else ofRatio d.digits (10 ^ (-d.exponent).toNat)

end Magnitude
end QueryFormula
