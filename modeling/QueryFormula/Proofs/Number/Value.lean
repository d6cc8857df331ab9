import Mathlib.Algebra.Order.Field.Rat
import Mathlib.Tactic.FieldSimp
import Mathlib.Tactic.Ring
import QueryFormula.Proofs.Number.Rounding
import QueryFormula.Proofs.Token.Lexeme

/-!
# The rational numbers of texts

A text in decimal notation stands for a rational number, whatever it is later
rounded to: its digits before the point, those after it as tenths, hundredths and
so on, and a power of ten for the exponent.  Decimals of the same value are rounded
alike.
-/

namespace QueryFormula

/-! ## Decimals -/

namespace Decimal

/-- The decimal as a rational number. -/
def value (d : Decimal) : ℚ :=
  d.digits * 10 ^ d.exponent

theorem value_nonneg (d : Decimal) :
    0 ≤ d.value := by
  exact mul_nonneg (Nat.cast_nonneg _) (zpow_nonneg (by norm_num) _)

/-- Zeros moved from the digits of a decimal to its exponent or back do not change
its value. -/
theorem value_eq_of_shift
    {n a b : ℕ} {e f : ℤ} (h : a + e = b + f) :
    value ⟨n * 10 ^ a, e⟩ = value ⟨n * 10 ^ b, f⟩ := by
  have hten : (10 : ℚ) ≠ 0 := by norm_num
  simp only [value]
  push_cast
  rw [mul_assoc, mul_assoc, ← zpow_natCast, ← zpow_natCast, ← zpow_add₀ hten, ← zpow_add₀ hten, h]

/-- The value as the ratio that is rounded. -/
theorem value_eq_ratio (d : Decimal) :
    d.value = ((d.digits * 10 ^ d.exponent.toNat : ℕ) : ℚ) / (10 ^ (-d.exponent).toNat : ℕ) := by
  have hten : (10 : ℚ) ≠ 0 := by norm_num
  have hexponent : d.exponent = (d.exponent.toNat : ℤ) - (-d.exponent).toNat := by omega
  rw [value]
  conv_lhs => rw [hexponent]
  rw [zpow_sub₀ hten, zpow_natCast, zpow_natCast]
  push_cast
  ring

/-- Decimals of the same value round to the same. -/
theorem ofDecimal_eq_of_value_eq
    {d d' : Decimal} (h : d.value = d'.value) :
    Magnitude.ofDecimal d = Magnitude.ofDecimal d' := by
  have hpos : ∀ k : ℕ, 0 < 10 ^ k := fun k => Nat.pow_pos (by decide)
  have hne : ∀ k : ℕ, ((10 ^ k : ℕ) : ℚ) ≠ 0 := fun k => Nat.cast_ne_zero.mpr (hpos k).ne'
  rw [value_eq_ratio, value_eq_ratio, div_eq_div_iff (hne _) (hne _)] at h
  rw [Magnitude.ofDecimal_eq_ofValue, Magnitude.ofDecimal_eq_ofValue]
  exact Magnitude.ofRatio_eq_of_mul_eq (hpos _) (hpos _) (by exact_mod_cast h)

end Decimal

/-! ## Numbers as they are written -/

namespace NumberText

/-- The rational number that is written: the digits before the point and the part
behind it, times the power of ten of the exponent. -/
def value (n : NumberText) : ℚ :=
  let fraction := n.fraction.getD []
  (Nat.ofDigitChars 10 n.whole 0 + Nat.ofDigitChars 10 fraction 0 / 10 ^ fraction.length) *
    10 ^ (n.exponent.map ExponentText.value).getD 0

theorem value_decimal (n : NumberText) :
    n.decimal.value = n.value := by
  have hten : (10 : ℚ) ≠ 0 := by norm_num
  simp only [decimal, Decimal.value, value]
  rw [Nat.ofDigitChars_append, Nat.ofDigitChars_eq_ofDigitChars_zero, zpow_sub₀ hten, zpow_natCast]
  push_cast
  field_simp

theorem value_nonneg (n : NumberText) :
    0 ≤ n.value := by
  rw [← n.value_decimal]
  exact n.decimal.value_nonneg

end NumberText

/-- A text in decimal notation, perhaps behind a minus sign, stands for a rational
number. -/
def Denotes (text : List Char) (q : ℚ) : Prop :=
  ∃ (negative : Bool) (n : NumberText), n.WellFormed ∧
    text = (if negative then ['-'] else []) ++ n.text ∧
      q = if negative then -n.value else n.value

end QueryFormula
