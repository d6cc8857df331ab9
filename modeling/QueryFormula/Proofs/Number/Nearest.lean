import Mathlib.Algebra.Order.Field.Basic
import Mathlib.Tactic.Linarith
import QueryFormula.Proofs.Number.Value

/-!
# Rounding to the nearest

A decimal is rounded to the magnitude nearest to it, with the even mantissa of two
that are equally near, and to none when it is half a step beyond the largest one or
more.  Around the decimal the magnitudes stand in steps of one power of two; those
that stand closer together are all smaller and further away.
-/

namespace QueryFormula
namespace Magnitude

/-- The magnitude as a rational number. -/
def value (x : Magnitude) : ℚ :=
  x.units / 2 ^ 1074

/-- No other magnitude is nearer to the rational number, and one that is equally
near leaves the even mantissa to this one. -/
structure NearestTo (q : ℚ) (x : Magnitude) : Prop where
  nearest : ∀ y : Magnitude, |q - x.value| ≤ |q - y.value|
  even : ∀ y : Magnitude, y ≠ x → |q - y.value| = |q - x.value| → x.mantissa % 2 = 0

/-- The least rational number that is rounded beyond the largest magnitude: half a
step more than that. -/
def overflowBound : ℚ :=
  (2 ^ 54 - 1) * 2 ^ 970

/-- What a rational number is rounded to. -/
def RoundsTo (q : ℚ) : Option Magnitude → Prop
  | some x => q < overflowBound ∧ NearestTo q x
  | none => overflowBound ≤ q

/-! ## Rounding to a natural number -/

section

variable (num : ℕ) {den : ℕ} (hden : 0 < den)
include hden

/-- Rounding leaves at most half of the denominator over, and just half of it only
for an even number. -/
theorem two_mul_abs_sub_le :
    2 * |(num : ℤ) - roundHalfEven num den * den| ≤ den ∧
      (2 * |(num : ℤ) - roundHalfEven num den * den| = den → roundHalfEven num den % 2 = 0) := by
  have hdiv : (den : ℤ) * (num / den : ℕ) + (num % den : ℕ) = num := by
    exact_mod_cast Nat.div_add_mod num den
  have hmod := Nat.mod_lt num hden
  simp only [roundHalfEven]
  split
  · have hleft : (num : ℤ) - (num / den : ℕ) * den = (num % den : ℕ) := by linarith
    rw [hleft, abs_of_nonneg (Int.natCast_nonneg _)]
    omega
  · have hleft : (num : ℤ) - (num / den + 1 : ℕ) * den = (num % den : ℕ) - den := by
      rw [Nat.cast_succ]
      linarith
    rw [hleft, abs_of_nonpos (by omega)]
    omega

theorem abs_sub_roundHalfEven :
    |(num : ℚ) / den - roundHalfEven num den| ≤ 1 / 2 ∧
      (|(num : ℚ) / den - roundHalfEven num den| = 1 / 2 → roundHalfEven num den % 2 = 0) := by
  obtain ⟨hle, heven⟩ := two_mul_abs_sub_le num hden
  have hpos : (0 : ℚ) < den := by exact_mod_cast hden
  have habs : |(num : ℚ) / den - roundHalfEven num den| =
      (|(num : ℤ) - roundHalfEven num den * den| : ℤ) / den := by
    rw [div_sub' hpos.ne', abs_div, abs_of_pos hpos, mul_comm (den : ℚ)]
    push_cast
    rfl
  rw [habs, div_le_iff₀ hpos, div_eq_iff hpos.ne']
  constructor
  · have hle' : (2 * |(num : ℤ) - roundHalfEven num den * den| : ℤ) ≤ (den : ℚ) := by
      exact_mod_cast hle
    push_cast at hle' ⊢
    linarith
  · intro h
    apply heven
    have heq : ((2 * |(num : ℤ) - roundHalfEven num den * den| : ℤ) : ℚ) = (den : ℤ) := by
      push_cast at h ⊢
      linarith
    exact_mod_cast heq

end

/-! ## Steps around a ratio -/

section

variable (num : ℕ) {den : ℕ} (hden : 0 < den)
include hden

/-- A ratio is at most half a step away from its mantissa, and just half a step only
from an even one. -/
theorem abs_sub_mantissaAt :
    |(num : ℚ) / den - mantissaAt num den * 2 ^ exponentAt num den| ≤
        2 ^ exponentAt num den / 2 ∧
      (|(num : ℚ) / den - mantissaAt num den * 2 ^ exponentAt num den| =
          2 ^ exponentAt num den / 2 →
        mantissaAt num den % 2 = 0) := by
  have hstep : (0 : ℚ) < 2 ^ exponentAt num den := by positivity
  have hpos : 0 < den * 2 ^ exponentAt num den := Nat.mul_pos hden (Nat.two_pow_pos _)
  obtain ⟨hle, heven⟩ := abs_sub_roundHalfEven num hpos
  have hscale : |(num : ℚ) / den - mantissaAt num den * 2 ^ exponentAt num den| =
      |(num : ℚ) / (den * 2 ^ exponentAt num den : ℕ) - mantissaAt num den| *
        2 ^ exponentAt num den := by
    rw [← abs_of_pos hstep, ← abs_mul, abs_of_pos hstep, sub_mul]
    push_cast
    rw [div_mul_eq_div_div, div_mul_cancel₀ _ hstep.ne']
  rw [mantissaAt] at hscale ⊢
  rw [hscale]
  constructor
  · calc _ ≤ 1 / 2 * (2 : ℚ) ^ exponentAt num den := mul_le_mul_of_nonneg_right hle hstep.le
      _ = 2 ^ exponentAt num den / 2 := by ring
  · intro h
    apply heven
    exact mul_right_cancel₀ hstep.ne' (h.trans (by ring))

theorem le_div_of_exponentAt (h : exponentAt num den ≠ 0) :
    (2 : ℚ) ^ 52 * 2 ^ exponentAt num den ≤ num / den := by
  have hpos : (0 : ℚ) < den := by exact_mod_cast hden
  have hdiv := le_div_of_exponentAt_ne_zero num den h
  rw [Nat.le_div_iff_mul_le (Nat.mul_pos hden (Nat.two_pow_pos _))] at hdiv
  rw [le_div_iff₀ hpos]
  have hcast : ((2 ^ 52 * (den * 2 ^ exponentAt num den) : ℕ) : ℚ) ≤ num := by
    exact_mod_cast hdiv
  push_cast at hcast
  linarith

/-- No whole number of steps is nearer to a ratio than its mantissa. -/
theorem abs_sub_mantissaAt_le_steps (k : ℕ) :
    |(num : ℚ) / den - mantissaAt num den * 2 ^ exponentAt num den| ≤
        |(num : ℚ) / den - k * 2 ^ exponentAt num den| ∧
      (|(num : ℚ) / den - k * 2 ^ exponentAt num den| =
          |(num : ℚ) / den - mantissaAt num den * 2 ^ exponentAt num den| →
        k = mantissaAt num den ∨ mantissaAt num den % 2 = 0) := by
  obtain ⟨hle, heven⟩ := abs_sub_mantissaAt num hden
  by_cases hk : k = mantissaAt num den
  · rw [hk]
    exact ⟨le_refl _, fun _ => .inl rfl⟩
  · have hstep : (0 : ℚ) < 2 ^ exponentAt num den := by positivity
    -- whole numbers that differ are at least a step apart
    have hone : (1 : ℚ) ≤ |(mantissaAt num den : ℚ) - k| := by
      have hne : (mantissaAt num den : ℤ) - k ≠ 0 := by omega
      exact_mod_cast Int.one_le_abs hne
    have hapart : 2 ^ exponentAt num den ≤
        |(mantissaAt num den : ℚ) * 2 ^ exponentAt num den - k * 2 ^ exponentAt num den| := by
      rw [← sub_mul, abs_mul, abs_of_pos hstep]
      exact le_mul_of_one_le_left hstep.le hone
    have htriangle := abs_sub_le ((mantissaAt num den : ℚ) * 2 ^ exponentAt num den)
      ((num : ℚ) / den) (k * 2 ^ exponentAt num den)
    rw [abs_sub_comm _ ((num : ℚ) / den)] at htriangle
    constructor
    · linarith
    · intro h
      exact .inr (heven (by linarith))

/-- A magnitude of less than one step is further away than the least mantissa that
uses all bits. -/
theorem lt_abs_sub_of_exponent_lt {y : Magnitude} (hy : y.exponent < exponentAt num den) :
    |(num : ℚ) / den - (2 ^ 52 : ℕ) * 2 ^ exponentAt num den| < |(num : ℚ) / den - y.units| := by
  have hratio := le_div_of_exponentAt num hden (by omega)
  have hunits : y.units < 2 ^ 52 * 2 ^ exponentAt num den := by
    calc y.units < 2 ^ 53 * 2 ^ y.exponent :=
          Nat.mul_lt_mul_of_pos_right y.mantissa_lt (Nat.two_pow_pos _)
      _ = 2 ^ 52 * 2 ^ (y.exponent + 1) := by rw [Nat.pow_succ 2 y.exponent]; omega
      _ ≤ 2 ^ 52 * 2 ^ exponentAt num den :=
          Nat.mul_le_mul_left _ (Nat.pow_le_pow_right (by decide) hy)
  have hcast : (y.units : ℚ) < 2 ^ 52 * 2 ^ exponentAt num den := by exact_mod_cast hunits
  push_cast
  rw [abs_of_nonneg (by linarith), abs_of_nonneg (by linarith)]
  linarith

/-- No magnitude is nearer to a ratio than its mantissa. -/
theorem abs_sub_mantissaAt_le_units (y : Magnitude) :
    |(num : ℚ) / den - mantissaAt num den * 2 ^ exponentAt num den| ≤
        |(num : ℚ) / den - y.units| ∧
      (|(num : ℚ) / den - y.units| =
          |(num : ℚ) / den - mantissaAt num den * 2 ^ exponentAt num den| →
        y.units = mantissaAt num den * 2 ^ exponentAt num den ∨ mantissaAt num den % 2 = 0) := by
  by_cases hy : y.exponent < exponentAt num den
  · have hsteps := (abs_sub_mantissaAt_le_steps num hden (2 ^ 52)).1
    have hlt := lt_abs_sub_of_exponent_lt num hden hy
    constructor
    · linarith
    · intro h
      linarith
  · obtain ⟨j, hj⟩ := Nat.exists_eq_add_of_le (Nat.le_of_not_lt hy)
    have hunits : y.units = y.mantissa * 2 ^ j * 2 ^ exponentAt num den := by
      rw [units, hj, Nat.pow_add, Nat.mul_assoc, Nat.mul_comm (2 ^ j)]
    have hsteps := abs_sub_mantissaAt_le_steps num hden (y.mantissa * 2 ^ j)
    rw [hunits]
    push_cast at hsteps ⊢
    refine ⟨hsteps.1, fun h => ?_⟩
    rcases hsteps.2 h with hk | heven
    · exact .inl (by rw [hk])
    · exact .inr heven

end

/-! ## Rounding to a magnitude -/

theorem units_injective : Function.Injective units := by
  intro x y h
  have hexponent := exponentAt_units x Nat.one_pos
  have hmantissa := mantissaAt_units x Nat.one_pos
  rw [h] at hexponent hmantissa
  rw [exponentAt_units y Nat.one_pos] at hexponent
  rw [mantissaAt_units y Nat.one_pos] at hmantissa
  cases x
  cases y
  simp_all

/-- What becomes of a mantissa and an exponent: the magnitude of as many units, or
none where the exponent is too large for it. -/
theorem assemble_cases
    (mantissa exponent : ℕ) (hle : mantissa ≤ 2 ^ 53)
    (hnormal : exponent = 0 ∨ 2 ^ 52 ≤ mantissa) :
    (∃ x, assemble mantissa exponent hle hnormal = some x ∧
        x.units = mantissa * 2 ^ exponent ∧ exponent ≤ x.exponent ∧
        (mantissa % 2 = 0 → x.mantissa % 2 = 0) ∧
        (exponent < 2045 ∨ exponent = 2045 ∧ mantissa < 2 ^ 53)) ∨
      assemble mantissa exponent hle hnormal = none ∧
        (2045 < exponent ∨ exponent = 2045 ∧ mantissa = 2 ^ 53) := by
  rw [assemble]
  by_cases hmax : mantissa = 2 ^ 53
  · rw [dif_pos hmax]
    by_cases hexponent : exponent + 1 ≤ 2045
    · rw [dif_pos hexponent]
      refine .inl ⟨_, rfl, ?_, Nat.le_succ _, fun _ => (by decide : 2 ^ 52 % 2 = 0), .inl (by omega)⟩
      rw [hmax, units, Nat.pow_succ 2 exponent]
      simp only
      omega
    · rw [dif_neg hexponent]
      exact .inr ⟨rfl, by omega⟩
  · rw [dif_neg hmax]
    by_cases hexponent : exponent ≤ 2045
    · rw [dif_pos hexponent]
      exact .inl ⟨_, rfl, rfl, le_refl _, id, by omega⟩
    · rw [dif_neg hexponent]
      exact .inr ⟨rfl, by omega⟩

theorem overflowBound_mul :
    overflowBound * 2 ^ 1074 = (2 ^ 54 - 1) * 2 ^ 2044 := by
  rw [overflowBound, mul_assoc, ← pow_add]

section

variable {num den top : ℕ} (hden : 0 < den)
include hden

/-- Ratios around the magnitudes of exponents up to a top one are less than half a
step above the largest of these. -/
theorem lt_of_exponentAt_le
    (h : exponentAt num den < top + 1 ∨
      exponentAt num den = top + 1 ∧ mantissaAt num den < 2 ^ 53) :
    (num : ℚ) / den < (2 ^ 54 - 1) * 2 ^ top := by
  obtain ⟨hle, heven⟩ := abs_sub_mantissaAt num hden
  have hupper := (abs_sub_le_iff.mp hle).1
  have hpos : (0 : ℚ) < 2 ^ top := by positivity
  rcases h with hlt | ⟨hexponent, hmantissa⟩
  · have hstep : (2 : ℚ) ^ exponentAt num den ≤ 2 ^ top :=
      pow_le_pow_right₀ (by norm_num) (by omega)
    have hmantissa : (mantissaAt num den : ℚ) ≤ 2 ^ 53 := by
      exact_mod_cast mantissaAt_le num den
    have hproduct : (mantissaAt num den : ℚ) * 2 ^ exponentAt num den ≤ 2 ^ 53 * 2 ^ top :=
      mul_le_mul hmantissa hstep (by positivity) (by positivity)
    linarith
  · have hdouble : (2 : ℚ) ^ exponentAt num den = 2 * 2 ^ top := by
      rw [hexponent, ← pow_succ']
    rw [hdouble] at hle heven hupper
    have hbound : (mantissaAt num den : ℚ) + 1 ≤ 2 ^ 53 := by exact_mod_cast hmantissa
    have hproduct : ((mantissaAt num den : ℚ) + 1) * (2 * 2 ^ top) ≤ 2 ^ 53 * (2 * 2 ^ top) :=
      mul_le_mul_of_nonneg_right hbound (by positivity)
    refine lt_of_le_of_ne (by linarith) fun heq => ?_
    -- only above an even mantissa half a step is left over, and the largest is odd
    have hlargest : ((mantissaAt num den : ℚ) + 1) * (2 * 2 ^ top) = 2 ^ 53 * (2 * 2 ^ top) :=
      le_antisymm hproduct (by linarith)
    have hodd : mantissaAt num den + 1 = 2 ^ 53 := by
      exact_mod_cast mul_right_cancel₀ (mul_pos two_pos hpos).ne' hlargest
    have htie : mantissaAt num den % 2 = 0 := by
      apply heven
      rw [abs_of_nonneg (by linarith)]
      linarith
    omega

/-- Beyond these exponents ratios are no less than that. -/
theorem le_of_lt_exponentAt
    (h : top + 1 < exponentAt num den ∨
      exponentAt num den = top + 1 ∧ mantissaAt num den = 2 ^ 53) :
    (2 ^ 54 - 1) * 2 ^ top ≤ (num : ℚ) / den := by
  have hpos : (0 : ℚ) < 2 ^ top := by positivity
  rcases h with hlt | ⟨hexponent, hmantissa⟩
  · have hratio := le_div_of_exponentAt num hden (by omega)
    have hstep : (2 : ℚ) ^ top * 2 ^ 2 ≤ 2 ^ exponentAt num den := by
      rw [← pow_add]
      exact pow_le_pow_right₀ (by norm_num) (by omega)
    linarith
  · have hlower := (abs_sub_le_iff.mp (abs_sub_mantissaAt num hden).1).2
    have hdouble : (2 : ℚ) ^ exponentAt num den = 2 * 2 ^ top := by
      rw [hexponent, ← pow_succ']
    have hcast : (mantissaAt num den : ℚ) = 2 ^ 53 := by exact_mod_cast hmantissa
    rw [hdouble, hcast] at hlower
    linarith

end

theorem ofRatio_cases (num den : ℕ) :
    let scaled := num * 2 ^ 1074
    (∃ x, ofRatio num den = some x ∧
        x.units = mantissaAt scaled den * 2 ^ exponentAt scaled den ∧
        exponentAt scaled den ≤ x.exponent ∧
        (mantissaAt scaled den % 2 = 0 → x.mantissa % 2 = 0) ∧
        (exponentAt scaled den < 2045 ∨
          exponentAt scaled den = 2045 ∧ mantissaAt scaled den < 2 ^ 53)) ∨
      ofRatio num den = none ∧
        (2045 < exponentAt scaled den ∨
          exponentAt scaled den = 2045 ∧ mantissaAt scaled den = 2 ^ 53) :=
  assemble_cases _ _ (mantissaAt_le _ _) _

/-! The exponent of a unit is left open, so that nothing evaluates its power. -/

theorem div_mul_two_pow (num den n : ℕ) :
    (num : ℚ) / den * 2 ^ n = ((num * 2 ^ n : ℕ) : ℚ) / den := by
  push_cast
  rw [mul_div_right_comm]

theorem abs_sub_div_two_pow (num den units n : ℕ) :
    |(num : ℚ) / den - units / 2 ^ n| = |((num * 2 ^ n : ℕ) : ℚ) / den - units| / 2 ^ n := by
  have hpos : (0 : ℚ) < 2 ^ n := pow_pos two_pos n
  conv_rhs => rw [← div_mul_two_pow, ← abs_of_pos hpos, ← abs_div, abs_of_pos hpos, sub_div,
    mul_div_cancel_right₀ _ hpos.ne']

/-- Distances in units. -/
theorem abs_sub_value (num den : ℕ) (y : Magnitude) :
    |(num : ℚ) / den - y.value| =
      |((num * 2 ^ 1074 : ℕ) : ℚ) / den - y.units| / 2 ^ 1074 :=
  abs_sub_div_two_pow num den y.units 1074

/-- A ratio is rounded to the nearest magnitude. -/
theorem roundsTo_ofRatio (num : ℕ) {den : ℕ} (hden : 0 < den) :
    RoundsTo (num / den) (ofRatio num den) := by
  have hpos : (0 : ℚ) < 2 ^ 1074 := pow_pos two_pos _
  have hscaled := div_mul_two_pow num den 1074
  rcases ofRatio_cases num den with ⟨x, hx, hunits, -, heven, hbound⟩ | ⟨hnone, hbound⟩
  · have hcast : (x.units : ℚ) = mantissaAt (num * 2 ^ 1074) den *
        2 ^ exponentAt (num * 2 ^ 1074) den := by
      exact_mod_cast hunits
    rw [hx]
    refine ⟨?_, ?_, ?_⟩
    · rw [← mul_lt_mul_iff_left₀ hpos, hscaled, overflowBound_mul]
      exact lt_of_exponentAt_le hden hbound
    · intro y
      rw [abs_sub_value, abs_sub_value, hcast]
      exact div_le_div_of_nonneg_right (abs_sub_mantissaAt_le_units _ hden y).1 hpos.le
    · intro y hne h
      rw [abs_sub_value, abs_sub_value, hcast, div_left_inj' hpos.ne'] at h
      rcases (abs_sub_mantissaAt_le_units _ hden y).2 h with hsame | htie
      · exact absurd (units_injective (hsame.trans hunits.symm)) hne
      · exact heven htie
  · rw [hnone, RoundsTo, ← mul_le_mul_iff_left₀ hpos, hscaled, overflowBound_mul]
    exact le_of_lt_exponentAt hden hbound

/-- A ratio is within half a step of the magnitude that it is rounded to. -/
theorem abs_sub_value_le_of_ofRatio
    {num den : ℕ} (hden : 0 < den) {x : Magnitude} (h : ofRatio num den = some x) :
    |(num : ℚ) / den - x.value| * 2 ^ 1074 ≤ 2 ^ x.exponent / 2 := by
  have hpos : (0 : ℚ) < 2 ^ 1074 := pow_pos two_pos _
  rcases ofRatio_cases num den with ⟨y, hy, hunits, hexponent, -⟩ | ⟨hnone, -⟩
  · obtain rfl := Option.some.inj (hy.symm.trans h)
    have hcast : (y.units : ℚ) = mantissaAt (num * 2 ^ 1074) den *
        2 ^ exponentAt (num * 2 ^ 1074) den := by
      exact_mod_cast hunits
    have hstep : (2 : ℚ) ^ exponentAt (num * 2 ^ 1074) den ≤ 2 ^ y.exponent :=
      pow_le_pow_right₀ (by norm_num) hexponent
    rw [abs_sub_value, div_mul_cancel₀ _ hpos.ne', hcast]
    exact (abs_sub_mantissaAt _ hden).1.trans (by linarith)
  · rw [hnone] at h
    contradiction

/-- A decimal is rounded to the nearest magnitude. -/
theorem roundsTo_ofDecimal (d : Decimal) :
    RoundsTo d.value (ofDecimal d) := by
  rw [ofDecimal_eq_ofValue, ofValue, Decimal.value_eq_ratio]
  exact roundsTo_ofRatio _ (Nat.pow_pos (by decide))

theorem abs_sub_value_le_of_ofDecimal
    {d : Decimal} {x : Magnitude} (h : ofDecimal d = some x) :
    |d.value - x.value| * 2 ^ 1074 ≤ 2 ^ x.exponent / 2 := by
  rw [ofDecimal_eq_ofValue] at h
  rw [Decimal.value_eq_ratio]
  exact abs_sub_value_le_of_ofRatio (Nat.pow_pos (by decide)) h

/-! ## One result only -/

/-- Between two magnitudes with even mantissas there is another one. -/
theorem exists_units_between
    {x y : Magnitude} (hlt : x.units < y.units) (hx : x.mantissa % 2 = 0)
    (hy : y.mantissa % 2 = 0) :
    ∃ z : Magnitude, x.units < z.units ∧ z.units < y.units := by
  have hpos : 0 < 2 ^ x.exponent := Nat.two_pow_pos _
  have hmantissa := x.mantissa_lt
  obtain ⟨z, hexponent, hnext⟩ :
      ∃ z : Magnitude, z.exponent = x.exponent ∧ z.mantissa = x.mantissa + 1 :=
    ⟨⟨x.mantissa + 1, x.exponent, by omega, x.normal.imp_right Nat.le_succ_of_le, x.exponent_le⟩,
      rfl, rfl⟩
  have hunits : z.units = x.units + 2 ^ x.exponent := by
    rw [units, units, hnext, hexponent, Nat.succ_mul]
  have hne : z.units ≠ y.units := by
    intro heq
    have hmantissa' := congrArg mantissa (units_injective heq)
    omega
  have hle : z.units ≤ y.units := by
    by_cases hexponent' : y.exponent < x.exponent
    · -- the smaller exponent would make it the smaller magnitude
      have hupper : y.units < 2 ^ 53 * 2 ^ y.exponent :=
        Nat.mul_lt_mul_of_pos_right y.mantissa_lt (Nat.two_pow_pos _)
      have hlower : 2 ^ 52 * 2 ^ x.exponent ≤ x.units :=
        Nat.mul_le_mul_right _ (x.normal.resolve_left (by omega))
      have hstep : 2 ^ (y.exponent + 1) ≤ 2 ^ x.exponent :=
        Nat.pow_le_pow_right (by decide) hexponent'
      rw [Nat.pow_succ 2 y.exponent] at hstep
      omega
    · obtain ⟨j, hj⟩ := Nat.exists_eq_add_of_le (Nat.le_of_not_lt hexponent')
      have hsteps : y.units = y.mantissa * 2 ^ j * 2 ^ x.exponent := by
        rw [units, hj, Nat.pow_add, Nat.mul_assoc, Nat.mul_comm (2 ^ j)]
      rw [hsteps, units] at hlt
      have hcount := Nat.lt_of_mul_lt_mul_right hlt
      rw [hunits, hsteps, units, ← Nat.succ_mul]
      exact Nat.mul_le_mul_right _ hcount
  exact ⟨z, by omega, by omega⟩

theorem value_lt_value_iff {x y : Magnitude} :
    x.value < y.value ↔ x.units < y.units := by
  have hpos : (0 : ℚ) < 2 ^ 1074 := pow_pos two_pos _
  rw [value, value, div_lt_div_iff_of_pos_right hpos, Nat.cast_lt]

/-- Of two magnitudes that are equally near one has an odd mantissa, unless another one
is nearer. -/
theorem NearestTo.not_lt
    {q : ℚ} {x y : Magnitude} (hx : NearestTo q x) (hy : NearestTo q y) :
    ¬ x.units < y.units := by
  intro hlt
  have hvalue := value_lt_value_iff.mpr hlt
  have hsame : |q - x.value| = |q - y.value| := le_antisymm (hx.nearest y) (hy.nearest x)
  have hne : x ≠ y := by
    rintro rfl
    exact absurd hlt (lt_irrefl _)
  obtain ⟨z, hxz, hzy⟩ :=
    exists_units_between hlt (hx.even y hne.symm hsame.symm) (hy.even x hne hsame)
  rw [← value_lt_value_iff] at hxz hzy
  have hmiddle : q - x.value = y.value - q := by
    rcases abs_eq_abs.mp hsame with h | h
    · linarith
    · linarith
  have hnearer : |q - z.value| < |q - x.value| := by
    rw [abs_of_pos (by linarith : 0 < q - x.value), abs_lt]
    constructor <;> linarith
  exact absurd (hx.nearest z) (not_le.mpr hnearer)

/-- A rational number is rounded to one result only. -/
theorem RoundsTo.unique
    {q : ℚ} {f g : Option Magnitude} (hf : RoundsTo q f) (hg : RoundsTo q g) :
    f = g := by
  cases f with
  | none =>
      cases g with
      | none => rfl
      | some y => exact absurd hg.1 (not_lt.mpr hf)
  | some x =>
      cases g with
      | none => exact absurd hf.1 (not_lt.mpr hg)
      | some y =>
          rcases lt_trichotomy x.units y.units with hlt | heq | hlt
          · exact absurd hlt (hf.2.not_lt hg.2)
          · rw [units_injective heq]
          · exact absurd hlt (hg.2.not_lt hf.2)

end Magnitude
end QueryFormula
