import QueryFormula.Number.Shortest

/-!
# Rounding decimals

Rounding looks at the value of a decimal only, not at how many digits spell it,
and the shortest decimal of a magnitude rounds to it.
-/

namespace QueryFormula
namespace Magnitude

/-! ## Ratios -/

theorem roundHalfEven_mul_right
    (num den : Nat) {c : Nat} (hc : 0 < c) :
    roundHalfEven (num * c) (den * c) = roundHalfEven num den := by
  have htwice : 2 * (num % den * c) = 2 * (num % den) * c := by
    rw [Nat.mul_assoc]
  simp only [roundHalfEven, Nat.mul_div_mul_right _ _ hc, Nat.mul_mod_mul_right, htwice,
    Nat.mul_lt_mul_right hc, Nat.mul_left_inj (Nat.ne_of_gt hc)]

theorem exponentAt_mul_right
    (num den : Nat) {c : Nat} (hc : 0 < c) :
    exponentAt (num * c) (den * c) = exponentAt num den := by
  rw [exponentAt, exponentAt, Nat.mul_div_mul_right _ _ hc]

theorem mantissaAt_mul_right
    (num den : Nat) {c : Nat} (hc : 0 < c) :
    mantissaAt (num * c) (den * c) = mantissaAt num den := by
  rw [mantissaAt, exponentAt_mul_right num den hc, Nat.mul_right_comm,
    roundHalfEven_mul_right _ _ hc, mantissaAt]

theorem ofRatio_eq_assemble
    {num den mantissa exponent : Nat}
    (hmantissa : mantissaAt (num * 2 ^ 1074) den = mantissa)
    (hexponent : exponentAt (num * 2 ^ 1074) den = exponent)
    (hle : mantissa ≤ 2 ^ 53) (hnormal : exponent = 0 ∨ 2 ^ 52 ≤ mantissa) :
    ofRatio num den = assemble mantissa exponent hle hnormal := by
  subst hmantissa hexponent
  rfl

theorem ofRatio_mul_right
    (num den : Nat) {c : Nat} (hc : 0 < c) :
    ofRatio (num * c) (den * c) = ofRatio num den := by
  have hscaled : num * c * 2 ^ 1074 = num * 2 ^ 1074 * c :=
    Nat.mul_right_comm _ _ _
  refine ofRatio_eq_assemble ?_ ?_ (mantissaAt_le _ _) _
  · rw [hscaled, mantissaAt_mul_right _ _ hc]
  · rw [hscaled, exponentAt_mul_right _ _ hc]

/-- Equal ratios round alike. -/
theorem ofRatio_eq_of_mul_eq
    {num den num' den' : Nat} (hden : 0 < den) (hden' : 0 < den')
    (h : num * den' = num' * den) :
    ofRatio num den = ofRatio num' den' := by
  rw [← ofRatio_mul_right num den hden', h, Nat.mul_comm den den',
    ofRatio_mul_right num' den' hden]

/-- Less than half a unit rounds to zero. -/
theorem ofRatio_eq_zero
    {num den : Nat} (h : 2 * (num * 2 ^ 1074) < den) :
    ofRatio num den = some zero := by
  have hlt : num * 2 ^ 1074 < den := by omega
  have hquot : num * 2 ^ 1074 / den = 0 := Nat.div_eq_of_lt hlt
  have hexponent : exponentAt (num * 2 ^ 1074) den = 0 := by
    rw [exponentAt, hquot]
    rfl
  have hmantissa : mantissaAt (num * 2 ^ 1074) den = 0 := by
    rw [mantissaAt, hexponent, Nat.pow_zero, Nat.mul_one]
    simp only [roundHalfEven, hquot, Nat.mod_eq_of_lt hlt, h, true_or, if_true]
  rw [ofRatio_eq_assemble hmantissa hexponent (by decide) (.inl rfl)]
  rfl

/-- A ratio of `2 ^ 1024` or more is beyond the largest magnitude. -/
theorem ofRatio_eq_none
    {num den a : Nat} (hden : 0 < den) (ha : 1024 ≤ a) (h : 2 ^ a * den ≤ num) :
    ofRatio num den = none := by
  have hexponent : ∀ n, 2098 ≤ a + n → 2045 < exponentAt (num * 2 ^ n) den := by
    intro n hn
    have hquot : 2 ^ (a + n) ≤ num * 2 ^ n / den := by
      rw [Nat.le_div_iff_mul_le hden, Nat.pow_add, Nat.mul_right_comm]
      exact Nat.mul_le_mul_right _ h
    have hne : num * 2 ^ n / den ≠ 0 :=
      Nat.ne_of_gt (Nat.lt_of_lt_of_le (Nat.two_pow_pos _) hquot)
    have hlog := (Nat.le_log2 hne).mpr hquot
    rw [exponentAt]
    omega
  have hlarge := hexponent 1074 (by omega)
  rw [ofRatio_eq_assemble rfl rfl (mantissaAt_le _ _) (.inr (le_mantissaAt _ _ (by omega))),
    assemble]
  split
  · exact dif_neg (by omega)
  · exact dif_neg (by omega)

/-- The mantissa and the exponent of a magnitude are found again from its
units. -/
theorem exponentAt_units (x : Magnitude) {c : Nat} (hc : 0 < c) :
    exponentAt (x.units * c) c = x.exponent := by
  rw [exponentAt, Nat.mul_div_cancel _ hc, units]
  rcases x.normal with hzero | hnormal
  · have hlt := x.mantissa_lt
    rw [hzero, Nat.pow_zero, Nat.mul_one]
    by_cases hm : x.mantissa = 0
    · rw [hm]
      rfl
    · have hlog := (Nat.log2_lt hm).mpr hlt
      omega
  · have hpos : 0 < 2 ^ x.exponent := Nat.two_pow_pos _
    have hlog : (x.mantissa * 2 ^ x.exponent).log2 = 52 + x.exponent := by
      have hne : x.mantissa * 2 ^ x.exponent ≠ 0 := by
        have hm : 0 < x.mantissa := Nat.lt_of_lt_of_le (Nat.two_pow_pos 52) hnormal
        exact Nat.ne_of_gt (Nat.mul_pos hm hpos)
      rw [Nat.log2_eq_iff hne, Nat.pow_add, Nat.add_right_comm, Nat.pow_add]
      exact ⟨Nat.mul_le_mul_right _ hnormal,
        Nat.mul_lt_mul_of_pos_right x.mantissa_lt hpos⟩
    omega

theorem mantissaAt_units (x : Magnitude) {c : Nat} (hc : 0 < c) :
    mantissaAt (x.units * c) c = x.mantissa := by
  have hpos : 0 < c * 2 ^ x.exponent := Nat.mul_pos hc (Nat.two_pow_pos _)
  have hunits : x.units * c = x.mantissa * (c * 2 ^ x.exponent) := by
    rw [units, Nat.mul_assoc, Nat.mul_comm c]
  rw [mantissaAt, exponentAt_units x hc, hunits]
  simp only [roundHalfEven, Nat.mul_div_cancel _ hpos, Nat.mul_mod_left, Nat.mul_zero, hpos,
    true_or, if_true]

/-- A magnitude as a ratio rounds to itself. -/
theorem ofRatio_units (x : Magnitude) {c : Nat} (hc : 0 < c) :
    ofRatio (x.units * c) (2 ^ 1074 * c) = some x := by
  have hprod : ∀ k, 0 < 2 ^ k * c := fun k => Nat.mul_pos (Nat.two_pow_pos k) hc
  have hpos := hprod 1074
  have hscaled : x.units * c * 2 ^ 1074 = x.units * (2 ^ 1074 * c) := by
    rw [Nat.mul_assoc, Nat.mul_comm c]
  have hle : x.mantissa ≤ 2 ^ 53 := Nat.le_of_lt x.mantissa_lt
  rw [ofRatio_eq_assemble (by rw [hscaled, mantissaAt_units x hpos])
    (by rw [hscaled, exponentAt_units x hpos]) hle x.normal, assemble,
    dif_neg (Nat.ne_of_lt x.mantissa_lt), dif_pos x.exponent_le]

/-! ## Decimals -/

/-- The magnitude nearest to the value of a decimal, without a look at its
exponent first. -/
def ofValue (d : Decimal) : Option Magnitude :=
  ofRatio (d.digits * 10 ^ d.exponent.toNat) (10 ^ (-d.exponent).toNat)

theorem ofRatio_or_eq_ofValue (d : Decimal) :
    (if 0 ≤ d.exponent then ofRatio (d.digits * 10 ^ d.exponent.toNat) 1
      else ofRatio d.digits (10 ^ (-d.exponent).toNat)) = ofValue d := by
  by_cases h : 0 ≤ d.exponent
  · have hneg : (-d.exponent).toNat = 0 := by omega
    rw [if_pos h, ofValue, hneg, Nat.pow_zero]
  · have hpos : d.exponent.toNat = 0 := by omega
    rw [if_neg h, ofValue, hpos, Nat.pow_zero, Nat.mul_one]

/-- A decimal whose exponent says that it is tiny rounds to zero. -/
theorem ofValue_eq_zero_of_tiny
    {d : Decimal} (h : d.digits.log2 + 1 + 3 * d.exponent < -1075) :
    ofValue d = some zero := by
  obtain ⟨k, hk⟩ : ∃ k : Nat, d.exponent = -k := ⟨d.exponent.natAbs, by omega⟩
  have hpos : d.exponent.toNat = 0 := by omega
  have hneg : (-d.exponent).toNat = k := by omega
  have hdigits : d.digits < 2 ^ (d.digits.log2 + 1) := Nat.lt_log2_self
  have hlt : ∀ n, d.digits.log2 + 1 + (n + 1) ≤ 3 * k → 2 * (d.digits * 2 ^ n) < 10 ^ k := by
    intro n hexponent
    calc 2 * (d.digits * 2 ^ n)
        = d.digits * 2 ^ (n + 1) := by
          rw [Nat.pow_succ, Nat.mul_left_comm, Nat.mul_comm 2]
      _ < 2 ^ (d.digits.log2 + 1) * 2 ^ (n + 1) :=
          Nat.mul_lt_mul_of_pos_right hdigits (Nat.two_pow_pos _)
      _ = 2 ^ (d.digits.log2 + 1 + (n + 1)) := (Nat.pow_add _ _ _).symm
      _ ≤ 2 ^ (3 * k) := Nat.pow_le_pow_right (by decide) hexponent
      _ = 8 ^ k := Nat.pow_mul 2 3 k
      _ ≤ 10 ^ k := Nat.pow_le_pow_left (by decide) k
  rw [ofValue, hpos, hneg, Nat.pow_zero, Nat.mul_one]
  exact ofRatio_eq_zero (hlt 1074 (by omega))

theorem ofValue_eq_zero_of_digits
    {d : Decimal} (h : d.digits = 0) :
    ofValue d = some zero := by
  have hlt : ∀ n, 2 * (0 * 2 ^ n) < 10 ^ (-d.exponent).toNat := by
    intro n
    rw [Nat.zero_mul]
    exact Nat.pow_pos (by decide)
  rw [ofValue, h, Nat.zero_mul]
  exact ofRatio_eq_zero (hlt 1074)

/-- A decimal whose exponent says that it is huge is beyond the largest
magnitude. -/
theorem ofValue_eq_none_of_huge
    {d : Decimal} (hdigits : d.digits ≠ 0) (h : 310 < d.exponent) :
    ofValue d = none := by
  have hneg : (-d.exponent).toNat = 0 := by omega
  have hlarge : ∀ n, 2 ^ (205 * n) ≤ 10 ^ (62 * n) := by
    intro n
    rw [Nat.pow_mul, Nat.pow_mul]
    exact Nat.pow_le_pow_left (by decide) n
  -- the five is named, so that nothing evaluates its powers
  obtain ⟨n, hn⟩ : ∃ n : Nat, n = 5 := ⟨5, rfl⟩
  rw [ofValue, hneg, Nat.pow_zero]
  refine ofRatio_eq_none (a := 205 * n) Nat.one_pos (by omega) ?_
  rw [Nat.mul_one]
  calc 2 ^ (205 * n)
      ≤ 10 ^ (62 * n) := hlarge n
    _ ≤ 10 ^ d.exponent.toNat := Nat.pow_le_pow_right (by decide) (by omega)
    _ ≤ d.digits * 10 ^ d.exponent.toNat :=
        Nat.le_mul_of_pos_left _ (Nat.pos_of_ne_zero hdigits)

/-- The value of a decimal alone decides. -/
theorem ofDecimal_eq_ofValue (d : Decimal) :
    ofDecimal d = ofValue d := by
  rw [ofDecimal, ofRatio_or_eq_ofValue]
  by_cases hdigits : d.digits = 0
  · rw [if_pos hdigits, ofValue_eq_zero_of_digits hdigits]
  · rw [if_neg hdigits]
    by_cases hhuge : 310 < d.exponent
    · rw [if_pos hhuge, ofValue_eq_none_of_huge hdigits hhuge]
    · rw [if_neg hhuge]
      by_cases htiny : d.digits.log2 + 1 + 3 * d.exponent < -1075
      · rw [if_pos htiny, ofValue_eq_zero_of_tiny htiny]
      · rw [if_neg htiny]

theorem ofDecimal_exactDecimal (x : Magnitude) :
    ofDecimal x.exactDecimal = some x := by
  have hexponent : x.exactDecimal.exponent = -1074 := rfl
  have hdigits : x.exactDecimal.digits = x.units * 5 ^ 1074 := rfl
  have hten : ∀ k, 10 ^ k = 2 ^ k * 5 ^ k := Nat.mul_pow 2 5
  have hfive : ∀ k, 0 < 5 ^ k := fun k => Nat.pow_pos (by decide)
  rw [ofDecimal_eq_ofValue, ofValue, hdigits, hexponent]
  have hpos : (-1074 : Int).toNat = 0 := rfl
  have hneg : (-(-1074) : Int).toNat = 1074 := rfl
  rw [hpos, hneg, Nat.pow_zero, Nat.mul_one, hten 1074, ofRatio_units x (hfive 1074)]

theorem readsBack_of_nearestWith
    {x : Magnitude} {tie : Tie} {exponent : Int} {d : Decimal}
    (h : x.nearestWith tie exponent = some d) :
    x.readsBack d = true := by
  rw [nearestWith] at h
  dsimp only at h
  split at h
  · rename_i hbelow habove
    cases Option.some.inj h
    split
    · exact hbelow
    · exact habove
  · rename_i hbelow _
    cases Option.some.inj h
    exact hbelow
  · rename_i _ habove
    cases Option.some.inj h
    exact habove
  · contradiction

theorem shortest_zero (tie : Tie) :
    zero.shortest tie = ⟨0, 0⟩ :=
  if_pos rfl

/-- The shortest decimal of a magnitude rounds to it. -/
theorem ofDecimal_shortest (x : Magnitude) (tie : Tie) :
    ofDecimal (x.shortest tie) = some x := by
  rw [shortest]
  by_cases hx : x = zero
  · rw [if_pos hx, hx]
    rfl
  · rw [if_neg hx]
    cases hfind : (List.range 17).findSome? fun (n : Nat) =>
        x.nearestWith tie (x.leadingExponent - n) with
    | none =>
        exact ofDecimal_exactDecimal x
    | some d =>
        obtain ⟨n, -, hn⟩ := List.exists_of_findSome?_eq_some hfind
        have hreads := readsBack_of_nearestWith hn
        rwa [readsBack, beq_iff_eq] at hreads

/-- Only zero is what a decimal without digits rounds to. -/
theorem digits_ne_zero_of_ofDecimal
    {x : Magnitude} {d : Decimal} (hzero : x ≠ zero) (hreads : ofDecimal d = some x) :
    d.digits ≠ 0 := by
  intro hdigits
  rw [ofDecimal, if_pos hdigits] at hreads
  exact hzero (Option.some.inj hreads).symm

end Magnitude
end QueryFormula
