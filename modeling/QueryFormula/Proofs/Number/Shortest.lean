import Mathlib.Data.Nat.Cast.Order.Field
import Mathlib.Data.Nat.Prime.Basic
import QueryFormula.Proofs.Number.Nearest

/-!
# Ties between shortest decimals

The two ways to take the shortest decimal of a magnitude look for it on the same
decimal grids, and so end on the same one.  They differ only where both neighbours on
that grid are rounded to the magnitude, which lies halfway between them.  The last
digit of a whole number is never in doubt in that way.
-/

namespace QueryFormula

namespace Decimal

/-- The next decimal of as many places. -/
def next (d : Decimal) : Decimal :=
  ⟨d.digits + 1, d.exponent⟩

theorem value_next (d : Decimal) :
    d.next.value = d.value + 10 ^ d.exponent := by
  simp only [next, value]
  push_cast
  ring

theorem step_pos (e : ℤ) :
    (0 : ℚ) < 10 ^ e :=
  zpow_pos (by norm_num) e

theorem length_toDigits_pos (n : ℕ) :
    0 < (Nat.toDigits 10 n).length :=
  List.length_pos_iff.mpr Nat.toDigits_ne_nil

theorem lt_ten_pow_length (n : ℕ) :
    n < 10 ^ (Nat.toDigits 10 n).length :=
  (Nat.length_toDigits_le_iff (by decide) (length_toDigits_pos n)).mp (le_refl _)

theorem ten_pow_length_le {n : ℕ} (h : n ≠ 0) :
    10 ^ ((Nat.toDigits 10 n).length - 1) ≤ n := by
  by_contra hlt
  rw [Nat.not_le] at hlt
  have hpos := length_toDigits_pos n
  by_cases hone : (Nat.toDigits 10 n).length - 1 = 0
  · rw [hone, Nat.pow_zero] at hlt
    omega
  · have hle := (Nat.length_toDigits_le_iff (by decide) (Nat.pos_of_ne_zero hone)).mpr hlt
    omega

/-- The place of the first digit bounds a decimal and the next one. -/
theorem value_next_le (d : Decimal) :
    d.next.value ≤ 10 ^ d.point := by
  have hten : (10 : ℚ) ≠ 0 := by norm_num
  have hdigits : ((d.digits + 1 : ℕ) : ℚ) ≤ 10 ^ (Nat.toDigits 10 d.digits).length := by
    exact_mod_cast lt_ten_pow_length d.digits
  rw [point, zpow_add₀ hten, zpow_natCast, mul_comm]
  exact mul_le_mul_of_nonneg_right hdigits (step_pos d.exponent).le

theorem le_value {d : Decimal} (h : d.digits ≠ 0) :
    10 ^ (d.point - 1) ≤ d.value := by
  have hten : (10 : ℚ) ≠ 0 := by norm_num
  have hpos := length_toDigits_pos d.digits
  have hdigits : (10 : ℚ) ^ ((Nat.toDigits 10 d.digits).length - 1) ≤ d.digits := by
    exact_mod_cast ten_pow_length_le h
  have hpoint : d.point - 1 = ((Nat.toDigits 10 d.digits).length - 1 : ℕ) + d.exponent := by
    rw [point]
    omega
  rw [hpoint, zpow_add₀ hten, zpow_natCast]
  exact mul_le_mul_of_nonneg_right hdigits (step_pos d.exponent).le

/-- With fewer places, a decimal has zeros at the end. -/
theorem ten_dvd_of_value_eq
    {d d' : Decimal} (hvalue : d'.value = d.value) (hlt : d.exponent < d'.exponent) :
    10 ∣ d.digits := by
  have hten : (10 : ℚ) ≠ 0 := by norm_num
  obtain ⟨j, hj⟩ : ∃ j : ℕ, d'.exponent = (j + 1 : ℕ) + d.exponent :=
    ⟨(d'.exponent - d.exponent - 1).toNat, by omega⟩
  rw [value, value, hj, zpow_add₀ hten, zpow_natCast, ← mul_assoc] at hvalue
  have hdigits := mul_right_cancel₀ (step_pos d.exponent).ne' hvalue
  have hzeros : d'.digits * 10 ^ (j + 1) = d.digits := by exact_mod_cast hdigits
  exact ⟨d'.digits * 10 ^ j, by rw [← hzeros, pow_succ, ← mul_assoc, mul_comm]⟩

end Decimal

namespace Magnitude

/-! ## Neighbours on a decimal grid -/

/-- The decimal at or below the magnitude on a grid. -/
def below (x : Magnitude) (e : ℤ) : Decimal :=
  ⟨(x.overPower e).1 / (x.overPower e).2, e⟩

variable {x : Magnitude}

theorem overPower_pos (x : Magnitude) (e : ℤ) :
    0 < (x.overPower e).2 := by
  have htwo : ∀ k : ℕ, 0 < 2 ^ k := Nat.two_pow_pos
  have hunit := htwo 1074
  rw [overPower]
  generalize 2 ^ 1074 = unit at hunit ⊢
  split
  · exact Nat.mul_pos hunit (Nat.pow_pos (by decide))
  · exact hunit

theorem value_eq_div (x : Magnitude) :
    x.value = (x.units : ℚ) / (2 ^ 1074 : ℕ) := by
  have hcast : ∀ k : ℕ, ((2 ^ k : ℕ) : ℚ) = 2 ^ k := Nat.cast_pow 2
  rw [value, hcast 1074]

theorem value_eq_overPower (x : Magnitude) (e : ℤ) :
    x.value = ((x.overPower e).1 : ℚ) / (x.overPower e).2 * 10 ^ e := by
  have hten : ∀ k : ℕ, ((10 ^ k : ℕ) : ℚ) ≠ 0 :=
    fun k => Nat.cast_ne_zero.mpr (Nat.pow_pos (by decide)).ne'
  rw [value_eq_div, overPower]
  generalize 2 ^ 1074 = unit
  split
  · next hnonneg =>
    obtain ⟨k, rfl⟩ := Int.eq_ofNat_of_zero_le hnonneg
    have hstep : (10 : ℚ) ^ (k : ℤ) = (10 ^ k : ℕ) := by
      rw [zpow_natCast, Nat.cast_pow, Nat.cast_ofNat]
    rw [hstep, Int.toNat_natCast, Nat.cast_mul, ← div_div, div_mul_cancel₀ _ (hten k)]
  · next hneg =>
    obtain ⟨k, rfl⟩ : ∃ k : ℕ, e = -k := ⟨(-e).toNat, by omega⟩
    have hstep : (10 : ℚ) ^ (-k : ℤ) = ((10 ^ k : ℕ) : ℚ)⁻¹ := by
      rw [zpow_neg, zpow_natCast, Nat.cast_pow, Nat.cast_ofNat]
    rw [hstep, neg_neg, Int.toNat_natCast, Nat.cast_mul, ← div_eq_mul_inv, div_div,
      mul_div_mul_right _ _ (hten k)]

theorem value_below_le (x : Magnitude) (e : ℤ) :
    (x.below e).value ≤ x.value := by
  rw [x.value_eq_overPower e]
  exact mul_le_mul_of_nonneg_right Nat.cast_div_le (Decimal.step_pos e).le

theorem div_lt_cast_div_succ (a : ℕ) {b : ℕ} (hb : 0 < b) :
    (a : ℚ) / b < (a / b : ℕ) + 1 := by
  rw [div_lt_iff₀' (Nat.cast_pos.mpr hb)]
  exact_mod_cast Nat.lt_mul_div_succ a hb

theorem lt_value_next_below (x : Magnitude) (e : ℤ) :
    x.value < (x.below e).next.value := by
  rw [x.value_eq_overPower e]
  refine mul_lt_mul_of_pos_right ?_ (Decimal.step_pos e)
  have hlt := div_lt_cast_div_succ (x.overPower e).1 (x.overPower_pos e)
  exact_mod_cast hlt

/-- The decimal below a magnitude on its grid is the only one that the magnitude is
just above. -/
theorem eq_below
    {d : Decimal} (hle : d.value ≤ x.value) (hlt : x.value < d.next.value) :
    d = x.below d.exponent := by
  have hbelow := x.value_below_le d.exponent
  have hnext := x.lt_value_next_below d.exponent
  have hstep := Decimal.step_pos d.exponent
  have hlow : d.digits < (x.below d.exponent).digits + 1 := by
    have hcast := lt_of_mul_lt_mul_right (hle.trans_lt hnext) hstep.le
    exact_mod_cast hcast
  have hhigh : (x.below d.exponent).digits < d.digits + 1 := by
    have hcast := lt_of_mul_lt_mul_right (hbelow.trans_lt hlt) hstep.le
    exact_mod_cast hcast
  have hdigits : d.digits = (x.below d.exponent).digits := by omega
  cases d
  simp only [below] at hdigits ⊢
  rw [← hdigits]

/-- The magnitude lies halfway between its neighbours. -/
def Halfway (x : Magnitude) (d : Decimal) : Prop :=
  2 * x.value = d.value + d.next.value

theorem halfway_below_iff (x : Magnitude) (e : ℤ) :
    x.Halfway (x.below e) ↔ 2 * ((x.overPower e).1 % (x.overPower e).2) = (x.overPower e).2 := by
  have hpos := x.overPower_pos e
  have hstep := Decimal.step_pos e
  have hne : ((x.overPower e).2 : ℚ) ≠ 0 := Nat.cast_ne_zero.mpr hpos.ne'
  have hdiv := Nat.div_add_mod (x.overPower e).1 (x.overPower e).2
  rw [Halfway, x.value_eq_overPower e, Decimal.value_next]
  simp only [below, Decimal.value]
  generalize (x.overPower e).1 = num at hdiv ⊢
  generalize (x.overPower e).2 = den at hpos hne hdiv ⊢
  have hcast : (num : ℚ) = den * (num / den : ℕ) + (num % den : ℕ) := by exact_mod_cast hdiv.symm
  have hscale : 2 * ((num : ℚ) / den * 10 ^ e) -
        ((num / den : ℕ) * 10 ^ e + ((num / den : ℕ) * 10 ^ e + 10 ^ e)) =
      (2 * (num % den : ℕ) - den) / den * 10 ^ e := by
    rw [hcast]
    field_simp
    ring
  rw [← sub_eq_zero, hscale, mul_eq_zero, div_eq_zero_iff, or_iff_left hstep.ne', or_iff_left hne,
    sub_eq_zero]
  exact_mod_cast Iff.rfl

/-! ## The first grid -/

/-- A neighbour of the magnitude on a grid is rounded to it. -/
def Hits (x : Magnitude) (e : ℤ) : Prop :=
  ofDecimal (x.below e) = some x ∨ ofDecimal (x.below e).next = some x

/-- What is found on a grid, by its neighbours. -/
theorem nearestWith_eq (x : Magnitude) (tie : Tie) (e : ℤ) :
    x.nearestWith tie e =
      let twice := 2 * ((x.overPower e).1 % (x.overPower e).2)
      let den := (x.overPower e).2
      match x.readsBack (x.below e), x.readsBack (x.below e).next with
      | true, true =>
        some (if twice < den || twice == den && tie == .even && (x.below e).digits % 2 == 0 then
          x.below e else (x.below e).next)
      | true, false => some (x.below e)
      | false, true => some (x.below e).next
      | false, false => none :=
  rfl

theorem readsBack_iff {d : Decimal} :
    x.readsBack d = true ↔ ofDecimal d = some x := by
  rw [readsBack, beq_iff_eq]

theorem hits_iff (x : Magnitude) (tie : Tie) (e : ℤ) :
    x.Hits e ↔ (x.nearestWith tie e).isSome = true := by
  rw [Hits, ← readsBack_iff, ← readsBack_iff, nearestWith_eq]
  cases x.readsBack (x.below e) <;> cases x.readsBack (x.below e).next <;> simp

/-- Only between neighbours that are both rounded to the magnitude there is something
to choose, and only halfway between them the choices differ. -/
theorem nearestWith_even_ne_up
    {e : ℤ} {d d' : Decimal} (heven : x.nearestWith .even e = some d)
    (hup : x.nearestWith .up e = some d') (hne : d ≠ d') :
    d = x.below e ∧ d' = (x.below e).next ∧ ofDecimal d' = some x ∧ x.Halfway d := by
  rw [nearestWith_eq] at heven hup
  dsimp only at heven hup
  cases hbelow : x.readsBack (x.below e) <;> cases hnext : x.readsBack (x.below e).next <;>
    rw [hbelow, hnext] at heven hup
  case true.true =>
    obtain rfl := Option.some.inj heven
    obtain rfl := Option.some.inj hup
    by_cases htwice : 2 * ((x.overPower e).1 % (x.overPower e).2) = (x.overPower e).2
    · have hhalfway := (x.halfway_below_iff e).mpr htwice
      by_cases hdigits : (x.below e).digits % 2 = 0
      · simp [htwice, hdigits, hhalfway, readsBack_iff.mp hnext]
      · simp [htwice, hdigits] at hne
    · simp [htwice] at hne
  all_goals
    rw [heven] at hup
    exact absurd (Option.some.inj hup) hne

theorem nearestWith_up
    {d : Decimal} (hreads : ofDecimal d = some x) (hnext : ofDecimal d.next = some x)
    (hhalfway : x.Halfway d) :
    x.nearestWith .up d.exponent = some d.next := by
  have hstep := Decimal.step_pos d.exponent
  have hvalue := d.value_next
  have hbelow : d = x.below d.exponent := by
    rw [Halfway] at hhalfway
    exact eq_below (by linarith) (by linarith)
  have hreads' := readsBack_iff.mpr hreads
  have hnext' := readsBack_iff.mpr hnext
  rw [hbelow, halfway_below_iff] at hhalfway
  rw [nearestWith_eq, ← hbelow, hreads', hnext']
  simp [hhalfway]

theorem div_two_pow_lt (units m k : ℕ) :
    (units : ℚ) / (2 ^ m : ℕ) <
      10 ^ ((Nat.toDigits 10 (units * 10 ^ k / 2 ^ m)).length - k : ℤ) := by
  have hten : (10 : ℚ) ≠ 0 := by norm_num
  have hpos : (0 : ℚ) < 10 ^ k := pow_pos (by norm_num) k
  have hdigits : ((units * 10 ^ k / 2 ^ m : ℕ) : ℚ) + 1 ≤
      10 ^ (Nat.toDigits 10 (units * 10 ^ k / 2 ^ m)).length := by
    exact_mod_cast Decimal.lt_ten_pow_length (units * 10 ^ k / 2 ^ m)
  have hlt := div_lt_cast_div_succ (units * 10 ^ k) (Nat.two_pow_pos m)
  rw [zpow_sub₀ hten, zpow_natCast, zpow_natCast, lt_div_iff₀ hpos, div_mul_eq_mul_div]
  push_cast at hlt hdigits ⊢
  linarith

/-- The first significant digit stands on the first grid. -/
theorem value_lt_leadingExponent (x : Magnitude) :
    x.value < 10 ^ (x.leadingExponent + 1) := by
  have hexponent : x.leadingExponent + 1 =
      ((Nat.toDigits 10 (x.units * 10 ^ 324 / 2 ^ 1074)).length - (324 : ℕ) : ℤ) := by
    rw [leadingExponent]
    omega
  rw [value_eq_div, hexponent]
  exact div_two_pow_lt x.units 1074 324

/-- A decimal no greater than the magnitude has its first digit there or further to the
right. -/
theorem point_le_leadingExponent
    {d : Decimal} (hdigits : d.digits ≠ 0) (hle : d.value ≤ x.value) :
    d.point ≤ x.leadingExponent + 1 := by
  have hlt := ((Decimal.le_value hdigits).trans hle).trans_lt x.value_lt_leadingExponent
  rw [zpow_lt_zpow_iff_right₀ (by norm_num)] at hlt
  omega

theorem findSome?_range_eq_some
    {α : Type} {f : ℕ → Option α} {k n : ℕ} {a : α} (hn : n < k) (hf : f n = some a)
    (hfirst : ∀ m < n, f m = none) :
    (List.range k).findSome? f = some a := by
  obtain ⟨j, rfl⟩ := Nat.exists_eq_add_of_lt hn
  have hrange : List.range (n + j + 1) =
      List.range n ++ n :: ((List.range j).map Nat.succ).map (n + ·) := by
    rw [Nat.add_assoc, List.range_add, List.range_succ_eq_map, List.map_cons, Nat.add_zero]
  refine List.findSome?_eq_some_iff.mpr ⟨_, n, _, hrange, hf, ?_⟩
  · intro m hm
    exact hfirst m (List.mem_range.mp hm)

/-- Both ways to take the shortest decimal end on the first grid with a neighbour that
is rounded to the magnitude; without one, both take the exact decimal. -/
theorem shortest_cases (h : x ≠ zero) :
    (∃ n : ℕ, n < 17 ∧ (∀ m : ℕ, m < n → ¬ x.Hits (x.leadingExponent - m)) ∧
        ∀ tie, x.nearestWith tie (x.leadingExponent - n) = some (x.shortest tie)) ∨
      (∀ n : ℕ, n < 17 → ¬ x.Hits (x.leadingExponent - n)) ∧
        ∀ tie, x.shortest tie = x.exactDecimal := by
  classical
  have hnone : ∀ tie e, ¬ x.Hits e → x.nearestWith tie e = none := by
    intro tie e hmiss
    rwa [x.hits_iff tie, Option.not_isSome_iff_eq_none] at hmiss
  by_cases hhit : ∃ n : ℕ, n < 17 ∧ x.Hits (x.leadingExponent - n)
  · obtain ⟨hlt, hfound⟩ := Nat.find_spec hhit
    have hfirst : ∀ m : ℕ, m < Nat.find hhit → ¬ x.Hits (x.leadingExponent - m) := by
      intro m hm hhits
      exact Nat.find_min hhit hm ⟨hm.trans hlt, hhits⟩
    refine .inl ⟨Nat.find hhit, hlt, hfirst, fun tie => ?_⟩
    obtain ⟨d, hd⟩ := Option.isSome_iff_exists.mp ((x.hits_iff tie _).mp hfound)
    have hsearch := findSome?_range_eq_some hlt hd fun m hm => hnone tie _ (hfirst m hm)
    rw [shortest, if_neg h, hsearch, hd]
    rfl
  · have hmiss : ∀ n : ℕ, n < 17 → ¬ x.Hits (x.leadingExponent - n) :=
      fun n hn hhits => hhit ⟨n, hn, hhits⟩
    refine .inr ⟨hmiss, fun tie => ?_⟩
    have hsearch : ((List.range 17).findSome? fun (n : ℕ) =>
        x.nearestWith tie (x.leadingExponent - n)) = none := by
      rw [List.findSome?_eq_none_iff]
      intro n hn
      exact hnone tie _ (hmiss n (List.mem_range.mp hn))
    rw [shortest, if_neg h, hsearch]
    rfl

/-! ## Ties -/

/-- The magnitude lies halfway between a decimal without a zero at the end and the next
one of as many places, and that is rounded to it too. -/
structure Tied (x : Magnitude) (d : Decimal) : Prop where
  not_dvd : ¬ 10 ∣ d.digits
  reads_next : ofDecimal d.next = some x
  halfway : x.Halfway d

theorem Tied.ne_zero {d : Decimal} (h : x.Tied d) :
    d.digits ≠ 0 :=
  fun hzero => h.not_dvd (hzero ▸ dvd_zero 10)

theorem Halfway.lt {d : Decimal} (h : x.Halfway d) :
    d.value < x.value ∧ x.value < d.next.value := by
  have hstep := Decimal.step_pos d.exponent
  have hvalue := d.value_next
  rw [Halfway] at h
  constructor <;> linarith

theorem Halfway.eq_below {d : Decimal} (h : x.Halfway d) :
    d = x.below d.exponent :=
  Magnitude.eq_below h.lt.1.le h.lt.2

/-- A decimal that ends in a zero stands on the grid before as well. -/
theorem hits_of_dvd
    {d : Decimal} (hdvd : 10 ∣ d.digits) (hreads : ofDecimal d = some x) (hhalfway : x.Halfway d) :
    x.Hits (d.exponent + 1) := by
  obtain ⟨digits, e⟩ := d
  obtain ⟨k, rfl⟩ : 10 ∣ digits := hdvd
  have hten : (10 : ℚ) ≠ 0 := by norm_num
  have hshift : Decimal.value ⟨k, e + 1⟩ = Decimal.value ⟨10 * k, e⟩ := by
    simp only [Decimal.value]
    rw [zpow_add_one₀ hten]
    push_cast
    ring
  obtain ⟨hlow, hhigh⟩ := hhalfway.lt
  have hnext := Decimal.value_next ⟨k, e + 1⟩
  have hnext' := Decimal.value_next ⟨10 * k, e⟩
  have hstep := Decimal.step_pos e
  simp only [zpow_add_one₀ hten] at hnext hnext'
  have hbelow : (⟨k, e + 1⟩ : Decimal) = x.below (e + 1) :=
    Magnitude.eq_below (by linarith) (by linarith)
  refine .inl ?_
  rw [← hbelow, Decimal.ofDecimal_eq_of_value_eq hshift, hreads]

/-- Where the two ways to take the shortest decimal differ, the magnitude is tied. -/
theorem tied_of_shortest_ne
    (h : x.shortest .even ≠ x.shortest .up) :
    x.Tied (x.shortest .even) ∧ x.shortest .up = (x.shortest .even).next := by
  have hzero : x ≠ zero := by
    rintro rfl
    exact h ((shortest_zero .even).trans (shortest_zero .up).symm)
  rcases shortest_cases hzero with ⟨n, -, hfirst, hfound⟩ | ⟨-, hexact⟩
  · obtain ⟨hbelow, hnext, hreads, hhalfway⟩ :=
      nearestWith_even_ne_up (hfound .even) (hfound .up) h
    have hread := ofDecimal_shortest x .even
    rw [← hbelow] at hnext
    rw [hnext] at hreads
    refine ⟨⟨fun hdvd => ?_, hreads, hhalfway⟩, hnext⟩
    have hhits := hits_of_dvd hdvd hread hhalfway
    have hexponent : (x.shortest .even).exponent = x.leadingExponent - n := by
      rw [hbelow]
      rfl
    rw [hexponent] at hhits
    cases n with
    | zero =>
        -- two digits are too many for the first grid
        have hdigits := digits_ne_zero_of_ofDecimal hzero hread
        have hpoint := point_le_leadingExponent hdigits hhalfway.lt.1.le
        have hlength : (Nat.toDigits 10 (x.shortest .even).digits).length ≤ 1 := by
          rw [Decimal.point, hexponent] at hpoint
          omega
        have hsmall := (Nat.length_toDigits_le_iff (by decide) Nat.one_pos).mp hlength
        exact hdigits (Nat.eq_zero_of_dvd_of_lt hdvd hsmall)
    | succ m =>
        apply hfirst m (Nat.lt_succ_self m)
        rw [Nat.cast_succ, sub_add_eq_sub_sub, sub_add_cancel] at hhits
        exact hhits
  · rw [hexact, hexact] at h
    exact absurd rfl h

theorem value_exactDecimal (x : Magnitude) :
    x.exactDecimal.value = x.value := by
  have hgeneral : ∀ k : ℕ, ((x.units * 5 ^ k : ℕ) : ℚ) * 10 ^ (-k : ℤ) = x.units / (2 ^ k : ℕ) := by
    intro k
    have hten : (10 : ℚ) ^ k = 2 ^ k * 5 ^ k := by
      rw [← mul_pow]
      norm_num
    rw [zpow_neg, zpow_natCast, hten]
    push_cast
    field_simp
  rw [value_eq_div]
  exact hgeneral 1074

theorem exponent_of_nearestWith
    {tie : Tie} {e : ℤ} {d : Decimal} (h : x.nearestWith tie e = some d) :
    d.exponent = e := by
  rw [nearestWith_eq] at h
  dsimp only at h
  split at h
  · rw [← Option.some.inj h]
    split <;> rfl
  · rw [← Option.some.inj h]
    rfl
  · rw [← Option.some.inj h]
    rfl
  · contradiction

/-- Where the magnitude is tied at the shortest decimal, the other way to take it ends
on the next one. -/
theorem shortest_up_of_tied
    {d : Decimal} (h : x.Tied d) (hvalue : (x.shortest .even).value = d.value) :
    x.shortest .up = d.next := by
  have hread := ofDecimal_shortest x .even
  have hreads : ofDecimal d = some x := by
    rw [← hread]
    exact (Decimal.ofDecimal_eq_of_value_eq hvalue).symm
  have hzero : x ≠ zero := by
    rintro rfl
    rw [shortest_zero, Decimal.value, Decimal.value, Nat.cast_zero, zero_mul, zero_eq_mul,
      or_iff_left (Decimal.step_pos _).ne', Nat.cast_eq_zero] at hvalue
    exact h.ne_zero hvalue
  have hhits : x.Hits d.exponent := by
    refine .inl ?_
    rw [← h.halfway.eq_below]
    exact hreads
  have hpoint := point_le_leadingExponent h.ne_zero h.halfway.lt.1.le
  have hlength := Decimal.length_toDigits_pos d.digits
  rcases shortest_cases hzero with ⟨n, -, hfirst, hfound⟩ | ⟨-, hexact⟩
  · have hexponent := exponent_of_nearestWith (hfound .even)
    rcases lt_trichotomy d.exponent (x.leadingExponent - n) with hlt | heq | hgt
    · rw [← hexponent] at hlt
      exact absurd (Decimal.ten_dvd_of_value_eq hvalue hlt) h.not_dvd
    · have hup := hfound .up
      rw [← heq, nearestWith_up hreads h.reads_next h.halfway] at hup
      exact (Option.some.inj hup).symm
    · -- the search would have ended before
      obtain ⟨m, hm, hlt⟩ : ∃ m : ℕ, d.exponent = x.leadingExponent - m ∧ m < n := by
        rw [Decimal.point] at hpoint
        exact ⟨(x.leadingExponent - d.exponent).toNat, by omega, by omega⟩
      rw [hm] at hhits
      exact absurd hhits (hfirst m hlt)
  · have hlow := h.halfway.lt.1
    rw [← hvalue, hexact, value_exactDecimal] at hlow
    exact absurd hlow (lt_irrefl _)

/-- A tied magnitude has one decimal at which it is tied and which is its shortest
one. -/
theorem shortest_even_of_tied
    {d : Decimal} (h : x.Tied d) (hvalue : (x.shortest .even).value = d.value) :
    x.shortest .even = d := by
  have hup := shortest_up_of_tied h hvalue
  have hne : x.shortest .even ≠ x.shortest .up := by
    intro heq
    have hstep := Decimal.step_pos d.exponent
    rw [heq, hup, d.value_next] at hvalue
    linarith
  have hnext := (tied_of_shortest_ne hne).2
  rw [hup] at hnext
  have hdigits := congrArg Decimal.digits hnext
  have hexponent := congrArg Decimal.exponent hnext
  rcases hshortest : x.shortest .even with ⟨digits, e⟩
  rw [hshortest] at hdigits hexponent
  cases d
  simp only [Decimal.next, Nat.add_right_cancel_iff] at hdigits hexponent
  rw [hdigits, hexponent]

/-! ## No ties between whole numbers -/

theorem le_of_two_pow_mul_eq
    {m n a b : ℕ} (hodd : n % 2 = 1) (h : m * 2 ^ a = n * 2 ^ b) :
    a ≤ b := by
  have hcoprime : Nat.Coprime (2 ^ a) n :=
    Nat.Coprime.pow_left a (Nat.coprime_two_left.mpr (Nat.odd_iff.mpr hodd))
  have hdvd : 2 ^ a ∣ n * 2 ^ b := h ▸ Nat.dvd_mul_left (2 ^ a) m
  exact (Nat.pow_dvd_pow_iff_le_right (by decide)).mp (hcoprime.dvd_of_dvd_mul_left hdvd)

/-- Twice the magnitude is an odd number of steps when it is tied. -/
theorem Halfway.two_mul {d : Decimal} (h : x.Halfway d) :
    2 * x.value = (2 * d.digits + 1 : ℕ) * 10 ^ d.exponent := by
  rw [Halfway, d.value_next, Decimal.value] at h
  rw [h]
  push_cast
  ring

/-- On a grid of whole numbers there is no tie: the step would be too small for two
neighbours to be rounded to the magnitude. -/
theorem Tied.exponent_neg
    {d : Decimal} (h : x.Tied d) (hreads : ofDecimal d = some x) :
    d.exponent < 0 := by
  by_contra hneg
  obtain ⟨k, hk⟩ := Int.eq_ofNat_of_zero_le (Int.not_lt.mp hneg)
  obtain ⟨t, ht⟩ : ∃ t : ℕ, t = 1074 := ⟨1074, rfl⟩
  have hpos : (0 : ℚ) < 2 ^ t := pow_pos two_pos t
  have htwice := h.halfway.two_mul
  have hhalf := abs_sub_value_le_of_ofDecimal hreads
  have hdiff : d.value - x.value = -(10 ^ d.exponent / 2) := by
    have hhalfway := h.halfway
    rw [Halfway, d.value_next] at hhalfway
    linarith
  rw [hdiff, abs_neg, abs_of_pos (half_pos (Decimal.step_pos _)), hk, ← ht, zpow_natCast] at hhalf
  rw [value, hk, ← ht, zpow_natCast] at htwice
  have hstep : 10 ^ k * 2 ^ t ≤ 2 ^ x.exponent := by
    have hcast : (10 : ℚ) ^ k * 2 ^ t ≤ 2 ^ x.exponent := by linarith
    exact_mod_cast hcast
  have hunits : x.mantissa * 2 ^ (x.exponent + 1) =
      (2 * d.digits + 1) * 5 ^ k * 2 ^ (k + t) := by
    have hten : 10 ^ k = 2 ^ k * 5 ^ k := Nat.mul_pow 2 5 k
    rw [← mul_div_assoc, div_eq_iff hpos.ne'] at htwice
    have hcast : 2 * x.units = (2 * d.digits + 1) * 10 ^ k * 2 ^ t := by exact_mod_cast htwice
    rw [units, hten] at hcast
    rw [pow_succ, pow_add, mul_comm _ 2, mul_left_comm, hcast]
    ring
  have hodd : (2 * d.digits + 1) * 5 ^ k % 2 = 1 :=
    Nat.odd_iff.mp ((odd_two_mul_add_one d.digits).mul (Odd.pow (by decide)))
  have hle := le_of_two_pow_mul_eq hodd hunits
  have hsmall : 2 * (10 ^ k * 2 ^ t) ≤ 10 ^ k * 2 ^ t := by
    calc 2 * (10 ^ k * 2 ^ t) ≤ 2 * 2 ^ x.exponent := Nat.mul_le_mul_left 2 hstep
      _ = 2 ^ (x.exponent + 1) := (pow_succ' 2 x.exponent).symm
      _ ≤ 2 ^ (k + t) := Nat.pow_le_pow_right (by decide) hle
      _ = 2 ^ k * 2 ^ t := pow_add 2 k t
      _ ≤ 10 ^ k * 2 ^ t := Nat.mul_le_mul_right _ (Nat.pow_le_pow_left (by decide) k)
  have hpos' : 0 < 10 ^ k * 2 ^ t := Nat.mul_pos (Nat.pow_pos (by decide)) (Nat.two_pow_pos t)
  omega

/-- Where steps are too large for fractions, a magnitude is a whole number. -/
theorem exists_value_eq_natCast (h : (2 : ℚ) ^ 53 ≤ x.value) :
    ∃ i : ℕ, x.value = i := by
  obtain ⟨t, ht⟩ : ∃ t : ℕ, t = 1074 := ⟨1074, rfl⟩
  have hpos : (0 : ℚ) < 2 ^ t := pow_pos two_pos t
  rw [value, ← ht] at h ⊢
  have hunits : 2 ^ 53 * 2 ^ t ≤ x.mantissa * 2 ^ x.exponent := by
    rw [le_div_iff₀ hpos] at h
    exact_mod_cast h
  have hlt : 2 ^ t < 2 ^ x.exponent := by
    by_contra hle
    have hmantissa := x.mantissa_lt
    have hproduct : x.mantissa * 2 ^ x.exponent < 2 ^ 53 * 2 ^ t :=
      Nat.mul_lt_mul_of_lt_of_le hmantissa (Nat.not_lt.mp hle) (Nat.two_pow_pos t)
    omega
  obtain ⟨j, hj⟩ := Nat.exists_eq_add_of_lt ((Nat.pow_lt_pow_iff_right (by decide)).mp hlt)
  refine ⟨x.mantissa * 2 ^ (j + 1), ?_⟩
  rw [units, hj, Nat.add_assoc, pow_add, div_eq_iff hpos.ne']
  push_cast
  ring

/-- The first digit of a tied magnitude stands for less than `10 ^ 16`. -/
theorem Tied.point_le {d : Decimal} (h : x.Tied d) (hreads : ofDecimal d = some x) :
    d.point ≤ 16 := by
  by_contra hlarge
  have hneg := h.exponent_neg hreads
  obtain ⟨k, hk⟩ : ∃ k : ℕ, d.exponent = -(k + 1 : ℕ) := ⟨(-d.exponent - 1).toNat, by omega⟩
  have hvalue : (2 : ℚ) ^ 53 ≤ x.value := by
    calc (2 : ℚ) ^ 53 ≤ 10 ^ (16 : ℤ) := by norm_num
      _ ≤ 10 ^ (d.point - 1) := zpow_le_zpow_right₀ (by norm_num) (by omega)
      _ ≤ d.value := Decimal.le_value h.ne_zero
      _ ≤ x.value := h.halfway.lt.1.le
  obtain ⟨i, hi⟩ := exists_value_eq_natCast hvalue
  -- a whole number of steps is even when it is doubled
  have htwice := h.halfway.two_mul
  have hpos : (0 : ℚ) < 10 ^ (k + 1) := pow_pos (by norm_num) _
  rw [hi, hk, zpow_neg, zpow_natCast, ← div_eq_mul_inv, eq_div_iff hpos.ne'] at htwice
  have hparity : 2 * i * 10 ^ (k + 1) = 2 * d.digits + 1 := by exact_mod_cast htwice
  rw [Nat.mul_assoc] at hparity
  omega

end Magnitude
end QueryFormula
