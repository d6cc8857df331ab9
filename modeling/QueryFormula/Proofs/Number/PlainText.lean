import QueryFormula.Proofs.Number.Value

/-!
# The plain text of numbers

A number in full is digits, and a fraction when there is one.  Read as a decimal,
the text has the value that it was written for: the zeros that are filled in and
those that are left away only move between digits and exponent.
-/

namespace QueryFormula

/-- Digits before the point, only digits on both sides of it, and no exponent. -/
structure NumberText.Plain (n : NumberText) : Prop where
  whole_ne_nil : n.whole ≠ []
  whole_digits : ∀ c ∈ n.whole, c.isDigit = true
  fraction_digits : ∀ ds ∈ n.fraction, ∀ c ∈ ds, c.isDigit = true
  exponent_none : n.exponent = none

theorem NumberText.Plain.wellFormed
    {n : NumberText} (h : n.Plain) :
    n.WellFormed where
  whole_digits := h.whole_digits
  fraction_digits := h.fraction_digits
  has_digit := .inl h.whole_ne_nil
  exponent_letter := by
    rw [h.exponent_none]
    exact fun e he => absurd he (Option.not_mem_none e)
  exponent_sign := by
    rw [h.exponent_none]
    exact fun e he => absurd he (Option.not_mem_none e)
  exponent_digits := by
    rw [h.exponent_none]
    exact fun e he => absurd he (Option.not_mem_none e)

theorem NumberText.Plain.text_eq
    {n : NumberText} (h : n.Plain) :
    n.text = n.whole ++ fractionText n.fraction := by
  rw [NumberText.text, h.exponent_none]
  exact List.append_nil _

namespace Decimal

/-- The digits of a decimal are the significant ones with zeros after them. -/
theorem exists_toDigits_eq (d : Decimal) :
    ∃ zeros, Nat.toDigits 10 d.digits = d.significant ++ List.replicate zeros '0' := by
  have hzeros :
      ∀ c ∈ (Nat.toDigits 10 d.digits).reverse.takeWhile (· == '0'), c = '0' := by
    intro c hc
    exact beq_iff_eq.mp (List.all_eq_true.mp List.all_takeWhile c hc)
  refine ⟨((Nat.toDigits 10 d.digits).reverse.takeWhile (· == '0')).length, ?_⟩
  rw [significant, ← List.reverse_replicate, ← List.eq_replicate_of_mem hzeros,
    ← List.reverse_append, List.takeWhile_append_dropWhile, List.reverse_reverse]

/-- The digits without zeros at the end, times a power of ten. -/
theorem exists_digits_eq (d : Decimal) :
    ∃ zeros : Nat,
      d.digits = Nat.ofDigitChars 10 d.significant 0 * 10 ^ zeros ∧
        d.point = d.significant.length + (zeros + d.exponent) := by
  obtain ⟨zeros, hdigits⟩ := d.exists_toDigits_eq
  refine ⟨zeros, ?_, ?_⟩
  · have hvalue := congrArg (Nat.ofDigitChars 10 · 0) hdigits
    rw [Nat.ofDigitChars_ten_toDigits, Nat.ofDigitChars_append,
      Nat.ofDigitChars_replicate_zero, Nat.mul_comm] at hvalue
    exact hvalue
  · rw [point, hdigits, List.length_append, List.length_replicate]
    omega

/-- The decimal in full as a number that has been read. -/
def written (d : Decimal) : NumberText where
  whole := d.wholePart
  fraction := if d.fraction.isEmpty then none else some d.fraction
  exponent := none

theorem isDigit_of_mem_significant
    {d : Decimal} {c : Char} (hc : c ∈ d.significant) :
    c.isDigit = true := by
  obtain ⟨zeros, hdigits⟩ := d.exists_toDigits_eq
  have hmem : c ∈ Nat.toDigits 10 d.digits := by
    rw [hdigits]
    exact List.mem_append_left _ hc
  exact Nat.isDigit_of_mem_toDigits (by decide) (by decide) hmem

theorem isDigit_of_mem_replicate
    {n : Nat} {c : Char} (hc : c ∈ List.replicate n '0') :
    c.isDigit = true := by
  rw [List.eq_of_mem_replicate hc]
  decide

theorem isDigit_of_mem_wholePart
    {d : Decimal} {c : Char} (hc : c ∈ d.wholePart) :
    c.isDigit = true := by
  rw [wholePart] at hc
  split at hc
  · rw [List.mem_singleton.mp hc]
    decide
  · rcases List.mem_append.mp hc with hc | hc
    · exact isDigit_of_mem_significant (List.mem_of_mem_take hc)
    · exact isDigit_of_mem_replicate hc

theorem isDigit_of_mem_fraction
    {d : Decimal} {c : Char} (hc : c ∈ d.fraction) :
    c.isDigit = true := by
  rcases List.mem_append.mp hc with hc | hc
  · exact isDigit_of_mem_replicate hc
  · exact isDigit_of_mem_significant (List.mem_of_mem_drop hc)

theorem wholePart_ne_nil (d : Decimal) :
    d.wholePart ≠ [] := by
  rw [wholePart]
  split
  · exact List.cons_ne_nil _ _
  · intro h
    have hlength := congrArg List.length h
    simp only [List.length_append, List.length_take, List.length_replicate,
      List.length_nil] at hlength
    omega

theorem mem_fraction_written
    {d : Decimal} {ds : List Char} :
    ds ∈ d.written.fraction ↔ d.fraction ≠ [] ∧ d.fraction = ds := by
  rw [written]
  by_cases h : d.fraction = []
  · simp [h]
  · simp [h]

theorem plain_written (d : Decimal) :
    d.written.Plain where
  whole_ne_nil := d.wholePart_ne_nil
  whole_digits := fun c hc => isDigit_of_mem_wholePart hc
  fraction_digits := by
    intro ds hds c hc
    obtain ⟨-, rfl⟩ := mem_fraction_written.mp hds
    exact isDigit_of_mem_fraction hc
  exponent_none := rfl

theorem text_written (d : Decimal) :
    d.written.text = d.plainText := by
  rw [d.plain_written.text_eq, plainText, written]
  by_cases h : d.fraction.isEmpty = true
  · rw [if_pos h, if_pos h, NumberText.fractionText, List.append_nil]
  · rw [if_neg h, if_neg h, NumberText.fractionText]

theorem decimal_written (d : Decimal) :
    d.written.decimal =
      ⟨Nat.ofDigitChars 10 (d.wholePart ++ d.fraction) 0, -d.fraction.length⟩ := by
  have hfraction : d.written.fraction.getD [] = d.fraction := by
    rw [written]
    by_cases h : d.fraction.isEmpty = true
    · rw [if_pos h, Option.getD_none, List.isEmpty_iff.mp h]
    · rw [if_neg h, Option.getD_some]
  rw [NumberText.decimal, hfraction]
  simp [written]

theorem wholePart_of_pos
    {d : Decimal} (h : ¬ d.point ≤ 0) :
    d.wholePart =
      d.significant.take d.point.toNat ++
        List.replicate (d.point.toNat - d.significant.length) '0' := by
  rw [wholePart, if_neg h]

/-- The digits around the point are the significant ones, with the zeros that the
point needs after them and none that count before them. -/
theorem exists_ofDigitChars_eq (d : Decimal) :
    ∃ filled : Nat,
      Nat.ofDigitChars 10 (d.wholePart ++ d.fraction) 0 =
          Nat.ofDigitChars 10 d.significant 0 * 10 ^ filled ∧
        d.significant.length + (filled - (d.fraction.length : Int)) = d.point := by
  rw [fraction]
  by_cases hsmall : d.point ≤ 0
  · -- zeros stand before the significant digits
    have hdrop : d.point.toNat = 0 := by omega
    refine ⟨0, ?_, ?_⟩
    · rw [wholePart, if_pos hsmall, hdrop, List.drop_zero, ← List.append_assoc,
        List.singleton_append, ← List.replicate_succ, Nat.ofDigitChars_append, Nat.ofDigitChars_replicate_zero,
        Nat.mul_zero, Nat.pow_zero, Nat.mul_one]
    · rw [hdrop, List.drop_zero, List.length_append, List.length_replicate]
      omega
  · have hbefore : (-d.point).toNat = 0 := by omega
    rw [wholePart_of_pos hsmall, hbefore, List.replicate_zero, List.nil_append]
    by_cases hlong : d.significant.length ≤ d.point.toNat
    · -- zeros stand after them
      refine ⟨d.point.toNat - d.significant.length, ?_, ?_⟩
      · rw [List.take_of_length_le hlong, List.drop_of_length_le hlong, List.append_nil,
          Nat.ofDigitChars_append, Nat.ofDigitChars_replicate_zero, Nat.mul_comm]
      · rw [List.drop_of_length_le hlong, List.length_nil]
        omega
    · -- the point stands within them
      have hnone : d.point.toNat - d.significant.length = 0 := by omega
      refine ⟨0, ?_, ?_⟩
      · simp only [hnone, List.replicate_zero, List.append_nil, List.take_append_drop,
          Nat.pow_zero, Nat.mul_one]
      · rw [List.length_drop]
        omega

/-- In full, a decimal has the value that it has. -/
theorem value_written (d : Decimal) :
    d.written.value = d.value := by
  obtain ⟨zeros, hdigits, hpoint⟩ := d.exists_digits_eq
  obtain ⟨filled, hwritten, hplace⟩ := d.exists_ofDigitChars_eq
  have hd : d = ⟨Nat.ofDigitChars 10 d.significant 0 * 10 ^ zeros, d.exponent⟩ := by
    rw [← hdigits]
  have hvalue := congrArg value hd
  rw [← NumberText.value_decimal, decimal_written, hwritten, hvalue]
  apply value_eq_of_shift
  omega

/-! ## Reading numbers back -/

/-- A decimal in full is read as what it rounds to, or as a natural number that
rounds to the same. -/
theorem kind_written
    {d : Decimal} {x : Magnitude} (hd : Magnitude.ofDecimal d = some x) :
    d.written.kind = .float (some x) ∨
      ∃ v < 2 ^ 63, d.written.kind = .integer v ∧ Magnitude.ofDecimal ⟨v, 0⟩ = some x := by
  have hwritten : Magnitude.ofDecimal d.written.decimal = some x := by
    rw [← hd]
    exact ofDecimal_eq_of_value_eq (d.written.value_decimal.trans d.value_written)
  rw [NumberText.kind]
  split
  · rename_i hinteger
    obtain ⟨hfraction, -, hlt⟩ := hinteger
    refine .inr ⟨_, hlt, rfl, ?_⟩
    rw [← hwritten, NumberText.decimal, Option.isNone_iff_eq_none.mp hfraction]
    simp [written]
  · exact .inl (by rw [hwritten])

end Decimal

namespace Number

/-- The magnitude of a number as a formula has it, as a number that has been
read. -/
def written : Number → NumberText
  | .int n => ⟨Nat.toDigits 10 n.value.natAbs, none, none⟩
  | .float x =>
    let d := x.magnitude.shortest .even
    if Double.positional d then d.written else (x.magnitude.shortest .up).written

/-- The token stands for the magnitude of the number: for an integer it holds
exactly that, if 64 bits are enough, and for a binary64 number what rounds to
it. -/
def HasKind : Number → TokenKind → Prop
  | .int n, kind =>
    kind = if n.value.natAbs < 2 ^ 63 then .integer n.value.natAbs
      else .float (Magnitude.ofDecimal ⟨n.value.natAbs, 0⟩)
  | .float x, kind =>
    kind = .float (some x.magnitude) ∨
      ∃ v < 2 ^ 63, kind = .integer v ∧ Magnitude.ofDecimal ⟨v, 0⟩ = some x.magnitude

theorem exists_written_float (x : Double) :
    ∃ tie, written (.float x) = (x.magnitude.shortest tie).written ∧
      plainMagnitude (.float x) = (x.magnitude.shortest tie).plainText := by
  rw [plainMagnitude, Double.plainMagnitude, written]
  by_cases h : Double.positional (x.magnitude.shortest .even) = true
  · exact ⟨.even, if_pos h, if_pos h⟩
  · exact ⟨.up, if_neg h, if_neg h⟩

theorem plain_written (n : Number) :
    n.written.Plain := by
  cases n with
  | int n =>
      refine ⟨Nat.toDigits_ne_nil, ?_, fun ds hds => absurd hds (Option.not_mem_none ds), rfl⟩
      intro c hc
      exact Nat.isDigit_of_mem_toDigits (by decide) (by decide) hc
  | float x =>
      obtain ⟨tie, hwritten, -⟩ := exists_written_float x
      rw [hwritten]
      exact Decimal.plain_written _

theorem text_written (n : Number) :
    n.written.text = n.plainMagnitude := by
  cases n with
  | int n =>
      rw [(plain_written (.int n)).text_eq]
      exact List.append_nil _
  | float x =>
      obtain ⟨tie, hwritten, hplain⟩ := exists_written_float x
      rw [hwritten, hplain, Decimal.text_written]

/-- The digits of a number are read as the number. -/
theorem hasKind_written (n : Number) :
    n.HasKind n.written.kind := by
  cases n with
  | int n =>
      rw [HasKind, written, NumberText.kind]
      simp [NumberText.decimal]
  | float x =>
      obtain ⟨tie, hwritten, -⟩ := exists_written_float x
      rw [HasKind, hwritten]
      exact Decimal.kind_written (Magnitude.ofDecimal_shortest _ tie)

end Number
end QueryFormula
