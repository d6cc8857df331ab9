import QueryFormula.Proofs.Json.Numeral
import QueryFormula.Proofs.Number.Shortest
import QueryFormula.Proofs.Token.Longest

/-!
# The exact value of a number

The text of a number in a document stands for a rational number, and so does its text
in a formula.  They are the same one unless the document has an exponent and the number
is tied: then the formula has the next decimal.
-/

namespace QueryFormula

/-! ## Texts without needless zeros -/

namespace NumberText

variable {n : NumberText}

theorem Standard.wellFormed (h : n.Standard) :
    n.WellFormed where
  whole_digits := h.whole_digits
  fraction_digits := h.fraction_digits
  has_digit := .inl h.whole_ne_nil
  exponent_letter := fun e he => .inl (h.exponent e he).letter
  exponent_sign := by
    intro e he c hc
    obtain ⟨sign, hsign, hcase⟩ := (h.exponent e he).sign
    rw [hsign] at hc
    rw [← Option.mem_some.mp hc]
    exact hcase.symm
  exponent_digits := fun e he => ⟨(h.exponent e he).digits_ne_nil, (h.exponent e he).digits⟩

/-- The letter of an exponent comes nowhere else. -/
theorem Standard.mem_text_iff (h : n.Standard) :
    'e' ∈ n.text ↔ n.exponent.isSome = true := by
  have hwhole : 'e' ∉ n.whole := fun he => absurd (h.whole_digits 'e' he) (by decide)
  have hfraction : 'e' ∉ fractionText n.fraction := by
    intro he
    cases hds : n.fraction with
    | none =>
        rw [hds] at he
        exact absurd he List.not_mem_nil
    | some ds =>
        rw [hds] at he
        rcases List.mem_cons.mp he with hpoint | hmem
        · contradiction
        · exact absurd (h.fraction_digits ds hds 'e' hmem) (by decide)
  rw [text, List.mem_append, List.mem_append, or_iff_right (not_or.mpr ⟨hwhole, hfraction⟩)]
  cases hexponent : n.exponent with
  | none => simp [ExponentText.textOf]
  | some e => simp [ExponentText.textOf, ExponentText.text, (h.exponent e hexponent).letter]

/-- Digits, and perhaps a point with further digits, and no zero that could be left
out. -/
structure Canonical (n : NumberText) : Prop where
  plain : n.Plain
  whole_length : n.whole.head? = some '0' → n.whole.length ≤ 1
  fraction_ne_nil : ∀ ds ∈ n.fraction, ds ≠ []
  fraction_getLast? : ∀ ds ∈ n.fraction, ds.getLast? ≠ some '0'

theorem exists_digit
    {c : Char} (h : c.isDigit = true) (hzero : c ≠ '0') :
    ∃ digit, c.toNat - '0'.toNat = digit ∧ 0 < digit ∧ digit < 10 := by
  obtain ⟨hlower, hupper⟩ := Char.isDigit_iff_toNat.mp h
  have hne : c.toNat ≠ '0'.toNat := fun heq => hzero (Char.toNat_inj.mp heq)
  have hten : '9'.toNat = '0'.toNat + 9 := rfl
  exact ⟨_, rfl, by omega, by omega⟩

/-- A fraction with another last digit than zero keeps the number from being whole. -/
theorem Canonical.fraction_eq_none
    (h : n.Canonical) {v : ℕ} (hv : n.value = v) :
    n.fraction = none := by
  rw [Option.eq_none_iff_forall_not_mem]
  intro ds hds
  obtain ⟨init, c, rfl⟩ : ∃ init c, ds = init ++ [c] :=
    ⟨_, _, (List.dropLast_concat_getLast (h.fraction_ne_nil ds hds)).symm⟩
  have hzero : c ≠ '0' := by
    rintro rfl
    exact h.fraction_getLast? _ hds List.getLast?_concat
  have hdigit := h.plain.fraction_digits _ hds c (by simp)
  obtain ⟨digit, hc, hpos, hlt⟩ := exists_digit hdigit hzero
  have hstep : (10 : ℚ) ^ (init.length + 1) ≠ 0 := pow_ne_zero _ (by norm_num)
  rw [value, Option.mem_def.mp hds, h.plain.exponent_none] at hv
  simp only [Option.getD_some, Option.map_none, Option.getD_none, zpow_zero, mul_one,
    List.length_append, List.length_singleton, Nat.ofDigitChars_append, Nat.ofDigitChars_cons,
    Nat.ofDigitChars_nil, hc] at hv
  rw [← mul_left_inj' hstep, add_mul, div_mul_cancel₀ _ hstep] at hv
  have hcast : Nat.ofDigitChars 10 n.whole 0 * 10 ^ (init.length + 1) +
      (10 * Nat.ofDigitChars 10 init 0 + digit) = v * 10 ^ (init.length + 1) := by
    exact_mod_cast hv
  rw [pow_succ, ← mul_assoc, ← mul_assoc] at hcast
  omega

theorem Canonical.kind_eq_integer_iff
    (h : n.Canonical) (v : ℕ) :
    n.kind = .integer v ↔ n.value = v ∧ v ≤ 2 ^ 63 - 1 := by
  have hwell := h.plain.wellFormed
  rw [hwell.isNumberKind.integer_iff, hwell.digits_only_iff]
  constructor
  · rintro ⟨-, hdenotes, hle⟩
    exact ⟨hwell.denotes.unique hdenotes, hle⟩
  · rintro ⟨hvalue, hle⟩
    refine ⟨⟨h.fraction_eq_none hvalue, h.plain.exponent_none⟩, ?_, hle⟩
    rw [← hvalue]
    exact hwell.denotes

end NumberText

namespace Decimal

theorem getLast?_significant_ne (d : Decimal) :
    d.significant.getLast? ≠ some '0' := by
  rw [significant, List.getLast?_reverse]
  intro hlast
  have hhead := List.head?_dropWhile_not (· == '0') (Nat.toDigits 10 d.digits).reverse
  rw [hlast] at hhead
  contradiction

theorem getLast?_fraction_ne
    {d : Decimal} (h : d.digits ≠ 0 ∨ d.point = 1) (hne : d.fraction ≠ []) :
    d.fraction.getLast? ≠ some '0' := by
  by_cases hrest : d.significant.drop d.point.toNat = []
  · -- zeros behind the point have further digits behind them
    have hsmall : d.point < 0 := by
      rw [fraction, hrest, List.append_nil, Ne, List.replicate_eq_nil_iff] at hne
      omega
    have hdrop : d.point.toNat = 0 := by omega
    rcases h with hdigits | hone
    · obtain ⟨c, cs, hsignificant, -⟩ := exists_significant_eq_cons hdigits
      rw [hdrop, hsignificant] at hrest
      contradiction
    · omega
  · have hlength : ¬ d.significant.length ≤ d.point.toNat :=
      fun hle => hrest (List.drop_of_length_le hle)
    rw [fraction, List.getLast?_append_of_ne_nil _ hrest, List.getLast?_drop, if_neg hlength]
    exact d.getLast?_significant_ne

theorem canonical_written
    {d : Decimal} (h : d.digits ≠ 0 ∨ d.point = 1) :
    d.written.Canonical where
  plain := d.plain_written
  whole_length := length_wholePart_le h
  fraction_ne_nil := by
    intro ds hds
    obtain ⟨hne, rfl⟩ := mem_fraction_written.mp hds
    exact hne
  fraction_getLast? := by
    intro ds hds
    obtain ⟨hne, rfl⟩ := mem_fraction_written.mp hds
    exact getLast?_fraction_ne h hne

end Decimal

/-! ## The two texts of a number -/

namespace Magnitude

/-- Zero is written as zero. -/
theorem value_shortest_eq_zero_iff (x : Magnitude) (tie : Tie) :
    (x.shortest tie).value = 0 ↔ x = zero := by
  constructor
  · intro hvalue
    by_contra hne
    have hdigits := digits_ne_zero_of_ofDecimal hne (x.ofDecimal_shortest tie)
    rw [Decimal.value, mul_eq_zero, or_iff_left (Decimal.step_pos _).ne', Nat.cast_eq_zero]
      at hvalue
    exact hdigits hvalue
  · rintro rfl
    rw [shortest_zero, Decimal.value, Nat.cast_zero, zero_mul]

end Magnitude

namespace Number

variable {n : Number}

/-- The rational number that the text of the number in a document stands for. -/
def value (n : Number) : ℚ :=
  if n.signed then -n.documentText.value else n.documentText.value

theorem denotes_jsonText (n : Number) :
    Denotes n.jsonText n.value :=
  ⟨n.signed, n.documentText, n.standard_documentText.wellFormed, n.jsonText_eq, rfl⟩

theorem abs_value (n : Number) :
    |n.value| = n.documentText.value := by
  rw [value]
  split
  · rw [abs_neg, abs_of_nonneg n.documentText.value_nonneg]
  · exact abs_of_nonneg n.documentText.value_nonneg

theorem value_documentText_int (k : Integer) :
    (documentText (.int k)).value = k.value.natAbs := by
  rw [documentText, NumberText.value]
  simp

/-- A number that is less than zero has a minus sign and another digit than zero. -/
theorem negative_iff (n : Number) :
    n.negative = true ↔ n.signed = true ∧ n.documentText.value ≠ 0 := by
  cases n with
  | int k =>
      rw [negative, signed, value_documentText_int, decide_eq_true_eq]
      simp only [ne_eq, Nat.cast_eq_zero, Int.natAbs_eq_zero]
      omega
  | float x =>
      rw [negative, signed, documentText, Magnitude.value_documentText, ne_eq,
        Magnitude.value_shortest_eq_zero_iff]
      simp

theorem value_neg_iff (n : Number) :
    n.value < 0 ↔ n.negative = true := by
  have hnonneg := n.documentText.value_nonneg
  rw [negative_iff, value]
  split
  · next hsigned =>
    rw [neg_lt_zero, hnonneg.lt_iff_ne']
    simp [hsigned]
  · next hsigned =>
    simp [hsigned, hnonneg]

/-- The minus sign of a zero does not count. -/
theorem value_eq (n : Number) :
    n.value = if n.negative then -n.documentText.value else n.documentText.value := by
  have hnegative := n.negative_iff
  rw [value]
  by_cases hsigned : n.signed = true
  · by_cases hzero : n.documentText.value = 0
    · simp [hzero]
    · rw [if_pos hsigned, if_pos (hnegative.mpr ⟨hsigned, hzero⟩)]
  · rw [if_neg hsigned, if_neg fun h => hsigned (hnegative.mp h).1]

/-- The rational number that the text of the number in a formula stands for. -/
def plainValue (n : Number) : ℚ :=
  if n.negative then -n.written.value else n.written.value

theorem plainText_eq (n : Number) :
    n.plainText = (if n.negative then ['-'] else []) ++ n.written.text := by
  rw [plainText, text_written]
  split <;> rfl

theorem denotes_plainText (n : Number) :
    Denotes n.plainText n.plainValue :=
  ⟨n.negative, n.written, n.plain_written.wellFormed, n.plainText_eq, rfl⟩

theorem canonical_written (n : Number) :
    n.written.Canonical := by
  cases n with
  | int k =>
      refine ⟨plain_written (.int k), fun hhead => ?_, ?_, ?_⟩
      · exact (standard_documentText (.int k)).whole_length hhead
      · exact fun ds hds => absurd hds (Option.not_mem_none ds)
      · exact fun ds hds => absurd hds (Option.not_mem_none ds)
  | float x =>
      obtain ⟨tie, hwritten, -⟩ := exists_written_float x
      rw [hwritten]
      exact Decimal.canonical_written (x.magnitude.digits_ne_zero_or_point_eq_one tie)

/-- Both texts are rounded to the same. -/
theorem ofDecimal_written (n : Number) :
    Magnitude.ofDecimal n.written.decimal = Magnitude.ofDecimal n.documentText.decimal := by
  cases n with
  | int k =>
      rfl
  | float x =>
      obtain ⟨tie, hwritten, -⟩ := exists_written_float x
      have hvalue := (x.magnitude.shortest tie).written.value_decimal.trans
        (Decimal.value_written (x.magnitude.shortest tie))
      rw [hwritten, documentText, Magnitude.ofDecimal_documentText,
        Decimal.ofDecimal_eq_of_value_eq hvalue, Magnitude.ofDecimal_shortest]

/-! ## Ties -/

/-- The number is written with an exponent in a document, with the digits of the
decimal, and it is tied there. -/
def Tied (n : Number) (q : ℚ) (d : Decimal) : Prop :=
  ∃ x, n = .float x ∧ 'e' ∈ n.jsonText ∧ |q| = d.value ∧ x.magnitude.Tied d

theorem mem_jsonText_iff (x : Double) :
    'e' ∈ (Number.float x).jsonText ↔
      Double.positional (x.magnitude.shortest .even) = false := by
  have hsign : 'e' ∉ (if signed (.float x) then ['-'] else []) := by
    split <;> decide
  rw [jsonText_eq, List.mem_append, or_iff_right hsign,
    (standard_documentText (.float x)).mem_text_iff, documentText, Magnitude.documentText]
  split
  · next hpositional => simp [hpositional, Decimal.pointed]
  · next hpositional => simp [hpositional, Decimal.scientific]

/-- Unless the number is tied, its two texts have the same value. -/
theorem value_written_of_not_tied
    (h : ∀ d, ¬ n.Tied n.value d) :
    n.written.value = n.documentText.value := by
  cases n with
  | int k =>
      rfl
  | float x =>
      rw [documentText, Magnitude.value_documentText, written]
      by_cases hpositional : Double.positional (x.magnitude.shortest .even) = true
      · rw [if_pos hpositional, Decimal.value_written]
      · rw [if_neg hpositional, Decimal.value_written]
        by_contra hne
        have htied := Magnitude.tied_of_shortest_ne fun heq => hne (congrArg _ heq.symm)
        refine h (x.magnitude.shortest .even) ⟨x, rfl, ?_, ?_, htied.1⟩
        · rw [mem_jsonText_iff]
          exact Bool.eq_false_iff.mpr hpositional
        · rw [abs_value, documentText, Magnitude.value_documentText]

/-- Where the number is tied, its text in a formula has the next decimal, and both are
less than one. -/
theorem value_written_of_tied
    {d : Decimal} (h : n.Tied n.value d) :
    n.documentText.value = d.value ∧ n.written.value = d.next.value ∧
      0 < d.value ∧ d.next.value < 1 := by
  obtain ⟨x, rfl, hexponent, hvalue, htied⟩ := h
  rw [abs_value] at hvalue
  refine ⟨hvalue, ?_⟩
  rw [documentText, Magnitude.value_documentText] at hvalue
  rw [mem_jsonText_iff] at hexponent
  have hup := Magnitude.shortest_up_of_tied htied hvalue
  have heven := Magnitude.shortest_even_of_tied htied hvalue
  have hreads := Magnitude.ofDecimal_shortest x.magnitude .even
  rw [heven] at hexponent hreads
  have hpoint : d.point < 0 := by
    have hle := htied.point_le hreads
    rw [Double.positional] at hexponent
    simp only [Bool.and_eq_false_iff, decide_eq_false_iff_not] at hexponent
    omega
  refine ⟨?_, ?_, ?_⟩
  · rw [written, heven, hexponent, hup]
    exact Decimal.value_written d.next
  · exact mul_pos (Nat.cast_pos.mpr (Nat.pos_of_ne_zero htied.ne_zero)) (Decimal.step_pos _)
  · calc d.next.value ≤ 10 ^ d.point := d.value_next_le
      _ < 10 ^ (0 : ℤ) := zpow_lt_zpow_right₀ (by norm_num) hpoint
      _ = 1 := zpow_zero 10

end Number

end QueryFormula
