import QueryFormula.Json.Found
import QueryFormula.Proofs.Number.PlainText
import QueryFormula.Proofs.Text.Classes

/-!
# Numbers read back

A number of a document is read as the number that it was written for.  Its text is
taken as digits, a fraction and an exponent: such a text is read as far as it
reaches when what follows can close a value, and it has the value of the decimal
that it spells.  An integer is written without a point and without an exponent, a
binary64 number always with one of the two, so neither is taken for the other.
-/

namespace QueryFormula

open QueryFormula.Json

/-- What may stand behind a value of a document: nothing, a comma or a closing
bracket. -/
def Json.Closes (rest : List Char) : Prop :=
  ∀ c ∈ rest.head?, c ∈ [',', ']', '\x7d']

theorem Json.Closes.forall_head?
    {rest : List Char} (h : Closes rest) {p : Char → Prop}
    (hp : p ',' ∧ p ']' ∧ p '\x7d') :
    ∀ c ∈ rest.head?, p c := by
  intro c hc
  have hclose := h c hc
  simp only [List.mem_cons, List.not_mem_nil, or_false] at hclose
  rcases hclose with rfl | rfl | rfl
  · exact hp.1
  · exact hp.2.1
  · exact hp.2.2

/-! ## Numerals -/

/-- An exponent as documents have it. -/
structure ExponentText.Standard (e : ExponentText) : Prop where
  letter : e.letter = 'e'
  sign : ∃ c, e.sign = some c ∧ (c = '-' ∨ c = '+')
  digits_ne_nil : e.digits ≠ []
  digits : ∀ c ∈ e.digits, c.isDigit = true

/-- A number as documents have it: no further digit behind a zero at the front, and
at least one digit in every place. -/
structure NumberText.Standard (n : NumberText) : Prop where
  whole_ne_nil : n.whole ≠ []
  whole_digits : ∀ c ∈ n.whole, c.isDigit = true
  whole_length : n.whole.head? = some '0' → n.whole.length ≤ 1
  fraction_ne_nil : ∀ ds ∈ n.fraction, ds ≠ []
  fraction_digits : ∀ ds ∈ n.fraction, ∀ c ∈ ds, c.isDigit = true
  exponent : ∀ e ∈ n.exponent, e.Standard

theorem NumberText.Standard.exists_text_eq_cons
    {n : NumberText} (h : n.Standard) :
    ∃ c cs, n.text = c :: cs ∧ c.isDigit = true := by
  obtain ⟨c, cs, hwhole⟩ := List.exists_cons_of_ne_nil h.whole_ne_nil
  have hc : c.isDigit = true := h.whole_digits c (hwhole ▸ List.mem_cons_self)
  rw [NumberText.text, hwhole, List.cons_append, List.cons_append]
  exact ⟨c, _, rfl, hc⟩

/-- The numeral of a number that is written with a sign or without. -/
def NumberText.numeral (n : NumberText) (negative : Bool) : Numeral where
  negative := negative
  whole := n.whole
  fraction := n.fraction.getD []
  exponent := (n.exponent.map ExponentText.value).getD 0
  integral := n.fraction.isNone && n.exponent.isNone

theorem NumberText.decimal_numeral
    (n : NumberText) (negative : Bool) :
    (n.numeral negative).decimal = n.decimal :=
  rfl

namespace Json

variable {atEnd : Fault}

theorem readDigits_append
    {digits rest : List Char} (hne : digits ≠ [])
    (hdigits : ∀ c ∈ digits, c.isDigit = true)
    (hrest : ∀ c ∈ rest.head?, c.isDigit = false) :
    readDigits atEnd (digits ++ rest) = .ok (digits, rest) := by
  obtain ⟨c, cs, rfl⟩ := List.exists_cons_of_ne_nil hne
  obtain ⟨htake, hdrop⟩ := Text.takeWhile_append_of_head? hdigits hrest
  have hc : c.isDigit = true := hdigits c List.mem_cons_self
  rw [List.cons_append] at htake hdrop ⊢
  rw [readDigits, if_pos hc, htake, hdrop]

theorem readWhole_append
    {digits rest : List Char} (hne : digits ≠ [])
    (hdigits : ∀ c ∈ digits, c.isDigit = true)
    (hlength : digits.head? = some '0' → digits.length ≤ 1)
    (hrest : ∀ c ∈ rest.head?, c.isDigit = false) :
    readWhole atEnd (digits ++ rest) = .ok (digits, rest) := by
  have hzero : ¬ (digits.head? = some '0' ∧ 1 < digits.length) := by
    rintro ⟨hhead, hlt⟩
    have := hlength hhead
    omega
  rw [readWhole, readDigits_append hne hdigits hrest]
  simp only [bind, Except.bind, if_neg hzero]
  rfl

theorem readFraction_append
    {fraction : Option (List Char)} {rest : List Char}
    (hne : ∀ ds ∈ fraction, ds ≠ [])
    (hdigits : ∀ ds ∈ fraction, ∀ c ∈ ds, c.isDigit = true)
    (hrest : ∀ c ∈ rest.head?, c.isDigit = false ∧ c ≠ '.') :
    readFraction atEnd (NumberText.fractionText fraction ++ rest) =
      .ok (fraction.getD [], rest) := by
  cases fraction with
  | none =>
      rw [NumberText.fractionText, List.nil_append, readFraction]
      · rfl
      · rintro s rfl
        exact (hrest '.' rfl).2 rfl
  | some ds =>
      rw [NumberText.fractionText, List.cons_append, readFraction]
      exact readDigits_append (hne ds rfl) (hdigits ds rfl) fun c hc => (hrest c hc).1

theorem readSign_cons
    {c : Char} (h : c = '-' ∨ c = '+') (s : List Char) :
    readSign (c :: s) = (decide (c = '-'), s) := by
  rcases h with rfl | rfl
  · rfl
  · rfl

theorem readExponent_text
    {e : ExponentText} (h : e.Standard) {rest : List Char}
    (hrest : ∀ c ∈ rest.head?, c.isDigit = false) :
    readExponent atEnd (e.text ++ rest) = .ok (some e.value, rest) := by
  obtain ⟨letter, sign, digits⟩ := e
  obtain ⟨rfl, ⟨c, rfl, hsign⟩, hne, hdigits⟩ := h
  have hread : readDigits atEnd (digits ++ rest) = .ok (digits, rest) :=
    readDigits_append hne hdigits hrest
  have htext :
      ExponentText.text ⟨'e', some c, digits⟩ ++ rest = 'e' :: c :: (digits ++ rest) := rfl
  rw [htext, readExponent, if_pos (.inl rfl), readSign_cons hsign]
  simp only [hread, bind, Except.bind, decide_eq_true_eq, ExponentText.value,
    Option.some.injEq]
  rfl

theorem readExponent_append
    {exponent : Option ExponentText} (h : ∀ e ∈ exponent, e.Standard) {rest : List Char}
    (hrest : ∀ c ∈ rest.head?, c.isDigit = false ∧ c ≠ 'e' ∧ c ≠ 'E') :
    readExponent atEnd (ExponentText.textOf exponent ++ rest) =
      .ok (exponent.map ExponentText.value, rest) := by
  cases exponent with
  | none =>
      have htext : ExponentText.textOf none ++ rest = rest := rfl
      rw [htext]
      cases rest with
      | nil =>
          rfl
      | cons c rest =>
          obtain ⟨-, hlower, hupper⟩ := hrest c rfl
          have hletter : ¬ (c = 'e' ∨ c = 'E') := not_or.mpr ⟨hlower, hupper⟩
          rw [readExponent, if_neg hletter]
          rfl
  | some e =>
      exact readExponent_text (h e rfl) fun c hc => (hrest c hc).1

/-- The digits of a number end before its exponent. -/
theorem forall_head?_textOf
    {exponent : Option ExponentText} (h : ∀ e ∈ exponent, e.Standard) {rest : List Char}
    (hrest : Closes rest) :
    ∀ c ∈ (ExponentText.textOf exponent ++ rest).head?, c.isDigit = false ∧ c ≠ '.' := by
  cases exponent with
  | none =>
      exact hrest.forall_head? (by decide)
  | some e =>
      intro c hc
      have hletter : e.letter = c := Option.some.inj hc
      rw [← hletter, (h e rfl).letter]
      decide

/-- The digits before the point end before the fraction. -/
theorem forall_head?_fractionText
    (fraction : Option (List Char)) {rest : List Char}
    (hrest : ∀ c ∈ rest.head?, c.isDigit = false) :
    ∀ c ∈ (NumberText.fractionText fraction ++ rest).head?, c.isDigit = false := by
  cases fraction with
  | none =>
      exact hrest
  | some ds =>
      intro c hc
      rw [← Option.some.inj hc]
      decide

/-- A number is read as far as it reaches. -/
theorem readUnsigned_text
    {n : NumberText} (h : n.Standard) (negative : Bool) {rest : List Char}
    (hrest : Closes rest) :
    readUnsigned atEnd negative (n.text ++ rest) = .ok (n.numeral negative, rest) := by
  have hafter := forall_head?_textOf h.exponent hrest
  have hexponent :
      readExponent atEnd (ExponentText.textOf n.exponent ++ rest) =
        .ok (n.exponent.map ExponentText.value, rest) :=
    readExponent_append h.exponent (hrest.forall_head? (by decide))
  have hfraction :
      readFraction atEnd
          (NumberText.fractionText n.fraction ++ (ExponentText.textOf n.exponent ++ rest)) =
        .ok (n.fraction.getD [], ExponentText.textOf n.exponent ++ rest) :=
    readFraction_append h.fraction_ne_nil h.fraction_digits hafter
  have hwhole :
      readWhole atEnd (n.whole ++
          (NumberText.fractionText n.fraction ++ (ExponentText.textOf n.exponent ++ rest))) =
        .ok (n.whole,
          NumberText.fractionText n.fraction ++ (ExponentText.textOf n.exponent ++ rest)) :=
    readWhole_append h.whole_ne_nil h.whole_digits h.whole_length
      (forall_head?_fractionText n.fraction fun c hc => (hafter c hc).1)
  have hintegral :
      ((n.fraction.getD []).isEmpty && (n.exponent.map ExponentText.value).isNone) =
        (n.fraction.isNone && n.exponent.isNone) := by
    rw [Option.isNone_map]
    cases hds : n.fraction with
    | none =>
        rfl
    | some ds =>
        rw [Option.getD_some, List.isEmpty_eq_false_iff.mpr (h.fraction_ne_nil ds hds)]
        rfl
  rw [readUnsigned, NumberText.text, List.append_assoc, List.append_assoc, hwhole]
  simp only [bind, Except.bind, hfraction, hexponent, hintegral]
  rfl

end Json

/-! ## Decimals as documents have them -/

namespace Decimal

/-- A decimal with a point, as a number that has been read. -/
def pointed (d : Decimal) : NumberText where
  whole := d.wholePart
  fraction := some (if d.fraction.isEmpty then ['0'] else d.fraction)
  exponent := none

/-- The digits behind the first one, in scientific notation. -/
def scientificFraction (d : Decimal) : Option (List Char) :=
  if d.significant.tail.isEmpty then none else some d.significant.tail

/-- A decimal in scientific notation, as a number that has been read. -/
def scientific (d : Decimal) : NumberText where
  whole := [d.significant.headD '0']
  fraction := d.scientificFraction
  exponent := some ⟨'e', some (if d.point - 1 < 0 then '-' else '+'),
    Nat.toDigits 10 (d.point - 1).natAbs⟩

theorem text_pointed (d : Decimal) :
    d.pointed.text = d.pointedText := by
  rw [NumberText.text, pointedText]
  exact List.append_nil _

theorem text_scientific (d : Decimal) :
    d.scientific.text = d.scientificText := by
  rw [NumberText.text, scientificText, scientific, scientificFraction]
  cases d.significant with
  | nil =>
      rfl
  | cons c cs =>
      cases cs with
      | nil =>
          rfl
      | cons c' cs =>
          rfl

/-- Only zero begins with the digit zero. -/
theorem head?_toDigits_ne
    {n : Nat} (h : n ≠ 0) :
    (Nat.toDigits 10 n).head? ≠ some '0' := by
  induction n using Nat.base_induction 10 (by decide) with
  | single m hm =>
      rw [Nat.toDigits_of_lt_base hm]
      intro hhead
      exact h (Nat.digitChar_eq_zero.mp (Option.some.inj hhead))
  | digit m k hk hm ih =>
      have hhead := ih (Nat.ne_of_gt hm)
      obtain ⟨c, cs, hcons⟩ := List.exists_cons_of_ne_nil (Nat.toDigits_ne_nil (n := m) (b := 10))
      rw [hcons] at hhead
      rw [← Nat.toDigits_append_toDigits (by decide) hm hk, hcons]
      exact hhead

/-- The significant digits of all but zero begin with another digit than zero. -/
theorem exists_significant_eq_cons
    {d : Decimal} (h : d.digits ≠ 0) :
    ∃ c cs, d.significant = c :: cs ∧ c ≠ '0' := by
  obtain ⟨zeros, hdigits⟩ := d.exists_toDigits_eq
  have hhead := head?_toDigits_ne h
  rw [hdigits] at hhead
  cases hsignificant : d.significant with
  | nil =>
      rw [hsignificant] at hdigits hhead
      cases zeros with
      | zero =>
          exact absurd hdigits Nat.toDigits_ne_nil
      | succ zeros =>
          exact absurd rfl hhead
  | cons c cs =>
      rw [hsignificant] at hhead
      exact ⟨c, cs, rfl, fun hc => hhead (congrArg some hc)⟩

/-- The digits before the point begin with a zero only when it is the only one. -/
theorem length_wholePart_le
    {d : Decimal} (h : d.digits ≠ 0 ∨ d.point = 1) (hhead : d.wholePart.head? = some '0') :
    d.wholePart.length ≤ 1 := by
  by_cases hsmall : d.point ≤ 0
  · rw [wholePart, if_pos hsmall]
    exact Nat.le_refl 1
  · have hwhole := wholePart_of_pos hsmall
    rcases h with hdigits | hpoint
    · obtain ⟨c, cs, hsignificant, hc⟩ := exists_significant_eq_cons hdigits
      obtain ⟨n, hn⟩ : ∃ n, d.point.toNat = n + 1 := ⟨d.point.toNat - 1, by omega⟩
      rw [hwhole, hsignificant, hn, List.take_succ_cons] at hhead
      exact absurd (Option.some.inj hhead) hc
    · rw [hwhole, List.length_append, List.length_take, List.length_replicate]
      omega

theorem standard_pointed
    {d : Decimal} (h : d.digits ≠ 0 ∨ d.point = 1) :
    d.pointed.Standard where
  whole_ne_nil := d.wholePart_ne_nil
  whole_digits := fun c hc => isDigit_of_mem_wholePart hc
  whole_length := length_wholePart_le h
  fraction_ne_nil := by
    intro ds hds
    cases Option.mem_some.mp hds
    split
    · exact List.cons_ne_nil _ _
    · rename_i hne
      exact fun hnil => hne (List.isEmpty_iff.mpr hnil)
  fraction_digits := by
    intro ds hds c hc
    cases Option.mem_some.mp hds
    split at hc
    · rw [List.mem_singleton.mp hc]
      decide
    · exact isDigit_of_mem_fraction hc
  exponent := fun e he => absurd he (Option.not_mem_none e)

theorem mem_scientificFraction
    {d : Decimal} {ds : List Char} :
    ds ∈ d.scientificFraction ↔ d.significant.tail ≠ [] ∧ d.significant.tail = ds := by
  rw [scientificFraction]
  by_cases h : d.significant.tail = []
  · simp [h]
  · simp [h]

theorem standard_scientific (d : Decimal) :
    d.scientific.Standard where
  whole_ne_nil := List.cons_ne_nil _ _
  whole_digits := by
    intro c hc
    rw [List.mem_singleton.mp hc]
    cases hsignificant : d.significant with
    | nil =>
        decide
    | cons c cs =>
        refine isDigit_of_mem_significant (d := d) ?_
        rw [hsignificant]
        exact List.mem_cons_self
  whole_length := fun _ => Nat.le_refl 1
  fraction_ne_nil := by
    intro ds hds
    obtain ⟨hne, rfl⟩ := mem_scientificFraction.mp hds
    exact hne
  fraction_digits := by
    intro ds hds c hc
    obtain ⟨-, rfl⟩ := mem_scientificFraction.mp hds
    exact isDigit_of_mem_significant (List.mem_of_mem_tail hc)
  exponent := by
    intro e he
    cases Option.mem_some.mp he
    refine ⟨rfl, ?_, Nat.toDigits_ne_nil, fun c hc => ?_⟩
    · refine ⟨_, rfl, ?_⟩
      split
      · exact .inl rfl
      · exact .inr rfl
    · exact Nat.isDigit_of_mem_toDigits (by decide) (by decide) hc

/-- With a point, a decimal has the value that it has in full. -/
theorem value_pointed (d : Decimal) :
    d.pointed.value = d.value := by
  rw [← value_written, NumberText.value, NumberText.value, pointed, written]
  by_cases hfraction : d.fraction.isEmpty = true
  · simp [hfraction, Nat.ofDigitChars_cons]
  · simp [hfraction]

/-- The exponent of scientific notation is the place of the first digit. -/
theorem value_exponent_scientific (d : Decimal) :
    (d.scientific.exponent.map ExponentText.value).getD 0 = d.point - 1 := by
  rw [scientific, Option.map_some, Option.getD_some, ExponentText.value]
  simp only [Nat.ofDigitChars_ten_toDigits]
  by_cases hneg : d.point - 1 < 0
  · rw [if_pos hneg, if_pos rfl]
    omega
  · rw [if_neg hneg, if_neg (by decide)]
    omega

/-- In scientific notation, a decimal has the value that it has. -/
theorem value_scientific (d : Decimal) :
    d.scientific.value = d.value := by
  have hfraction : d.scientific.fraction.getD [] = d.significant.tail := by
    rw [scientific, scientificFraction]
    by_cases h : d.significant.tail.isEmpty = true
    · rw [if_pos h, Option.getD_none, List.isEmpty_iff.mp h]
    · rw [if_neg h, Option.getD_some]
  have hdecimal :
      d.scientific.decimal =
        ⟨Nat.ofDigitChars 10 ([d.significant.headD '0'] ++ d.significant.tail) 0,
          d.point - 1 - d.significant.tail.length⟩ := by
    rw [NumberText.decimal, hfraction, value_exponent_scientific, scientific]
  obtain ⟨zeros, hdigits, hpoint⟩ := d.exists_digits_eq
  rw [← NumberText.value_decimal, hdecimal]
  cases hsignificant : d.significant with
  | nil =>
      rw [hsignificant, Nat.ofDigitChars_nil, Nat.zero_mul] at hdigits
      simp [value, hdigits, Nat.ofDigitChars_cons]
  | cons c cs =>
      rw [hsignificant] at hdigits hpoint
      have hd : d = ⟨Nat.ofDigitChars 10 (c :: cs) 0 * 10 ^ zeros, d.exponent⟩ := by
        rw [← hdigits]
      have hplace : ((0 : Nat) : Int) + (d.point - 1 - cs.length) = zeros + d.exponent := by
        rw [hpoint, List.length_cons]
        omega
      have hshift := value_eq_of_shift (n := Nat.ofDigitChars 10 (c :: cs) 0) hplace
      rw [Nat.pow_zero, Nat.mul_one] at hshift
      rw [congrArg value hd]
      exact hshift

end Decimal

/-! ## Numbers -/

namespace Magnitude

/-- The digits of the shortest decimal begin with a zero for zero only. -/
theorem digits_ne_zero_or_point_eq_one
    (x : Magnitude) (tie : Tie) :
    (x.shortest tie).digits ≠ 0 ∨ (x.shortest tie).point = 1 := by
  by_cases hx : x = zero
  · rw [hx, shortest_zero]
    exact .inr (by decide)
  · exact .inl (digits_ne_zero_of_ofDecimal hx (ofDecimal_shortest x tie))

/-- A magnitude as documents have it, as a number that has been read. -/
def documentText (x : Magnitude) : NumberText :=
  let d := x.shortest .even
  if Double.positional d then d.pointed else d.scientific

theorem text_documentText (x : Magnitude) :
    x.documentText.text = Double.magnitudeText x := by
  rw [documentText, Double.magnitudeText]
  split
  · exact Decimal.text_pointed _
  · exact Decimal.text_scientific _

theorem standard_documentText (x : Magnitude) :
    x.documentText.Standard := by
  rw [documentText]
  split
  · exact Decimal.standard_pointed (x.digits_ne_zero_or_point_eq_one .even)
  · exact Decimal.standard_scientific _

theorem value_documentText (x : Magnitude) :
    x.documentText.value = (x.shortest .even).value := by
  rw [documentText]
  split
  · exact Decimal.value_pointed _
  · exact Decimal.value_scientific _

/-- The text of a magnitude has the magnitude as its value. -/
theorem ofDecimal_documentText (x : Magnitude) :
    ofDecimal x.documentText.decimal = some x := by
  rw [← ofDecimal_shortest x .even]
  exact Decimal.ofDecimal_eq_of_value_eq (x.documentText.value_decimal.trans x.value_documentText)

theorem integral_documentText
    (x : Magnitude) (negative : Bool) :
    (x.documentText.numeral negative).integral = false := by
  rw [documentText]
  split
  · rfl
  · exact Bool.and_false _

end Magnitude

namespace Number

/-- A number without its sign as documents have it, as a number that has been
read. -/
def documentText : Number → NumberText
  | .int n => ⟨Nat.toDigits 10 n.value.natAbs, none, none⟩
  | .float x => x.magnitude.documentText

theorem jsonText_eq (n : Number) :
    n.jsonText = (if n.signed then ['-'] else []) ++ n.documentText.text := by
  cases n with
  | int n =>
      have htext :
          (documentText (.int n)).text = Nat.toDigits 10 n.value.natAbs := by
        rw [documentText, NumberText.text]
        exact (List.append_nil _).trans (List.append_nil _)
      rw [htext, jsonText, signed, Integer.text]
      by_cases hneg : n.value < 0
      · simp [hneg]
      · simp [hneg]
  | float x =>
      rw [documentText, Magnitude.text_documentText, jsonText, signed, Double.jsonText]
      cases x.negative with
      | false =>
          rfl
      | true =>
          rfl

theorem standard_documentText (n : Number) :
    n.documentText.Standard := by
  cases n with
  | int n =>
      refine ⟨Nat.toDigits_ne_nil, fun c hc => ?_, fun hhead => ?_, ?_, ?_, ?_⟩
      · exact Nat.isDigit_of_mem_toDigits (by decide) (by decide) hc
      · have hzero : n.value.natAbs = 0 :=
          Decidable.byContradiction fun hne => Decimal.head?_toDigits_ne hne hhead
        rw [documentText, hzero]
        decide
      · exact fun ds hds => absurd hds (Option.not_mem_none ds)
      · exact fun ds hds => absurd hds (Option.not_mem_none ds)
      · exact fun e he => absurd he (Option.not_mem_none e)
  | float x =>
      exact Magnitude.standard_documentText _

/-- The numeral of a number stands for the number. -/
theorem number?_numeral (n : Number) :
    (n.documentText.numeral n.signed).number? = some n := by
  cases n with
  | int n =>
      have hvalue : Nat.ofDigitChars 10 (Nat.toDigits 10 n.value.natAbs) 0 = n.value.natAbs :=
        Nat.ofDigitChars_ten_toDigits
      have hsign : (decide (n.value < 0) && n.value.natAbs == 0) = false := by
        by_cases hneg : n.value < 0
        · have hne : n.value.natAbs ≠ 0 := by omega
          simp [hneg, hne]
        · simp [hneg]
      have hsigned :
          (if decide (n.value < 0) = true then -(n.value.natAbs : Int) else n.value.natAbs) =
            n.value := by
        by_cases hneg : n.value < 0
        · rw [if_pos (decide_eq_true hneg)]
          omega
        · rw [if_neg (by simpa using hneg)]
          omega
      have hinteger :
          ((documentText (.int n)).numeral (signed (.int n))).integer? = some n := by
        rw [Numeral.integer?]
        simp only [documentText, NumberText.numeral, signed, hvalue, hsign, hsigned]
        exact dif_pos ⟨n.lower, n.upper⟩
      rw [Numeral.number?, hinteger]
  | float x =>
      have hinteger :
          ((documentText (.float x)).numeral (signed (.float x))).integer? = none := by
        rw [Numeral.integer?, documentText, Magnitude.integral_documentText]
        rfl
      rw [Numeral.number?, hinteger, NumberText.decimal_numeral, documentText]
      rw [Magnitude.ofDecimal_documentText]
      rfl

end Number
namespace Json

/-- A number is read back when what follows can close a value. -/
theorem readNumber_text
    (n : Number) {rest : List Char} (hrest : Closes rest) :
    readNumber .keep n.signed (n.documentText.text ++ rest) = .ok (.number n, rest) := by
  rw [readNumber, readUnsigned_text n.standard_documentText n.signed hrest]
  simp only [bind, Except.bind, n.number?_numeral]
  rfl

theorem isSpace_of_isDigit
    {c : Char} (h : c.isDigit = true) :
    isSpace c = false := by
  refine Bool.eq_false_iff.mpr fun hspace => ?_
  simp only [isSpace, Bool.or_eq_true, beq_iff_eq] at hspace
  rcases hspace with ((rfl | rfl) | rfl) | rfl <;> exact absurd h (by decide)

/-- A text that begins with no space is not changed by skipping spaces. -/
theorem skipSpace_cons
    {c : Char} (h : isSpace c = false) (s : List Char) :
    skipSpace (c :: s) = c :: s :=
  List.dropWhile_cons_of_neg (by simp [h])

/-- A digit in front of a text begins a number. -/
theorem readFound_of_isDigit
    {c : Char} (h : c.isDigit = true) (s : List Char) :
    readFound .keep (c :: s) = readNumber .keep false (c :: s) := by
  rw [readFound, skipSpace_cons (isSpace_of_isDigit h)]
  split
  case h_1 heq =>
    exact absurd heq (List.cons_ne_nil c s)
  case h_9 heq =>
    cases heq
    exact if_pos h
  -- every other branch is for a character that is no digit
  all_goals
    rename_i heq
    obtain ⟨rfl, -⟩ := List.cons.inj heq
    exact absurd h (by decide)

/-- The text of a number begins with a minus sign or a digit. -/
theorem exists_jsonText_eq_cons (n : Number) :
    ∃ c cs, n.jsonText = c :: cs ∧ (c = '-' ∨ c.isDigit = true) := by
  obtain ⟨c, cs, htext, hc⟩ := n.standard_documentText.exists_text_eq_cons
  rw [n.jsonText_eq]
  cases n.signed with
  | true =>
      exact ⟨'-', _, rfl, .inl rfl⟩
  | false =>
      exact ⟨c, cs, htext, .inr hc⟩

/-- A number in front of a text is found, whatever its sign. -/
theorem readFound_jsonText
    (n : Number) {rest : List Char} (hrest : Closes rest) :
    readFound .keep (n.jsonText ++ rest) = .ok (.number n, rest) := by
  have hread := readNumber_text n hrest
  rw [n.jsonText_eq]
  cases hsigned : n.signed with
  | true =>
      rw [hsigned] at hread
      exact hread
  | false =>
      rw [hsigned] at hread
      obtain ⟨c, cs, htext, hc⟩ := n.standard_documentText.exists_text_eq_cons
      rw [htext] at hread ⊢
      exact (readFound_of_isDigit hc _).trans hread

end Json
end QueryFormula
