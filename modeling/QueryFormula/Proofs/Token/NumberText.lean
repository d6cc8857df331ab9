import QueryFormula.Proofs.Number.Value

/-!
# Numbers cut off a text

Where a text goes on behind a number, the number takes along as much of it as it
can: further digits for its last part, and the parts that it does not have yet.
Alone it is cut off as it is.  So the text of a number has one reading only.
-/

namespace QueryFormula

namespace Text

/-- Digits in front of a text go on with those that the text begins with. -/
theorem digits_append
    {digits : List Char} (h : ∀ c ∈ digits, c.isDigit = true) (rest : List Char) :
    (digits ++ rest).takeWhile Char.isDigit = digits ++ rest.takeWhile Char.isDigit ∧
      (digits ++ rest).dropWhile Char.isDigit = rest.dropWhile Char.isDigit :=
  ⟨List.takeWhile_append_of_pos h, List.dropWhile_append_of_pos h⟩

end Text

/-! ## Exponents -/

/-- The texts of exponents: a letter, perhaps a sign, and digits. -/
structure ExponentText.WellFormed (e : ExponentText) : Prop where
  letter : e.letter = 'e' ∨ e.letter = 'E'
  sign : ∀ c ∈ e.sign, c = '+' ∨ c = '-'
  digits_ne_nil : e.digits ≠ []
  digits : ∀ c ∈ e.digits, c.isDigit = true

theorem NumberText.WellFormed.exponent
    {n : NumberText} (h : n.WellFormed) {e : ExponentText} (he : e ∈ n.exponent) :
    e.WellFormed where
  letter := h.exponent_letter e he
  sign := h.exponent_sign e he
  digits_ne_nil := (h.exponent_digits e he).1
  digits := (h.exponent_digits e he).2

namespace ExponentText

theorem splitSign_digits
    {digits : List Char} (hne : digits ≠ []) (hdigits : ∀ c ∈ digits, c.isDigit = true)
    {sign : Option Char} (hsign : ∀ c ∈ sign, c = '+' ∨ c = '-') (rest : List Char) :
    splitSign (sign.toList ++ (digits ++ rest)) = (sign, digits ++ rest) := by
  cases sign with
  | none =>
      obtain ⟨c, cs, rfl⟩ := List.exists_cons_of_ne_nil hne
      have hc := hdigits c List.mem_cons_self
      have hsign : ¬ (c = '+' ∨ c = '-') := by
        rintro (rfl | rfl) <;> exact absurd hc (by decide)
      rw [Option.toList_none, List.nil_append, List.cons_append, splitSign, if_neg hsign]
  | some c =>
      rw [Option.toList_some, List.singleton_append, splitSign, if_pos (hsign c rfl)]

/-- An exponent goes on with the digits behind it. -/
theorem split_text
    {e : ExponentText} (h : e.WellFormed) (rest : List Char) :
    split (e.text ++ rest) =
      (some { e with digits := e.digits ++ rest.takeWhile Char.isDigit },
        rest.dropWhile Char.isDigit) := by
  obtain ⟨htake, hdrop⟩ := Text.digits_append h.digits rest
  have hsign := splitSign_digits h.digits_ne_nil h.digits h.sign rest
  have hne : ¬ (e.digits ++ rest.takeWhile Char.isDigit).isEmpty = true := by
    rw [List.isEmpty_iff, List.append_eq_nil_iff]
    exact fun hnil => h.digits_ne_nil hnil.1
  rw [text, List.cons_append, List.cons_append, List.append_assoc, split, if_pos h.letter, hsign]
  simp only [htake, hdrop, if_neg hne]

theorem head?_text_ne
    {e : ExponentText} (h : e.WellFormed) (rest : List Char) :
    ∀ c ∈ (e.text ++ rest).head?, c.isDigit = false ∧ c ≠ '.' := by
  intro c hc
  have hletter : e.letter = c := Option.some.inj hc
  rcases h.letter with he | he
  · rw [← hletter, he]
    decide
  · rw [← hletter, he]
    decide

end ExponentText

/-! ## Numbers -/

namespace NumberText

theorem split_eq (s : List Char) :
    split s =
      (⟨s.takeWhile Char.isDigit, (splitFraction (s.dropWhile Char.isDigit)).1,
        (ExponentText.split (splitFraction (s.dropWhile Char.isDigit)).2).1⟩,
        (ExponentText.split (splitFraction (s.dropWhile Char.isDigit)).2).2) :=
  rfl

theorem splitFraction_of_head?_ne
    {s : List Char} (h : ∀ c ∈ s.head?, c ≠ '.') :
    splitFraction s = (none, s) := by
  rw [splitFraction]
  rintro rest rfl
  exact h '.' rfl rfl

variable {n : NumberText}

/-- A number with an exponent goes on with digits only. -/
theorem split_text_of_exponent
    (h : n.WellFormed) {e : ExponentText} (he : n.exponent = some e) (rest : List Char) :
    split (n.text ++ rest) =
      ({ n with exponent := some { e with digits := e.digits ++ rest.takeWhile Char.isDigit } },
        rest.dropWhile Char.isDigit) := by
  have hwell : e.WellFormed := h.exponent he
  have hhead := ExponentText.head?_text_ne hwell rest
  have htext : n.text ++ rest = n.whole ++ (fractionText n.fraction ++ (e.text ++ rest)) := by
    rw [text, he, List.append_assoc, List.append_assoc]
    rfl
  cases hfraction : n.fraction with
  | none =>
      obtain ⟨htake, hdrop⟩ := Text.takeWhile_append_of_head? h.whole_digits
        fun c hc => (hhead c hc).1
      rw [htext, hfraction, fractionText, List.nil_append, split_eq, htake, hdrop,
        splitFraction_of_head?_ne fun c hc => (hhead c hc).2, ExponentText.split_text hwell]
  | some ds =>
      have hpoint : ∀ c ∈ ('.' :: (ds ++ (e.text ++ rest))).head?, c.isDigit = false := by
        intro c hc
        rw [← Option.some.inj hc]
        decide
      obtain ⟨htake, hdrop⟩ := Text.takeWhile_append_of_head? h.whole_digits hpoint
      obtain ⟨htake', hdrop'⟩ := Text.takeWhile_append_of_head?
        (h.fraction_digits ds hfraction) fun c hc => (hhead c hc).1
      rw [htext, hfraction, fractionText, List.cons_append, split_eq, htake, hdrop, splitFraction,
        htake', hdrop', ExponentText.split_text hwell]

/-- A number with a point goes on with digits and then an exponent. -/
theorem split_text_of_fraction
    (h : n.WellFormed) {ds : List Char} (hexponent : n.exponent = none)
    (hfraction : n.fraction = some ds) (rest : List Char) :
    split (n.text ++ rest) =
      (⟨n.whole, some (ds ++ rest.takeWhile Char.isDigit),
        (ExponentText.split (rest.dropWhile Char.isDigit)).1⟩,
        (ExponentText.split (rest.dropWhile Char.isDigit)).2) := by
  have hpoint : ∀ c ∈ ('.' :: (ds ++ rest)).head?, c.isDigit = false := by
    intro c hc
    rw [← Option.some.inj hc]
    decide
  obtain ⟨htake, hdrop⟩ := Text.takeWhile_append_of_head? h.whole_digits hpoint
  obtain ⟨htake', hdrop'⟩ := Text.digits_append (h.fraction_digits ds hfraction) rest
  have htext : n.text ++ rest = n.whole ++ '.' :: (ds ++ rest) := by
    rw [text, hexponent, hfraction, ExponentText.textOf, Option.map_none, Option.getD_none,
      List.append_nil, fractionText, List.append_assoc, List.cons_append]
  rw [htext, split_eq, htake, hdrop, splitFraction, htake', hdrop']

/-- A number of digits only goes on with digits, then a fraction, then an
exponent. -/
theorem split_text_of_digits
    (h : n.WellFormed) (hexponent : n.exponent = none) (hfraction : n.fraction = none)
    (rest : List Char) :
    split (n.text ++ rest) =
      (⟨n.whole ++ rest.takeWhile Char.isDigit,
        (splitFraction (rest.dropWhile Char.isDigit)).1,
        (ExponentText.split (splitFraction (rest.dropWhile Char.isDigit)).2).1⟩,
        (ExponentText.split (splitFraction (rest.dropWhile Char.isDigit)).2).2) := by
  obtain ⟨htake, hdrop⟩ := Text.digits_append h.whole_digits rest
  have htext : n.text ++ rest = n.whole ++ rest := by
    rw [text, hexponent, hfraction, ExponentText.textOf, Option.map_none, Option.getD_none,
      List.append_nil, fractionText, List.append_nil]
  rw [htext, split_eq, htake, hdrop]

/-- A number is cut off as it is when the text behind it goes on with none of its
parts. -/
theorem split_text_append
    (h : n.WellFormed) {rest : List Char}
    (hrest : ∀ c ∈ rest.head?, c.isDigit = false ∧ c ≠ '.' ∧ c ≠ 'e' ∧ c ≠ 'E') :
    split (n.text ++ rest) = (n, rest) := by
  obtain ⟨htake, hdrop⟩ := Text.takeWhile_append_of_stop (fun c hc => (hrest c hc).1) []
  rw [List.nil_append, List.takeWhile_nil] at htake
  rw [List.nil_append, List.dropWhile_nil, List.nil_append] at hdrop
  have hfraction : splitFraction rest = (none, rest) :=
    splitFraction_of_head?_ne fun c hc => (hrest c hc).2.1
  have hexponent : ExponentText.split rest = (none, rest) := by
    cases rest with
    | nil => rfl
    | cons c cs => rw [ExponentText.split, if_neg (not_or.mpr (hrest c rfl).2.2)]
  obtain ⟨whole, fraction, exponent⟩ := n
  cases exponent with
  | some e =>
      rw [split_text_of_exponent h rfl, htake, hdrop, List.append_nil]
  | none =>
      cases fraction with
      | some ds =>
          rw [split_text_of_fraction h rfl rfl, htake, hdrop, List.append_nil, hexponent]
      | none =>
          rw [split_text_of_digits h rfl rfl, htake, hdrop, List.append_nil, hfraction, hexponent]

/-- Alone, a number is cut off as it is. -/
theorem split_text (h : n.WellFormed) :
    split n.text = (n, []) := by
  have hsplit : split (n.text ++ []) = (n, []) := split_text_append h nofun
  rwa [List.append_nil] at hsplit

/-- A number in front of a text is part of what is cut off. -/
theorem text_isPrefix_split (h : n.WellFormed) (rest : List Char) :
    n.text <+: (split (n.text ++ rest)).1.text := by
  obtain ⟨whole, fraction, exponent⟩ := n
  cases exponent with
  | some e =>
      rw [split_text_of_exponent h rfl]
      refine ⟨rest.takeWhile Char.isDigit, ?_⟩
      simp [text, ExponentText.textOf, ExponentText.text]
  | none =>
      cases fraction with
      | some ds =>
          rw [split_text_of_fraction h rfl rfl]
          refine ⟨rest.takeWhile Char.isDigit ++
            ExponentText.textOf (ExponentText.split (rest.dropWhile Char.isDigit)).1, ?_⟩
          simp [text, fractionText, ExponentText.textOf]
      | none =>
          rw [split_text_of_digits h rfl rfl]
          refine ⟨rest.takeWhile Char.isDigit ++
            (fractionText (splitFraction (rest.dropWhile Char.isDigit)).1 ++
              ExponentText.textOf
                (ExponentText.split (splitFraction (rest.dropWhile Char.isDigit)).2).1), ?_⟩
          simp [text, fractionText, ExponentText.textOf]

/-- The text of a number has one reading. -/
theorem text_injective
    {m : NumberText} (hm : m.WellFormed) (hn : n.WellFormed) (h : m.text = n.text) :
    m = n := by
  have hsplit := split_text hm
  rw [h, split_text hn] at hsplit
  exact (Prod.mk.inj hsplit).1.symm

/-- The text of a number begins with a digit or a point. -/
theorem WellFormed.exists_text_eq_cons (h : n.WellFormed) :
    ∃ c cs, n.text = c :: cs ∧ (c.isDigit = true ∨ c = '.') := by
  by_cases hwhole : n.whole = []
  · rcases h.has_digit with hne | ⟨ds, hfraction, -⟩
    · exact absurd hwhole hne
    · rw [text, hwhole, Option.mem_def.mp hfraction]
      exact ⟨'.', _, rfl, .inr rfl⟩
  · obtain ⟨c, cs, hcons⟩ := List.exists_cons_of_ne_nil hwhole
    have hc := h.whole_digits c (by rw [hcons]; exact List.mem_cons_self)
    rw [text, hcons]
    exact ⟨c, _, rfl, .inl hc⟩

theorem WellFormed.head?_text_ne (h : n.WellFormed) :
    n.text.head? ≠ some '-' := by
  obtain ⟨c, cs, htext, hc⟩ := h.exists_text_eq_cons
  rw [htext, List.head?_cons]
  rintro hminus
  obtain rfl := Option.some.inj hminus
  rcases hc with hc | hc <;> contradiction

end NumberText

/-- A text stands for one rational number at most. -/
theorem Denotes.unique
    {text : List Char} {q r : ℚ} (hq : Denotes text q) (hr : Denotes text r) :
    q = r := by
  obtain ⟨negative, m, hm, htext, rfl⟩ := hq
  obtain ⟨negative', n, hn, htext', rfl⟩ := hr
  rw [htext] at htext'
  cases negative <;> cases negative'
  · rw [NumberText.text_injective hm hn htext']
  · have hhead := hm.head?_text_ne
    simp only [Bool.false_eq_true, if_false, if_true, List.nil_append] at htext'
    rw [htext'] at hhead
    exact absurd rfl hhead
  · have hhead := hn.head?_text_ne
    simp only [Bool.false_eq_true, if_false, if_true, List.nil_append] at htext'
    rw [← htext'] at hhead
    exact absurd rfl hhead
  · rw [NumberText.text_injective hm hn (List.append_cancel_left htext')]

end QueryFormula
