import QueryFormula.Proofs.Text.Classes
import QueryFormula.Proofs.Token.Fragment

/-!
# The rules for lexemes

`Lexeme.split` tries one kind of lexeme after the other.  Here each kind has a
rule of its own that does not mention the others: no character begins lexemes of
two kinds, so the order of the trials decides nothing.  What holds of every
lexeme is proved rule by rule.
-/

namespace QueryFormula

/-- The texts of numbers: digits, perhaps with a point among them, and perhaps an
exponent with digits of its own.  At least one digit is not in the exponent. -/
structure NumberText.WellFormed (n : NumberText) : Prop where
  whole_digits : ∀ c ∈ n.whole, c.isDigit = true
  fraction_digits : ∀ ds ∈ n.fraction, ∀ c ∈ ds, c.isDigit = true
  has_digit : n.whole ≠ [] ∨ ∃ ds ∈ n.fraction, ds ≠ []
  exponent_letter : ∀ e ∈ n.exponent, e.letter = 'e' ∨ e.letter = 'E'
  exponent_sign : ∀ e ∈ n.exponent, ∀ c ∈ e.sign, c = '+' ∨ c = '-'
  exponent_digits : ∀ e ∈ n.exponent, e.digits ≠ [] ∧ ∀ c ∈ e.digits, c.isDigit = true

namespace NumberText

theorem isDigit_of_mem_takeWhile
    {c : Char} {s : List Char} (h : c ∈ s.takeWhile Char.isDigit) :
    c.isDigit = true :=
  List.all_eq_true.mp List.all_takeWhile c h

theorem splitFraction_digits
    {s ds : List Char} (h : ds ∈ (splitFraction s).1) :
    ∀ c ∈ ds, c.isDigit = true := by
  intro c hc
  unfold splitFraction at h
  split at h
  · rw [← Option.mem_some.mp h] at hc
    exact isDigit_of_mem_takeWhile hc
  · exact absurd h (Option.not_mem_none ds)

/-- An exponent is cut off with its letter, its sign and its digits. -/
theorem exponent_spec
    {s : List Char} {e : ExponentText} (h : e ∈ (ExponentText.split s).1) :
    (e.letter = 'e' ∨ e.letter = 'E') ∧ (∀ c ∈ e.sign, c = '+' ∨ c = '-') ∧
      e.digits ≠ [] ∧ ∀ c ∈ e.digits, c.isDigit = true := by
  have hsign :
      ∀ t, ∀ c ∈ (ExponentText.splitSign t).1, c = '+' ∨ c = '-' := by
    intro t c hc
    unfold ExponentText.splitSign at hc
    split at hc
    · exact absurd hc (Option.not_mem_none c)
    · split at hc
      · next hsign =>
        rwa [Option.mem_some.mp hc] at hsign
      · exact absurd hc (Option.not_mem_none c)
  unfold ExponentText.split at h
  split at h
  · exact absurd h (Option.not_mem_none e)
  · next c rest =>
    by_cases hletter : c = 'e' ∨ c = 'E'
    · by_cases hdigits :
          ((ExponentText.splitSign rest).2.takeWhile Char.isDigit).isEmpty = true
      · simp [hletter, hdigits] at h
      · simp only [hletter, hdigits, if_true, Bool.false_eq_true, if_false,
          Option.mem_some] at h
        subst h
        refine ⟨hletter, hsign rest, ?_, fun c hc => isDigit_of_mem_takeWhile hc⟩
        rwa [List.isEmpty_iff] at hdigits
    · simp [hletter] at h

/-- What is cut off as a number is the text of one. -/
theorem wellFormed_split
    {s : List Char} (h : starts s = true) :
    (split s).1.WellFormed where
  whole_digits := fun c hc => isDigit_of_mem_takeWhile hc
  fraction_digits := fun ds hds => splitFraction_digits hds
  has_digit := by
    unfold starts at h
    split at h
    · contradiction
    · next c rest =>
      have hpoint : ('.' :: c :: rest).dropWhile Char.isDigit = '.' :: c :: rest :=
        List.dropWhile_cons_of_neg (by decide)
      refine .inr ⟨(c :: rest).takeWhile Char.isDigit, ?_, ?_⟩
      · rw [split, hpoint]
        exact Option.mem_some.mpr rfl
      · rw [List.takeWhile_cons_of_pos h]
        exact List.cons_ne_nil _ _
    · next c rest _ =>
      refine .inl ?_
      have hwhole : (split (c :: rest)).1.whole = (c :: rest).takeWhile Char.isDigit := rfl
      rw [hwhole, List.takeWhile_cons_of_pos h]
      exact List.cons_ne_nil _ _
  exponent_letter := fun e he => (exponent_spec he).1
  exponent_sign := fun e he => (exponent_spec he).2.1
  exponent_digits := fun e he => (exponent_spec he).2.2

/-- Unless it is a point, the first character alone decides whether a number
begins. -/
theorem starts_of_ne_point
    {c : Char} (hpoint : c ≠ '.') (rest : List Char) :
    starts (c :: rest) = c.isDigit := by
  rw [starts]
  intro d rest' hc
  exact absurd hc hpoint

end NumberText

namespace Lexeme

/-- The lexeme that a text begins with, and what is left after it. -/
inductive Begins : Char → List Char → Lexeme → List Char → Prop
  | comma (rest : List Char) : Begins ',' rest .comma rest
  | leftParen (rest : List Char) : Begins '(' rest .leftParen rest
  | rightParen (rest : List Char) : Begins ')' rest .rightParen rest
  | closed (d : Delimiter) {rest content after : List Char}
      (h : Delimiter.split d.closing rest = (content, some after)) :
      Begins d.opening rest (.delimited d content true) after
  | unclosed (d : Delimiter) {rest content : List Char}
      (h : Delimiter.split d.closing rest = (content, none)) :
      Begins d.opening rest (.delimited d content false) []
  | number {c : Char} {rest : List Char} (h : NumberText.starts (c :: rest) = true) :
      Begins c rest (.number (NumberText.split (c :: rest)).1)
        (NumberText.split (c :: rest)).2
  | word {c : Char} (h : Text.isWordStart c = true) (rest : List Char) :
      Begins c rest (.word (c :: rest.takeWhile Text.isWordChar))
        (rest.dropWhile Text.isWordChar)
  | sign {c : Char} {rest after : List Char} {op : BinaryOperator}
      (h : splitSign c rest = some (op, after)) :
      Begins c rest (.sign op) after

theorem begins_of_split
    {c : Char} {rest after : List Char} {lexeme : Lexeme}
    (h : split c rest = some (lexeme, after)) :
    Begins c rest lexeme after := by
  by_cases hcomma : c = ','
  · subst hcomma
    obtain ⟨rfl, rfl⟩ := Prod.mk.inj (Option.some.inj h)
    exact .comma rest
  by_cases hleft : c = '('
  · subst hleft
    obtain ⟨rfl, rfl⟩ := Prod.mk.inj (Option.some.inj h)
    exact .leftParen rest
  by_cases hright : c = ')'
  · subst hright
    obtain ⟨rfl, rfl⟩ := Prod.mk.inj (Option.some.inj h)
    exact .rightParen rest
  rw [split, if_neg hcomma, if_neg hleft, if_neg hright] at h
  split at h
  · next d hd =>
    rw [← Delimiter.opening_of_ofOpening? hd]
    split at h
    · next content after' hcut =>
      obtain ⟨rfl, rfl⟩ := Prod.mk.inj (Option.some.inj h)
      exact .closed d hcut
    · next content hcut =>
      obtain ⟨rfl, rfl⟩ := Prod.mk.inj (Option.some.inj h)
      exact .unclosed d hcut
  · by_cases hnumber : NumberText.starts (c :: rest) = true
    · rw [if_pos hnumber] at h
      obtain ⟨rfl, rfl⟩ := Prod.mk.inj (Option.some.inj h)
      exact .number hnumber
    by_cases hword : Text.isWordStart c = true
    · rw [if_neg hnumber, if_pos hword] at h
      obtain ⟨rfl, rfl⟩ := Prod.mk.inj (Option.some.inj h)
      exact .word hword rest
    rw [if_neg hnumber, if_neg hword, Option.map_eq_some_iff] at h
    obtain ⟨⟨op, after'⟩, hsign, heq⟩ := h
    obtain ⟨rfl, rfl⟩ := Prod.mk.inj heq
    exact .sign hsign

/-- Only a lexeme without its closing delimiter has a fault, and it leaves nothing. -/
theorem Begins.eq_nil_of_fault
    {c : Char} {rest after : List Char} {l : Lexeme} (h : Begins c rest l after)
    (hfault : l.fault ≠ none) :
    after = [] := by
  cases h with
  | unclosed d hcut =>
      rfl
  | _ =>
      exact absurd rfl hfault

/-- The characters that are a lexeme of their own or open one. -/
def marks : List Char :=
  [',', '(', ')', '"', '\'', '[']

theorem not_mem_of_any_eq_false
    {p : Char → Bool} {c : Char} {cs : List Char}
    (hp : cs.any p = false) (hc : p c = true) :
    c ∉ cs := by
  intro hmem
  exact List.any_eq_false.mp hp c hmem hc

/-- Any other character begins a number, a word or a sign. -/
theorem split_of_not_mem_marks
    {c : Char} (hmarks : c ∉ marks) (rest : List Char) :
    split c rest =
      if NumberText.starts (c :: rest) then
        some (.number (NumberText.split (c :: rest)).1, (NumberText.split (c :: rest)).2)
      else if Text.isWordStart c then
        some (.word (c :: rest.takeWhile Text.isWordChar), rest.dropWhile Text.isWordChar)
      else (splitSign c rest).map fun p => (.sign p.1, p.2) := by
  simp only [marks, List.mem_cons, List.not_mem_nil, or_false, not_or] at hmarks
  obtain ⟨hcomma, hleft, hright, hdouble, hsingle, hbracket⟩ := hmarks
  have hopening : Delimiter.ofOpening? c = none := by
    unfold Delimiter.ofOpening?
    split
    case h_4 => rfl
    all_goals contradiction
  rw [split, if_neg hcomma, if_neg hleft, if_neg hright, hopening]

/-- No rule is in the way of another. -/
theorem split_eq_some_iff
    {c : Char} {rest after : List Char} {lexeme : Lexeme} :
    split c rest = some (lexeme, after) ↔ Begins c rest lexeme after := by
  constructor
  · exact begins_of_split
  intro h
  induction h with
  | comma rest => rfl
  | leftParen rest => rfl
  | rightParen rest => rfl
  | closed d hcut =>
      rw [split_opening, hcut]
      rfl
  | unclosed d hcut =>
      rw [split_opening, hcut]
      rfl
  | @number c rest hnumber =>
      have hmarks : c ∉ marks := by
        by_cases hpoint : c = '.'
        · rw [hpoint]
          decide
        · rw [NumberText.starts_of_ne_point hpoint] at hnumber
          exact not_mem_of_any_eq_false (by decide) hnumber
      rw [split_of_not_mem_marks hmarks, if_pos hnumber]
  | @word c hword rest =>
      have hmarks : c ∉ marks := not_mem_of_any_eq_false (by decide) hword
      have hpoint : c ≠ '.' := Text.ne_of_isWordStart hword (by decide)
      have hnumber : NumberText.starts (c :: rest) = false := by
        rw [NumberText.starts_of_ne_point hpoint, Text.isDigit_of_isWordStart hword]
      rw [split_of_not_mem_marks hmarks, hnumber, hword]
      rfl
  | @sign c rest after op hsign =>
      have hother :
          c ∉ marks ∧ c ≠ '.' ∧ c.isDigit = false ∧ Text.isWordStart c = false := by
        unfold splitSign at hsign
        split at hsign
        case h_11 => contradiction
        all_goals decide
      obtain ⟨hmarks, hpoint, hdigit, hword⟩ := hother
      rw [split_of_not_mem_marks hmarks, NumberText.starts_of_ne_point hpoint, hdigit, hword,
        hsign]
      rfl

end Lexeme
end QueryFormula
