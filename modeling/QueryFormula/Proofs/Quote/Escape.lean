import QueryFormula.Proofs.Quote.Bracket

/-!
# Escaped texts

Escaping puts a backslash before each bracket and leaves the backslashes of the text
as they are, so nothing in an escaped text marks a backslash as one that was put in.
The brackets tell it: the backslash directly before a bracket was put in, and every
other one was there.  Texts and escaped texts therefore correspond one to one, and a
text is an escaped one exactly when no bracket in it stands without a backslash.
-/

namespace QueryFormula.Quote

/-- Each bracket in the text stands directly behind a backslash. -/
def Escaped (t : List Char) : Prop :=
  ∀ before c after, t = before ++ c :: after → isBracket c = true →
    before.getLast? = some '\\'

/-- Each bracket in the rest of a text stands directly behind a backslash, and so
does the one that the rest begins with, by the character before it. -/
def EscapedAfter (previous : Option Char) (t : List Char) : Prop :=
  ∀ before c after, t = before ++ c :: after → isBracket c = true →
    before.getLast?.or previous = some '\\'

theorem escaped_iff_escapedAfter_none {t : List Char} :
    Escaped t ↔ EscapedAfter none t := by
  simp only [Escaped, EscapedAfter, Option.or_none]

theorem escapedAfter_cons_iff
    {previous : Option Char} {c : Char} {t : List Char} :
    EscapedAfter previous (c :: t) ↔
      (isBracket c = true → previous = some '\\') ∧ EscapedAfter (some c) t := by
  have hlast : ∀ before : List Char,
      (c :: before).getLast?.or previous = before.getLast?.or (some c) := by
    intro before
    rw [List.getLast?_cons, Option.some_or, Option.or_some]
  constructor
  · intro h
    constructor
    · exact h [] c t rfl
    · rintro before d after rfl hd
      rw [← hlast]
      exact h (c :: before) d after rfl hd
  · rintro ⟨hfirst, hrest⟩ before d after ht hd
    by_cases hbefore : before = []
    · subst hbefore
      obtain ⟨rfl, -⟩ := List.cons.inj ht
      exact hfirst hd
    · obtain ⟨b, before, rfl⟩ := List.exists_cons_of_ne_nil hbefore
      obtain ⟨rfl, htail⟩ := List.cons.inj ht
      rw [hlast]
      exact hrest before d after htail hd

/-- A bracket at the beginning needs a backslash before it. -/
theorem EscapedAfter.eq_backslash
    {previous : Option Char} {t : List Char} (h : EscapedAfter previous t)
    (hstarts : startsWithBracket t = true) :
    previous = some '\\' := by
  cases t with
  | nil =>
      contradiction
  | cons c t =>
      exact (escapedAfter_cons_iff.mp h).1 hstarts

/-- What is escaped comes with a backslash for each of its brackets. -/
theorem escapedAfter_escape (previous : Option Char) (s : List Char) :
    EscapedAfter previous (escape s) := by
  induction s generalizing previous with
  | nil =>
      intro before c after h
      exact absurd h.symm (List.append_ne_nil_of_right_ne_nil before (List.cons_ne_nil c after))
  | cons c s ih =>
      by_cases hbracket : isBracket c = true
      · have hback : isBracket '\\' = false := by decide
        rw [escape_bracket hbracket, escapedAfter_cons_iff, escapedAfter_cons_iff, hback]
        exact ⟨Bool.noConfusion, fun _ => rfl, ih (some c)⟩
      · rw [escape_other (Bool.eq_false_iff.mpr hbracket), escapedAfter_cons_iff]
        exact ⟨fun h => absurd h hbracket, ih (some c)⟩

/-- Escaping puts back the backslashes that were taken away, the one before the rest
of the text with them. -/
theorem EscapedAfter.escape_unescape
    {previous : Option Char} {t : List Char} (h : EscapedAfter previous t) :
    escape (unescape t) = if startsWithBracket t = true then '\\' :: t else t := by
  induction t generalizing previous with
  | nil =>
      rfl
  | cons c t ih =>
      obtain ⟨-, hrest⟩ := escapedAfter_cons_iff.mp h
      have hstarts : startsWithBracket t = true → c = '\\' := by
        intro ht
        exact Option.some.inj (hrest.eq_backslash ht)
      have htail := ih hrest
      rw [startsWithBracket, unescape]
      by_cases hbracket : isBracket c = true
      · -- a bracket is no backslash, so no other bracket can stand directly behind it
        have hback : c ≠ '\\' := by
          rintro rfl
          contradiction
        rw [if_neg fun ht => hback (hstarts ht)] at htail
        rw [if_neg fun hdrop => hback hdrop.1, if_pos hbracket, escape_bracket hbracket, htail]
      · rw [if_neg hbracket]
        by_cases hdrop : c = '\\' ∧ startsWithBracket t = true
        · rw [if_pos hdrop, htail, if_pos hdrop.2, hdrop.1]
        · rw [if_neg fun ht => hdrop ⟨hstarts ht, ht⟩] at htail
          rw [if_neg hdrop, escape_other (Bool.eq_false_iff.mpr hbracket), htail]

theorem Escaped.escape_unescape
    {t : List Char} (h : Escaped t) :
    escape (unescape t) = t := by
  have hafter := escaped_iff_escapedAfter_none.mp h
  have hstarts : ¬ startsWithBracket t = true := by
    intro ht
    have hprevious := hafter.eq_backslash ht
    contradiction
  rw [hafter.escape_unescape, if_neg hstarts]

theorem unescape_escape (s : List Char) :
    unescape (escape s) = s := by
  have hfree : s.getLast? = some '\\' → startsWithBracket [] = false := fun _ => rfl
  have happend := unescape_escape_append hfree
  rw [List.append_nil, unescape, List.append_nil] at happend
  exact happend

/-- Taking the escapes away undoes escaping; the escaped texts are those in which each
bracket stands behind a backslash, and on them escaping undoes taking the escapes
away. -/
theorem escape_inverse :
    (∀ s, unescape (escape s) = s) ∧
      (∀ t, (∃ s, escape s = t) ↔ Escaped t) ∧
        ∀ t, Escaped t → escape (unescape t) = t := by
  refine ⟨unescape_escape, ?_, fun t => Escaped.escape_unescape⟩
  intro t
  constructor
  · rintro ⟨s, rfl⟩
    exact escaped_iff_escapedAfter_none.mpr (escapedAfter_escape none s)
  · intro h
    exact ⟨unescape t, h.escape_unescape⟩

/-- Backslashes of the text itself, before a bracket and at the end, stay apart from
those that escape. -/
theorem escape_inverse_backslashes :
    let s : List Char := ['\\', '[', 'a', ']', '\\']
    let t : List Char := ['\\', '\\', '[', 'a', '\\', ']', '\\']
    unescape (escape s) = s ∧ Escaped t ∧ escape (unescape t) = t ∧ unescape t = s ∧
      ¬ Escaped s := by
  intro s t
  obtain ⟨hback, himage, hescaped⟩ := escape_inverse
  have ht : Escaped t := (himage t).mp ⟨s, rfl⟩
  refine ⟨hback s, ht, hescaped t ht, rfl, ?_⟩
  intro hs
  have hsame : escape (unescape s) = s := hescaped s hs
  exact absurd hsame (by decide)

end QueryFormula.Quote
