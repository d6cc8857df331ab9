import QueryFormula.Proofs.Quote.Literal
import QueryFormula.Proofs.Token.Scan

/-!
# Quoted texts within a formula

A literal or a name in brackets scans as one token whatever comes after it.  For
a name the brackets in it are escaped and the backslashes are not, so it must not
bring backslashes of its own before a closing bracket: an odd run there takes the
escape along and lets the bracket close, and a backslash at the end is taken for
the escape of the closing bracket.
-/

namespace QueryFormula
namespace Quote

/-- Every closing bracket in the text stands behind an even run of backslashes,
and the text does not end in a backslash. -/
structure Bracketable (s : List Char) : Prop where
  inside : ∀ before after, s = before ++ ']' :: after →
    trailingBackslashes before % 2 = 0
  atEnd : s.getLast? ≠ some '\\'

/-- Without backslashes there is nothing to look for. -/
theorem bracketable_of_not_mem
    {s : List Char} (h : '\\' ∉ s) :
    Bracketable s where
  inside := by
    intro before after hs
    rw [trailingBackslashes_eq_zero]
    intro hlast
    apply h
    rw [hs]
    exact List.mem_append_left _ (List.mem_of_getLast? hlast)
  atEnd := fun hlast => h (List.mem_of_getLast? hlast)

theorem unescaping_of_not_mem
    {mark : Char} {s : List Char} (h : '\\' ∉ s) :
    Unescaping mark s := by
  intro before c after hs
  rw [hs] at h
  exact absurd (List.mem_append_right _ List.mem_cons_self) h

theorem escape_bracket
    {c : Char} (hc : isBracket c = true) (rest : List Char) :
    escape (c :: rest) = '\\' :: c :: escape rest := by
  rw [escape, if_pos hc]

theorem escape_other
    {c : Char} (hc : isBracket c = false) (rest : List Char) :
    escape (c :: rest) = c :: escape rest := by
  rw [escape, hc]
  rfl

theorem startsWithBracket_escape_cons
    (c : Char) (s rest : List Char) :
    startsWithBracket (escape (c :: s) ++ rest) = false := by
  cases hc : isBracket c with
  | true =>
      rw [escape_bracket hc]
      rfl
  | false =>
      rw [escape_other hc, List.cons_append, startsWithBracket, hc]

/-- An escaped text holds together between brackets exactly when the text has no
odd run of backslashes before a closing bracket or at its end.  What was read
before it decides whether its first character is taken along. -/
theorem staysOpen_escape_iff (done s : List Char) :
    Delimiter.staysOpen ']' (trailingBackslashes done % 2 == 1) (escape s) = true ↔
      (∀ before after, s = before ++ ']' :: after →
        trailingBackslashes (done ++ before) % 2 = 0) ∧
        trailingBackslashes (done ++ s) % 2 = 0 := by
  have hclosing : ']' ≠ '\\' := by decide
  induction s generalizing done with
  | nil =>
      have hnone :
          ∀ before after, ([] : List Char) = before ++ ']' :: after →
            trailingBackslashes (done ++ before) % 2 = 0 := by
        intro before after hs
        simp at hs
      rw [escape, List.append_nil, Delimiter.staysOpen, Bool.not_eq_true', beq_eq_false_iff_ne]
      constructor
      · intro h
        exact ⟨hnone, by omega⟩
      · rintro ⟨-, hend⟩
        omega
  | cons c rest ih =>
      have hrest :
          Delimiter.staysOpen ']' (trailingBackslashes (done ++ [c]) % 2 == 1) (escape rest)
              = true ↔
            (∀ before after, rest = before ++ ']' :: after →
              trailingBackslashes (done ++ c :: before) % 2 = 0) ∧
              trailingBackslashes (done ++ c :: rest) % 2 = 0 := by
        simpa only [List.append_assoc, List.singleton_append] using ih (done ++ [c])
      rw [forall_append_cons_iff, and_assoc, ← hrest, List.append_nil]
      by_cases hback : c = '\\'
      · subst hback
        rw [escape_other (by decide), Delimiter.staysOpen_backslash hclosing,
          trailingBackslashes_append_backslash, odd_succ]
        exact (and_iff_right fun h => absurd h hclosing.symm).symm
      · rw [trailingBackslashes_append_other hback]
        by_cases hbracket : isBracket c = true
        · -- the backslash that escapes the bracket ends the run before it
          rw [escape_bracket hbracket, Delimiter.staysOpen_backslash hclosing]
          rcases Nat.mod_two_eq_zero_or_one (trailingBackslashes done) with heven | hodd
          · rw [heven]
            exact (and_iff_right fun _ => rfl).symm
          · rw [hodd]
            by_cases hc : c = ']'
            · subst hc
              simp [Delimiter.staysOpen]
            · have hother :
                  Delimiter.staysOpen ']' (!1 == 1) (c :: escape rest) =
                    Delimiter.staysOpen ']' (0 % 2 == 1) (escape rest) :=
                Delimiter.staysOpen_other hc hback false _
              rw [hother]
              exact (and_iff_right fun h => absurd h hc).symm
        · have hc : c ≠ ']' := by
            rintro rfl
            exact hbracket rfl
          rw [escape_other (Bool.eq_false_iff.mpr hbracket), Delimiter.staysOpen_other hc hback]
          exact (and_iff_right fun h => absurd h hc).symm

/-- Taking the escapes away gives the text back, unless a backslash at its end
meets a bracket after it. -/
theorem unescape_escape_append
    {s rest : List Char} (h : s.getLast? = some '\\' → startsWithBracket rest = false) :
    unescape (escape s ++ rest) = s ++ unescape rest := by
  induction s with
  | nil =>
      rfl
  | cons c s ih =>
      have htail : unescape (escape s ++ rest) = s ++ unescape rest := by
        apply ih
        intro hlast
        apply h
        rw [List.getLast?_cons, hlast]
        rfl
      by_cases hbracket : isBracket c = true
      · have hback : c ≠ '\\' := by
          rintro rfl
          contradiction
        rw [escape_bracket hbracket, List.cons_append, List.cons_append, unescape,
          if_pos ⟨rfl, hbracket⟩, unescape, if_neg (fun h => hback h.1), htail,
          List.cons_append]
      · have hkept : ¬ (c = '\\' ∧ startsWithBracket (escape s ++ rest) = true) := by
          rintro ⟨rfl, hstarts⟩
          by_cases hs : s = []
          · subst hs
            have hfree : startsWithBracket rest = false := h rfl
            rw [escape, List.nil_append, hfree] at hstarts
            contradiction
          · obtain ⟨d, s, rfl⟩ := List.exists_cons_of_ne_nil hs
            rw [startsWithBracket_escape_cons] at hstarts
            contradiction
        rw [escape_other (Bool.eq_false_iff.mpr hbracket), List.cons_append, unescape,
          if_neg hkept, htail, List.cons_append]

theorem escape_append (s t : List Char) :
    escape (s ++ t) = escape s ++ escape t := by
  induction s with
  | nil =>
      rfl
  | cons c s ih =>
      by_cases hbracket : isBracket c = true
      · rw [List.cons_append, escape_bracket hbracket, escape_bracket hbracket, ih]
        rfl
      · have hother : isBracket c = false := Bool.eq_false_iff.mpr hbracket
        rw [List.cons_append, escape_other hother, escape_other hother, ih]
        rfl

/-- What stands between brackets is what is left of it without the escapes, the
closing bracket read with it. -/
theorem unquoteText_bracket
    {content value : List Char} (h : unescape (content ++ [']']) = value ++ [']']) :
    unquoteText ('[' :: content ++ [']']) = some value := by
  have hother : '[' ≠ '\\' := by decide
  have hopening : unescape ('[' :: content ++ [']']) = '[' :: value ++ [']'] := by
    rw [List.cons_append, unescape, if_neg fun h => hother h.1, h, List.cons_append]
  have hunquote : unquoteText ('[' :: content ++ [']']) =
      some (interior (unescape ('[' :: content ++ [']']))) := rfl
  rw [hunquote, hopening, interior_cons_append]

theorem contentValue_bracket
    {content value : List Char} (h : unescape (content ++ [']']) = value ++ [']']) :
    Lexeme.contentValue .bracket content = String.ofList value := by
  have hvalue : Lexeme.contentValue .bracket content =
      String.ofList ((unquoteText ('[' :: content ++ [']'])).getD []) := rfl
  rw [hvalue, unquoteText_bracket h, Option.getD_some]

/-- A backslash at the end of a text is taken for the escape of the bracket that
closes it. -/
theorem unescape_escape_closing_of_backslash (init : List Char) :
    unescape (escape (init ++ ['\\']) ++ [']']) = init ++ [']'] := by
  have hescape : escape (init ++ ['\\']) = escape init ++ ['\\'] := by
    rw [escape_append]
    rfl
  rw [hescape, List.append_assoc]
  exact unescape_escape_append fun _ => rfl

theorem unescape_escape_closing
    {s : List Char} (h : s.getLast? ≠ some '\\') :
    unescape (escape s ++ [']']) = s ++ [']'] :=
  unescape_escape_append fun hlast => absurd hlast h

/-- A name comes back from between brackets unless it ends in a backslash, which
would be taken for the escape of the closing bracket. -/
theorem contentValue_escape_iff
    {name : String} :
    Lexeme.contentValue .bracket (escape name.toList) = name ↔
      name.toList.getLast? ≠ some '\\' := by
  constructor
  · intro h hlast
    obtain ⟨init, hname⟩ := List.getLast?_eq_some_iff.mp hlast
    rw [hname, contentValue_bracket (unescape_escape_closing_of_backslash init)] at h
    have hsame : init = init ++ ['\\'] := by
      rw [← hname, ← h, String.toList_ofList]
    exact List.cons_ne_nil _ _ (List.append_right_eq_self.mp hsame.symm)
  · intro hend
    rw [contentValue_bracket (unescape_escape_closing hend), String.ofList_toList]

/-- A text without escapes of its own brings no quote behind a backslash. -/
theorem contained_of_unescaping
    {mark : Char} {s : List Char} (h : Unescaping mark s)
    (hend : trailingBackslashes s % 2 = 0) :
    Contained mark s where
  inside := by
    rintro before after hs ⟨hne, -⟩
    by_cases hlast : before.getLast? = some '\\'
    · obtain ⟨before', rfl⟩ := List.getLast?_eq_some_iff.mp hlast
      rw [List.append_assoc, List.singleton_append] at hs
      exact h before' mark after hs List.mem_cons_self
    · exact hne (trailingBackslashes_eq_zero hlast)
  atEnd := hend

end Quote

namespace Fragment

/-- A name in brackets, before anything. -/
theorem scans_bracketed
    {name : String} (h : Quote.Bracketable name.toList) (rest : List Char) :
    Scans rest (Style.bracket.quoteText name.toList) [.bracketed name] := by
  have hopen :
      Delimiter.staysOpen ']' false (Quote.escape name.toList) = true :=
    (Quote.staysOpen_escape_iff [] name.toList).mpr ⟨h.inside, by
      rw [List.nil_append, Quote.trailingBackslashes_eq_zero h.atEnd]⟩
  have hscans := scans_delimited .bracket hopen rest
  rw [Lexeme.kind, Quote.contentValue_escape_iff.mpr h.atEnd] at hscans
  exact hscans

/-- A quoted literal, before anything. -/
theorem scans_literal
    {style : Style} {mark : Char} (hmark : style.mark? = some mark) {s : String}
    (h : Quote.Unescaping mark s.toList)
    (hend : Quote.trailingBackslashes s.toList % 2 = 0) (rest : List Char) :
    Scans rest (style.quoteText s.toList) [.text s] := by
  have hquote := Style.eq_of_mark? hmark
  obtain ⟨d, hclosing, htext, hkind⟩ := Style.exists_delimiter_of_mark? hmark
  have hopen : Delimiter.staysOpen d.closing false (Quote.quoteBody mark false s.toList) = true := by
    rw [hclosing]
    apply (Quote.staysOpen_quoteBody_iff hquote [] s.toList).mpr
    exact Quote.containedAfter_nil_iff.mpr (Quote.contained_of_unescaping h hend)
  have hvalue :
      Quote.unquoteBody mark (Quote.quoteBody mark false s.toList) = s.toList := by
    rw [(Quote.unquoteBody_quoteBody hquote s.toList).1]
    exact Quote.unquoteBody_eq_self_iff.mpr h
  have hscans := scans_delimited d hopen rest
  rw [hkind, hvalue, String.ofList_toList] at hscans
  rw [htext]
  exact hscans

end Fragment
end QueryFormula
