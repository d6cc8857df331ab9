import QueryFormula.Proofs.Quote.Backslashes
import QueryFormula.Proofs.Quote.RoundTrip
import QueryFormula.Proofs.Token.Longest
import QueryFormula.Proofs.Token.Slice

/-!
# Where delimited tokens close

A literal or a name goes on until its closing character stands behind an even run of
backslashes: then the run is spent on itself, and the last of its backslashes does not
take the character along.  Nothing else in the content matters.  Without such a
character the token takes all of the text, and what it stands for is what it would with
the character supplied.
-/

namespace QueryFormula

open Quote

/-! ## The first free closing character -/

namespace Delimiter

/-- The first closing character behind an even run of backslashes, by the content
before it and the text after it. -/
structure ClosesAfter (close : Char) (s content after : List Char) : Prop where
  spell : s = content ++ close :: after
  even : trailingBackslashes content % 2 = 0
  first : ∀ before after', content = before ++ close :: after' →
    trailingBackslashes before % 2 = 1

/-- Each closing character stands behind an odd run of backslashes. -/
def NeverCloses (close : Char) (s : List Char) : Prop :=
  ∀ before after, s = before ++ close :: after → trailingBackslashes before % 2 = 1

variable {close : Char} {s content after : List Char}

theorem split_eq_some_iff_closesAfter (hclose : close ≠ '\\') :
    split close s = (content, some after) ↔ ClosesAfter close s content after := by
  have hopen := staysOpen_iff hclose [] content
  rw [split_eq_some_iff hclose]
  constructor
  · rintro ⟨hspell, hcontent⟩
    obtain ⟨hfirst, heven⟩ := hopen.mp hcontent
    exact ⟨hspell, heven, hfirst⟩
  · intro h
    exact ⟨h.spell, hopen.mpr ⟨h.first, h.even⟩⟩

/-- Among the closing characters behind even runs of backslashes there is a first. -/
theorem exists_closesAfter
    {before : List Char} (hspell : s = before ++ close :: after)
    (heven : trailingBackslashes before % 2 = 0) :
    ∃ content after', ClosesAfter close s content after' := by
  induction hlength : before.length using Nat.strong_induction_on generalizing before after with
  | _ n ih =>
      by_cases hfirst : ∀ u v, before = u ++ close :: v → trailingBackslashes u % 2 = 1
      · exact ⟨before, after, hspell, heven, hfirst⟩
      · push Not at hfirst
        obtain ⟨u, v, rfl, hu⟩ := hfirst
        have hearlier : s = u ++ close :: (v ++ close :: after) := by
          rw [hspell, List.append_assoc, List.cons_append]
        apply ih u.length _ hearlier (by omega) rfl
        rw [← hlength, List.length_append, List.length_cons]
        omega

theorem split_eq_none_iff (hclose : close ≠ '\\') :
    split close s = (s, none) ↔ NeverCloses close s := by
  rcases hcut : split close s with ⟨content, _ | after⟩
  · obtain rfl := eq_of_split_eq_none hcut
    refine iff_of_true rfl ?_
    intro before after hspell
    by_contra hodd
    obtain ⟨content', after', hcloses⟩ := exists_closesAfter hspell (by omega)
    rw [(split_eq_some_iff_closesAfter hclose).mpr hcloses] at hcut
    exact Option.some_ne_none after' (Prod.mk.inj hcut).2
  · have hcloses := (split_eq_some_iff_closesAfter hclose).mp hcut
    apply iff_of_false
    · intro h
      exact Option.some_ne_none after (Prod.mk.inj h).2
    · intro hnever
      have hodd := hnever content after hcloses.spell
      have heven := hcloses.even
      omega

end Delimiter

/-! ## What delimited tokens stand for -/

/-- The token between delimiters that stands for a value. -/
def Delimiter.tokenKind : Delimiter → String → TokenKind
  | .bracket => .bracketed
  | _ => .text

theorem Lexeme.kind_delimited (d : Delimiter) (content : List Char) (closed : Bool) :
    (Lexeme.delimited d content closed).kind = d.tokenKind (contentValue d content) := by
  cases d <;> rfl

/-- With both delimiters a text can be unquoted. -/
theorem unquote_delimited (d : Delimiter) (content : List Char) :
    unquote (String.ofList (d.opening :: content ++ [d.closing])) =
      .ok (Lexeme.contentValue d content) := by
  obtain ⟨value, hvalue⟩ :
      ∃ value, unquoteText (d.opening :: content ++ [d.closing]) = some value := by
    cases d <;> exact ⟨_, rfl⟩
  have hunquote : unquote (String.ofList (d.opening :: content ++ [d.closing])) =
      .ok (String.ofList value) := by
    apply unquote_of_unquoteText
    rw [String.toList_ofList, hvalue]
  rw [hunquote, Lexeme.contentValue, hvalue, Option.getD_some]

/-! ## Fragments at a place -/

namespace Fragment

/-- Cutting up a text comes past each of its fragments. -/
theorem exists_reaches
    {s : List Char} {fs gs : List Fragment} (h : ofText s = fs ++ gs) :
    ∃ u, Reaches s fs u ∧ ofText u = gs := by
  induction fs using List.reverseRecOn generalizing gs with
  | nil =>
      exact ⟨s, .start, h⟩
  | append_singleton fs f ih =>
      rw [List.append_assoc, List.singleton_append] at h
      obtain ⟨u, hreaches, hu⟩ := ih h
      obtain ⟨c, rest, rfl, hfirst, hrest⟩ := exists_cons_of_ofText hu
      exact ⟨(split c rest).2, .step hreaches (Prod.ext hfirst rfl), hrest⟩

/-- What is past and what is left spell the text. -/
theorem Reaches.source_eq
    {s u : List Char} {fs : List Fragment} (h : Reaches s fs u) :
    s = fs.flatMap text ++ u := by
  induction h with
  | start =>
      rfl
  | @step before c rest after f _ hsplit ih =>
      have hspell := text_split c rest
      rw [hsplit] at hspell
      rw [ih, List.flatMap_append, List.flatMap_singleton, List.append_assoc, hspell]

/-- Cutting up a text comes to each place where a fragment stands, and cuts it off
there. -/
theorem reaches_of_mem_locate
    {s : List Char} {p : Nat} {f : Fragment} (hmem : (p, f) ∈ locate 0 (ofText s)) :
    ∃ fs c rest, Reaches s fs (c :: rest) ∧ p = Text.width (fs.flatMap text) ∧
      (split c rest).1 = f := by
  obtain ⟨fs, gs, hfragments, hplace⟩ := mem_locate_iff.mp hmem
  obtain ⟨u, hreaches, hu⟩ := exists_reaches hfragments
  obtain ⟨c, rest, rfl, hfirst, -⟩ := exists_cons_of_ofText hu
  rw [Nat.zero_add] at hplace
  exact ⟨fs, c, rest, hreaches, hplace, hfirst⟩

/-- Where an opening character stands at the place of a fragment, the fragment is the
literal or the name that it opens, closed or not. -/
theorem delimited_of_mem_locate
    {s before rest : List Char} {d : Delimiter} (hs : s = before ++ d.opening :: rest)
    {f : Fragment} (hmem : (Text.width before, f) ∈ locate 0 (ofText s)) :
    (∃ content after, Delimiter.ClosesAfter d.closing rest content after ∧
      f = .lexeme (.delimited d content true)) ∨
    (Delimiter.NeverCloses d.closing rest ∧ f = .lexeme (.delimited d rest false)) := by
  obtain ⟨fs, c, rest', hreaches, hwidth, rfl⟩ := reaches_of_mem_locate hmem
  obtain ⟨-, hrest⟩ := Text.append_inj_of_width (hs.symm.trans hreaches.source_eq) hwidth
  obtain ⟨rfl, rfl⟩ := List.cons.inj hrest
  have hclose := d.closing_ne_backslash
  rw [split_opening]
  rcases hcut : Delimiter.split d.closing rest with ⟨content, _ | after⟩
  · obtain rfl := Delimiter.eq_of_split_eq_none hcut
    exact .inr ⟨(Delimiter.split_eq_none_iff hclose).mp hcut, rfl⟩
  · exact .inl ⟨content, after, (Delimiter.split_eq_some_iff_closesAfter hclose).mp hcut, rfl⟩

end Fragment

/-! ## Delimited tokens -/

open Delimiter in
/-- A token that begins with an opening character ends after the first closing one
that stands behind an even run of backslashes, and nothing is wrong with it.  Where none
does, the token goes on to the end of the text, and the missing delimiter is the only
one and is reported at the token's place.  The token stands for what its text comes
back as when it is unquoted, the missing delimiter supplied. -/
theorem tokenize_delimited
    {source : String} {token : Token} (htoken : token ∈ (tokenize source).tokens)
    {d : Delimiter} {before rest : List Char}
    (hsource : source.toList = before ++ d.opening :: rest)
    (hstart : token.start = Text.width before) :
    (∃ content after value, ClosesAfter d.closing rest content after ∧
      token.stop = Text.width (before ++ d.opening :: content ++ [d.closing]) ∧
      (∀ e ∈ (tokenize source).errors, e.position ≠ token.start) ∧
      unquote (token.slice source) = .ok value ∧ token.kind = d.tokenKind value) ∨
    (∃ value, NeverCloses d.closing rest ∧
      token.stop = source.utf8ByteSize ∧
      (tokenize source).errors.filter TokenError.isMissing = [⟨d.missing, token.start⟩] ∧
      unquote ((token.slice source).push d.closing) = .ok value ∧
        token.kind = d.tokenKind value) := by
  obtain ⟨p, l, hmem, rfl⟩ := mem_tokens_iff.mp htoken
  obtain rfl : p = Text.width before := hstart
  rcases Fragment.delimited_of_mem_locate hsource hmem with
    ⟨content, after, hcloses, hl⟩ | ⟨hnever, hl⟩
  · obtain rfl := Fragment.lexeme.inj hl
    have htext : (Lexeme.delimited d content true).text = d.opening :: content ++ [d.closing] :=
      rfl
    refine .inl ⟨content, after, _, hcloses, ?_, ?_, ?_, Lexeme.kind_delimited d content true⟩
    · rw [List.append_assoc, Text.width_append, htext]
    · have hnone := errors_filter_eq hmem
      intro e he hposition
      exact List.filter_eq_nil_iff.mp hnone e he (beq_iff_eq.mpr hposition)
    · rw [slice_of_mem_locate hmem, htext, unquote_delimited]
  · obtain rfl := Fragment.lexeme.inj hl
    have htext : (Lexeme.delimited d rest false).text = d.opening :: rest :=
      List.append_nil _
    have herror : ⟨d.missing, Text.width before⟩ ∈ (tokenize source).errors :=
      mem_errors_iff.mpr ⟨_, _, hmem, rfl⟩
    have hmissing : TokenError.isMissing ⟨d.missing, Text.width before⟩ = true :=
      Fragment.isMissing_of_fault (l := .delimited d rest false) rfl _
    have hsupplied : (String.ofList (d.opening :: rest)).push d.closing =
        String.ofList (d.opening :: rest ++ [d.closing]) := by
      rw [← String.toList_inj, String.toList_push, String.toList_ofList, String.toList_ofList]
    refine .inr ⟨_, hnever, ?_, errors_filter_isMissing herror hmissing, ?_,
      Lexeme.kind_delimited d rest false⟩
    · rw [← Text.width_toList, hsource, Text.width_append, htext]
    · rw [slice_of_mem_locate hmem, htext, hsupplied, unquote_delimited]

/-- A literal that an escaped quote does not close and a quote behind two backslashes
does, and a name whose only bracket is escaped. -/
theorem tokenize_delimited_backslashes :
    let source := "é'it\\'s\\\\'+[a\\]"
    let literal : Token := ⟨.text "it's\\\\", 2, 11⟩
    let name : Token := ⟨.bracketed "a]", 12, 16⟩
    literal ∈ (tokenize source).tokens ∧ name ∈ (tokenize source).tokens ∧
      unquote "'it\\'s\\\\'" = .ok "it's\\\\" ∧
      Delimiter.NeverCloses ']' ['a', '\\', ']'] ∧ unquote "[a\\]]" = .ok "a]" ∧
      (tokenize source).errors.filter TokenError.isMissing = [⟨.missingBracket, 12⟩] := by
  intro source literal name
  have hwhole : tokenize source =
      ⟨[⟨.word "é", 0, 2⟩, literal, ⟨.operator (.binary .plus), 11, 12⟩, name],
        [⟨.missingBracket, 12⟩]⟩ := by
    decide +kernel
  have hliteral : literal ∈ (tokenize source).tokens := by
    rw [hwhole]
    decide
  have hname : name ∈ (tokenize source).tokens := by
    rw [hwhole]
    decide
  have hopens : source.toList = ['é'] ++ Delimiter.single.opening ::
      ['i', 't', '\\', '\'', 's', '\\', '\\', '\'', '+', '[', 'a', '\\', ']'] := by
    decide
  have hopens' : source.toList =
      ['é', '\'', 'i', 't', '\\', '\'', 's', '\\', '\\', '\'', '+'] ++
        Delimiter.bracket.opening :: ['a', '\\', ']'] := by
    decide
  have hslice : literal.slice source = "'it\\'s\\\\'" := by
    decide +kernel
  have hslice' : (name.slice source).push Delimiter.bracket.closing = "[a\\]]" := by
    decide +kernel
  have hunquote : unquote "'it\\'s\\\\'" = .ok "it's\\\\" := by
    rcases tokenize_delimited hliteral hopens rfl with
      ⟨content, after, value, -, -, -, hvalue, hkind⟩ | ⟨value, -, hstop, -⟩
    · rw [← hslice, hvalue, TokenKind.text.inj hkind]
    · exact absurd hstop (by decide)
  rcases tokenize_delimited hname hopens' rfl with
    ⟨content, after, value, -, -, hnone, -⟩ | ⟨value, hnever, -, hmissing, hvalue, hkind⟩
  · rw [hwhole] at hnone
    exact absurd rfl (hnone _ List.mem_cons_self)
  · rw [hslice'] at hvalue
    refine ⟨hliteral, hname, hunquote, hnever, ?_, hmissing⟩
    rw [hvalue, TokenKind.bracketed.inj hkind]

end QueryFormula
