import QueryFormula.Proofs.Token.Closing

/-!
# Supplying a missing delimiter

A text that lacks a closing delimiter is read as if the delimiter came at its end.
Writing it there makes the same tokens and takes the error away, unless the text ends
in an odd run of backslashes: the last of them then takes the delimiter along, and it is
missing as before.  What stands before the unclosed token is not read differently, for
no lexeme goes on with a closing delimiter.
-/

namespace QueryFormula

open Quote

/-! ## One more closing character -/

namespace Delimiter

variable {close : Char} {s : List Char}

/-- Behind an odd run of backslashes a further closing character does not close. -/
theorem NeverCloses.concat
    (h : NeverCloses close s) (hodd : trailingBackslashes s % 2 = 1) :
    NeverCloses close (s ++ [close]) := by
  intro before after hspell
  rcases List.eq_nil_or_concat after with rfl | ⟨after, c, rfl⟩
  · rwa [← List.append_cancel_right hspell]
  · rw [List.concat_eq_append, ← List.cons_append, ← List.append_assoc] at hspell
    exact h before after (List.append_inj_left' hspell rfl)

/-- Behind an even run it does, and nothing has closed before. -/
theorem NeverCloses.closesAfter
    (h : NeverCloses close s) (heven : trailingBackslashes s % 2 = 0) :
    ClosesAfter close (s ++ [close]) s [] :=
  ⟨rfl, heven, h⟩

theorem stops_closing (d : Delimiter) :
    Stops [d.closing] := by
  intro c hc
  rw [← Option.mem_some.mp hc]
  cases d <;> decide

end Delimiter

namespace Fragment

theorem closed_of_split
    {c : Char} {rest : List Char} (h : (split c rest).2 ≠ []) :
    (split c rest).1.Closed := by
  rcases split_cases c rest with ⟨-, hsplit⟩ | ⟨-, hsplit⟩ | ⟨l, after, hl, hsplit⟩
  · rw [hsplit]
    trivial
  · rw [hsplit]
    trivial
  · rw [hsplit] at h ⊢
    by_contra hfault
    exact h (hl.eq_nil_of_fault hfault)

/-- What a text is cut into before something that is left of it does not depend on how
the text goes on, where its end is one that stops lexemes. -/
theorem Reaches.append
    {s u tail : List Char} {fs : List Fragment} (h : Reaches s fs u) (hu : u ≠ [])
    (hstops : Stops tail) :
    Reaches (s ++ tail) fs (u ++ tail) := by
  induction h with
  | start =>
      exact .start
  | @step before c rest after f _ hsplit ih =>
      have hclosed : (split c rest).1.Closed := by
        apply closed_of_split
        rw [hsplit]
        exact hu
      have hfurther := split_append hclosed hstops
      rw [hsplit] at hfurther
      exact .step (ih (List.cons_ne_nil c rest)) hfurther

/-- An opening character whose content leaves nothing makes the only fragment. -/
theorem ofText_opening
    {d : Delimiter} {s content : List Char} {after : Option (List Char)}
    (hcut : Delimiter.split d.closing s = (content, after)) (hafter : after.getD [] = []) :
    ofText (d.opening :: s) = [.lexeme (.delimited d content after.isSome)] := by
  rw [ofText_cons, split_opening, hcut, hafter, ofText_nil]

end Fragment

/-- The closing character makes a token one byte longer and no other token. -/
theorem Lexeme.width_delimited_true (d : Delimiter) (content : List Char) :
    Text.width (Lexeme.delimited d content true).text =
      Text.width (Lexeme.delimited d content false).text + 1 := by
  have hclosing : Text.width [d.closing] = 1 := by
    cases d <;> rfl
  have hclosed : (Lexeme.delimited d content true).text = d.opening :: content ++ [d.closing] :=
    rfl
  have hunclosed : (Lexeme.delimited d content false).text = d.opening :: content :=
    List.append_nil _
  rw [hclosed, hunclosed, Text.width_append, hclosing]

/-! ## Texts that lack a delimiter -/

/-- A text whose last fragment is a lexeme. -/
theorem tokenize_of_ofText
    {source : String} {fs : List Fragment} {l : Lexeme}
    (h : Fragment.ofText source.toList = fs ++ [.lexeme l]) :
    tokenize source =
      ⟨Fragment.tokens fs ++ [⟨l.kind, Text.width (fs.flatMap Fragment.text),
          Text.width (fs.flatMap Fragment.text) + Text.width l.text⟩],
        Fragment.errors fs ++
          (l.fault.map (⟨·, Text.width (fs.flatMap Fragment.text)⟩)).toList⟩ := by
  rw [tokenize, tokenizeText, h, Fragment.filterMap_locate_append_cons Fragment.token?_add,
    Fragment.filterMap_locate_append_cons Fragment.error?_add, Fragment.locate,
    List.filterMap_nil, List.filterMap_nil, List.map_nil, List.map_nil, List.append_nil,
    List.append_nil]
  rfl

/-- An error about a missing delimiter comes from an opening character behind which no
closing one is free. -/
theorem exists_reaches_of_isMissing
    {source : String} {e : TokenError} (he : e ∈ (tokenize source).errors)
    (hmissing : e.isMissing = true) :
    ∃ (d : Delimiter) (fs : List Fragment) (rest : List Char),
      Fragment.Reaches source.toList fs (d.opening :: rest) ∧
        Delimiter.NeverCloses d.closing rest ∧
          e = ⟨d.missing, Text.width (fs.flatMap Fragment.text)⟩ := by
  obtain ⟨p, f, hmem, hf⟩ := mem_errors_iff.mp he
  rcases Fragment.error?_eq_some_iff.mp hf with ⟨c, rfl, rfl⟩ | ⟨l, cause, rfl, hfault, rfl⟩
  · contradiction
  · obtain ⟨fs, c, rest, hreaches, rfl, hfirst⟩ := Fragment.reaches_of_mem_locate hmem
    have hl := Fragment.begins_of_split hfirst
    generalize (Fragment.split c rest).2 = after at hl
    cases hl with
    | unclosed d hcut =>
        obtain rfl := Delimiter.eq_of_split_eq_none hcut
        obtain rfl := Option.some.inj hfault
        exact ⟨d, fs, _, hreaches, (Delimiter.split_eq_none_iff d.closing_ne_backslash).mp hcut,
          rfl⟩
    | _ =>
        contradiction

/-- A text that lacks a delimiter at its end: what opens there, what is behind it, and
how the text is read, the last token and the last error apart. -/
structure Lacks (source : String) (d : Delimiter) (rest : List Char) (tokens : List Token)
    (token : Token) (errors : List TokenError) (e : TokenError) : Prop where
  opens : ∃ before, source.toList = before ++ d.opening :: rest ∧
    e = ⟨d.missing, Text.width before⟩
  reads : tokenize source = ⟨tokens ++ [token], errors ++ [e]⟩
  start : token.start = e.position

/-- A text that ends with an error about a missing delimiter, and the delimiter written
after it: behind an even run of backslashes the same tokens are read, the last of them
one byte longer, with the same errors but for that one; behind an odd run the error is
the last one still. -/
theorem tokenize_push_closing
    {source : String} {e : TokenError} (hlast : (tokenize source).errors.getLast? = some e)
    (hmissing : e.isMissing = true) :
    ∃ (d : Delimiter) (rest : List Char) (tokens : List Token) (token : Token)
      (errors : List TokenError),
      Lacks source d rest tokens token errors e ∧
      (trailingBackslashes rest % 2 = 0 → tokenize (source.push d.closing) =
        ⟨tokens ++ [{ token with stop := token.stop + 1 }], errors⟩) ∧
      (trailingBackslashes rest % 2 = 1 →
        (tokenize (source.push d.closing)).errors = errors ++ [e]) := by
  obtain ⟨d, fs, rest, hreaches, hnever, rfl⟩ :=
    exists_reaches_of_isMissing (List.mem_of_getLast? hlast) hmissing
  have hclose := d.closing_ne_backslash
  have hfragments : Fragment.ofText source.toList =
      fs ++ [.lexeme (.delimited d rest false)] := by
    have hcut := (Delimiter.split_eq_none_iff hclose).mpr hnever
    rw [hreaches.ofText_eq, Fragment.ofText_opening hcut rfl]
    rfl
  have hfurther : Fragment.ofText (source.push d.closing).toList =
      fs ++ Fragment.ofText (d.opening :: (rest ++ [d.closing])) := by
    rw [String.toList_push]
    exact (hreaches.append (List.cons_ne_nil _ _) d.stops_closing).ofText_eq
  have hlacks : Lacks source d rest _ _ _ _ :=
    ⟨⟨_, hreaches.source_eq, rfl⟩, tokenize_of_ofText hfragments, rfl⟩
  refine ⟨d, rest, _, _, _, hlacks, ?_, ?_⟩
  · intro heven
    have hcut := (Delimiter.split_eq_some_iff_closesAfter hclose).mpr (hnever.closesAfter heven)
    rw [Fragment.ofText_opening hcut rfl] at hfurther
    rw [tokenize_of_ofText hfurther, Option.isSome_some, Lexeme.width_delimited_true,
      ← Nat.add_assoc, Lexeme.kind_delimited, Lexeme.kind_delimited]
    exact congrArg (Tokenized.mk _) (List.append_nil _)
  · intro hodd
    have hcut := (Delimiter.split_eq_none_iff hclose).mpr (hnever.concat hodd)
    rw [Fragment.ofText_opening hcut rfl] at hfurther
    rw [tokenize_of_ofText hfurther]
    rfl

/-- What a text lacks is settled by the place of the error and by how it is read. -/
theorem Lacks.eq_of_reads
    {source : String} {d d' : Delimiter} {before rest rest' : List Char}
    {tokens tokens' : List Token} {token token' : Token} {errors errors' : List TokenError}
    {e : TokenError} (h : Lacks source d rest tokens token errors e)
    (hsource : source.toList = before ++ d'.opening :: rest')
    (hplace : e.position = Text.width before)
    (hreads : tokenize source = ⟨tokens' ++ [token'], errors' ++ [e]⟩) :
    d = d' ∧ rest = rest' ∧ tokens = tokens' ∧ token = token' ∧ errors = errors' := by
  obtain ⟨before', hsource', rfl⟩ := h.opens
  obtain ⟨-, hrest⟩ := Text.append_inj_of_width (hsource'.symm.trans hsource) hplace
  obtain ⟨hopening, rfl⟩ := List.cons.inj hrest
  obtain ⟨htokens, herrors⟩ := Tokenized.mk.inj (h.reads.symm.trans hreads)
  obtain ⟨rfl, htoken⟩ := List.append_inj' htokens rfl
  obtain ⟨rfl, -⟩ := List.append_inj' herrors rfl
  refine ⟨?_, rfl, rfl, (List.cons.inj htoken).1, rfl⟩
  revert hopening
  cases d <;> cases d' <;> decide

/-- Behind two backslashes a quote closes the literal before it; behind one it is
missing still. -/
theorem tokenize_push_closing_backslashes :
    (tokenize "#\"\\\\").errors.getLast? = some ⟨.missingQuote, 1⟩ ∧
      tokenize ("#\"\\\\".push '"') = ⟨[⟨.text "\\\\", 1, 5⟩], [⟨.unexpected '#', 0⟩]⟩ ∧
      (tokenize "#\"\\").errors.getLast? = some ⟨.missingQuote, 1⟩ ∧
      (tokenize ("#\"\\".push '"')).errors = [⟨.unexpected '#', 0⟩, ⟨.missingQuote, 1⟩] := by
  have heven : tokenize "#\"\\\\" =
      ⟨[] ++ [⟨.text "\\\\", 1, 4⟩], [⟨.unexpected '#', 0⟩] ++ [⟨.missingQuote, 1⟩]⟩ := by
    decide +kernel
  have hodd : tokenize "#\"\\" =
      ⟨[] ++ [⟨.text "\\", 1, 3⟩], [⟨.unexpected '#', 0⟩] ++ [⟨.missingQuote, 1⟩]⟩ := by
    decide +kernel
  have hopens : "#\"\\\\".toList = ['#'] ++ Delimiter.double.opening :: ['\\', '\\'] := by
    decide
  have hopens' : "#\"\\".toList = ['#'] ++ Delimiter.double.opening :: ['\\'] := by
    decide
  have hlast : (tokenize "#\"\\\\").errors.getLast? = some ⟨.missingQuote, 1⟩ := by
    rw [heven]
    rfl
  have hlast' : (tokenize "#\"\\").errors.getLast? = some ⟨.missingQuote, 1⟩ := by
    rw [hodd]
    rfl
  refine ⟨hlast, ?_, hlast', ?_⟩
  · obtain ⟨d, rest, tokens, token, errors, hlacks, hclosed, -⟩ :=
      tokenize_push_closing hlast rfl
    obtain ⟨rfl, rfl, rfl, rfl, rfl⟩ := hlacks.eq_of_reads hopens rfl heven
    exact hclosed (by decide)
  · obtain ⟨d, rest, tokens, token, errors, hlacks, -, hunclosed⟩ :=
      tokenize_push_closing hlast' rfl
    obtain ⟨rfl, rfl, rfl, rfl, rfl⟩ := hlacks.eq_of_reads hopens' rfl hodd
    exact hunclosed (by decide)

end QueryFormula
