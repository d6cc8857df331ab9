import QueryFormula.Proofs.Formula.Tokens

/-!
# Names read back

A name stands bare in a formula, or in brackets.  What decides how it is written
and what decides how it is read are different rules: a word may begin a number or
be a keyword in other letters, and a backslash of the name takes along the one
that escapes a bracket.  The names that come back as they are, and no others, are
told apart here.
-/

namespace QueryFormula

/-! ## Bare names -/

theorem wordKind_eq_word_iff
    {word : List Char} :
    Lexeme.wordKind word = .word (String.ofList word) ↔
      String.ofList (Text.lowerCase word) ∉ keywords := by
  constructor
  · intro hkind hmem
    simp only [keywords, List.mem_cons, List.not_mem_nil, or_false] at hmem
    rw [Lexeme.wordKind] at hkind
    rcases hmem with h | h | h | h | h <;>
    · rw [h] at hkind
      contradiction
  · exact wordKind_of_not_mem_keywords

/-- A text that begins and ends with a word of its own is that word alone. -/
theorem plainWord_of_begins
    {c : Char} {rest : List Char} {l : Lexeme} {name : String}
    (hname : name.toList = c :: rest) (h : Lexeme.Begins c rest l [])
    (hkind : l.kind = .word name) :
    PlainWord name := by
  generalize hafter : ([] : List Char) = after at h
  cases h with
  | word hstart =>
      have htake : rest.takeWhile Text.isWordChar = rest := by
        have hspell := List.takeWhile_append_dropWhile (p := Text.isWordChar) (l := rest)
        rwa [← hafter, List.append_nil] at hspell
      have hword : ∀ d ∈ rest, Text.isWordChar d = true := by
        rw [← htake]
        exact List.all_eq_true.mp List.all_takeWhile
      refine ⟨⟨c, rest, hname, hstart, hword⟩, ?_⟩
      rw [htake, ← hname] at hkind
      apply wordKind_eq_word_iff.mp
      rw [String.ofList_toList]
      exact hkind
  | closed d _ =>
      cases d <;> contradiction
  | unclosed d _ =>
      cases d <;> contradiction
  | number hstarts =>
      rw [Lexeme.kind, NumberText.kind] at hkind
      split at hkind <;> contradiction
  | _ =>
      contradiction

/-- A text is read as the name that it spells exactly when it is a plain word. -/
theorem tokenize_word_iff
    {name : String} (hhead : ∀ c ∈ name.toList.head?, Text.isBlank c = false)
    (hlast : ∀ c ∈ name.toList.getLast?, Text.isBlank c = false) :
    (tokenize name).Single (.word name) ↔ PlainWord name := by
  constructor
  · intro h
    rw [tokenize, tokenizeText_single_iff hhead hlast, tokenizeText_eq_single_iff] at h
    obtain ⟨l, hfragments, hkind, -⟩ := h
    obtain ⟨c, rest, hname, hfirst, hnil⟩ := Fragment.exists_cons_of_ofText hfragments
    have hl := Fragment.begins_of_split hfirst
    have hafter : (Fragment.split c rest).2 = [] := by
      rw [← Fragment.flatMap_text_ofText (Fragment.split c rest).2, hnil, List.flatMap_nil]
    rw [hafter] at hl
    exact plainWord_of_begins hname hl hkind
  · intro h
    have hends : Fragment.Ends [] := by
      intro c hc
      exact absurd hc (Option.not_mem_none c)
    exact (Fragment.scans_plainWord h hends).tokenizeText

/-! ## Names in brackets -/

/-- What makes a name come back from between brackets. -/
theorem Quote.bracketable_iff
    {s : List Char} :
    Bracketable s ↔
      Delimiter.staysOpen ']' false (escape s) = true ∧ s.getLast? ≠ some '\\' := by
  have hopen := staysOpen_escape_iff [] s
  simp only [List.nil_append] at hopen
  constructor
  · intro h
    have heven : trailingBackslashes s % 2 = 0 := by
      rw [trailingBackslashes_eq_zero h.atEnd]
    exact ⟨hopen.mpr ⟨h.inside, heven⟩, h.atEnd⟩
  · rintro ⟨hstays, hend⟩
    exact ⟨(hopen.mp hstays).1, hend⟩

/-- A name in brackets is read as that name exactly when it brings no backslash
of its own to a closing bracket. -/
theorem tokenize_bracket_iff (name : String) :
    tokenize (Style.bracket.quote name) =
        ⟨[⟨.bracketed name, 0, (Style.bracket.quote name).utf8ByteSize⟩], []⟩ ↔
      Quote.Bracketable name.toList := by
  have htext : (Style.bracket.quote name).toList =
      '[' :: Quote.escape name.toList ++ [']'] := by
    rw [Style.quote, String.toList_ofList, Style.quoteText]
  have htoken := tokenizeText_delimited_iff .bracket (Quote.escape name.toList) (.bracketed name)
  rw [tokenize, ← Text.width_toList, htext, Quote.bracketable_iff,
    ← Quote.contentValue_escape_iff, eq_comm (a := Lexeme.contentValue _ _)]
  rw [Lexeme.kind, TokenKind.bracketed.injEq] at htoken
  exact htoken

namespace Dialect

/-- No name has a blank at either end of its text. -/
theorem isBlank_ends_formatName
    {dialect : Dialect} (hnames : dialect.quoting.names = .bracket) (name : String) :
    (∀ c ∈ (dialect.formatName name).toList.head?, Text.isBlank c = false) ∧
      ∀ c ∈ (dialect.formatName name).toList.getLast?, Text.isBlank c = false := by
  rw [formatName]
  by_cases hbare : dialect.writesBare name = true
  · have hplain := (alphanum_of_writesBare hbare).2
    rw [if_pos hbare]
    constructor
    · intro c hc
      exact Text.isBlank_of_alphanum (hplain c (List.mem_of_head? hc))
    · intro c hc
      exact Text.isBlank_of_alphanum (hplain c (List.mem_of_getLast? hc))
  · rw [if_neg hbare, hnames, Style.quote, String.toList_ofList, Style.quoteText]
    constructor
    · intro c hc
      rw [← Option.mem_some.mp hc]
      decide
    · intro c hc
      rw [List.getLast?_concat] at hc
      rw [← Option.mem_some.mp hc]
      decide

/-- A bare name is read as that name exactly when it begins with no digit and is
no keyword in any letters; a name in brackets, exactly when no odd run of
backslashes stands before a closing bracket in it and none at its end.  Whatever
single token a name is read as spans all of its text. -/
theorem tokenize_formatName_iff
    {dialect : Dialect} (hnames : dialect.quoting.names = .bracket) (name : String) :
    (dialect.writesBare name = true →
      ((tokenize (dialect.formatName name)).Single (.word name) ↔
        (∀ c ∈ name.toList.head?, c.isDigit = false) ∧
          String.ofList (Text.lowerCase name.toList) ∉ keywords)) ∧
    (dialect.writesBare name = false →
      ((tokenize (dialect.formatName name)).Single (.bracketed name) ↔
        Quote.Bracketable name.toList)) ∧
    ∀ kind, (tokenize (dialect.formatName name)).Single kind ↔
      tokenize (dialect.formatName name) =
        ⟨[⟨kind, 0, (dialect.formatName name).utf8ByteSize⟩], []⟩ := by
  obtain ⟨hhead, hlast⟩ := isBlank_ends_formatName hnames name
  have hsingle :
      ∀ kind, (tokenize (dialect.formatName name)).Single kind ↔
        tokenize (dialect.formatName name) =
          ⟨[⟨kind, 0, (dialect.formatName name).utf8ByteSize⟩], []⟩ := by
    intro kind
    rw [← Text.width_toList]
    exact tokenizeText_single_iff hhead hlast kind
  refine ⟨?_, ?_, hsingle⟩
  · intro hbare
    rw [formatName, if_pos hbare] at hhead hlast ⊢
    rw [tokenize_word_iff hhead hlast]
    constructor
    · intro h
      obtain ⟨c, rest, hname, hstart, -⟩ := h.spelled
      refine ⟨?_, h.not_keyword⟩
      intro d hd
      rw [hname] at hd
      rw [← Option.mem_some.mp hd]
      exact Text.isDigit_of_isWordStart hstart
    · rintro ⟨hdigit, hkeyword⟩
      exact plainWord_of_writesBare hbare hdigit hkeyword
  · intro hbare
    have htext : dialect.formatName name = Style.bracket.quote name := by
      rw [formatName, hbare, hnames]
      rfl
    rw [hsingle, htext]
    exact tokenize_bracket_iff name

/-- Where names are quoted at need only, a keyword that is written with a capital
stands bare and is read as the operator; of two names in brackets the one with a
single backslash before its bracket is lost. -/
theorem tokenize_formatName_unforced :
    let dialect : Dialect := { Dialect.standard with quoting := ⟨false, .bracket, .double⟩ }
    dialect.quoting.names = .bracket ∧ dialect.writesBare "Not" = true ∧
      ¬ (tokenize (dialect.formatName "Not")).Single (.word "Not") ∧
      dialect.writesBare "a\\\\]" = false ∧
      (tokenize (dialect.formatName "a\\\\]")).Single (.bracketed "a\\\\]") ∧
      dialect.writesBare "a\\]" = false ∧
      ¬ (tokenize (dialect.formatName "a\\]")).Single (.bracketed "a\\]") := by
  intro dialect
  have hnames : dialect.quoting.names = .bracket := rfl
  have hword : dialect.writesBare "Not" = true := by decide +kernel
  have heven : dialect.writesBare "a\\\\]" = false := by decide +kernel
  have hodd : dialect.writesBare "a\\]" = false := by decide +kernel
  refine ⟨hnames, hword, ?_, heven, ?_, hodd, ?_⟩
  · rw [(tokenize_formatName_iff hnames "Not").1 hword]
    rintro ⟨-, hkeyword⟩
    exact hkeyword (by decide)
  · rw [(tokenize_formatName_iff hnames "a\\\\]").2.1 heven, Quote.bracketable_iff]
    decide
  · rw [(tokenize_formatName_iff hnames "a\\]").2.1 hodd, Quote.bracketable_iff]
    decide

end Dialect
end QueryFormula
