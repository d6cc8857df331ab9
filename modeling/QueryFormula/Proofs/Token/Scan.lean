import QueryFormula.Proofs.Number.PlainText
import QueryFormula.Proofs.Token.NumberText
import QueryFormula.Proofs.Token.Place

/-!
# Scanning a text part by part

A text is known to fall into its lexemes when each of its parts does, read with
what comes after it: a word or a number goes on as far as it can, so it ends
where it should only if the next character does not go on with it.
-/

namespace QueryFormula
namespace Fragment

/-- Before the rest, the text falls into sound fragments of its own, which make
tokens of the given kinds. -/
def Scans (rest text : List Char) (kinds : List TokenKind) : Prop :=
  ∃ fs, ofText (text ++ rest) = fs ++ ofText rest ∧
    (∀ f ∈ fs, f.Sound) ∧ fs.filterMap kind? = kinds

theorem scans_nil (rest : List Char) :
    Scans rest [] [] :=
  ⟨[], rfl, fun _ hf => absurd hf List.not_mem_nil, rfl⟩

theorem Scans.append
    {rest text text' : List Char} {kinds kinds' : List TokenKind}
    (h : Scans (text' ++ rest) text kinds) (h' : Scans rest text' kinds') :
    Scans rest (text ++ text') (kinds ++ kinds') := by
  obtain ⟨fs, hfs, hsound, hkinds⟩ := h
  obtain ⟨fs', hfs', hsound', hkinds'⟩ := h'
  refine ⟨fs ++ fs', ?_, ?_, ?_⟩
  · rw [List.append_assoc, hfs, hfs', List.append_assoc]
  · intro f hf
    rcases List.mem_append.mp hf with hf | hf
    · exact hsound f hf
    · exact hsound' f hf
  · rw [List.filterMap_append, hkinds, hkinds']

theorem scans_blank
    {c : Char} (hblank : Text.isBlank c = true) (rest : List Char) :
    Scans rest [c] [] := by
  refine ⟨[.blank c], ?_, ?_, rfl⟩
  · rw [List.singleton_append, ofText_cons, split, if_pos hblank]
    rfl
  · intro f hf
    rw [List.mem_singleton.mp hf]
    trivial

theorem scans_lexeme
    {c : Char} {text rest : List Char} {lexeme : Lexeme}
    (hblank : Text.isBlank c = false)
    (hsplit : Lexeme.split c (text ++ rest) = some (lexeme, rest))
    (hfault : lexeme.fault = none) :
    Scans rest (c :: text) [lexeme.kind] := by
  refine ⟨[.lexeme lexeme], ?_, ?_, rfl⟩
  · rw [List.cons_append, ofText_cons, split, hblank, hsplit]
    rfl
  · intro f hf
    rw [List.mem_singleton.mp hf]
    exact hfault

/-- Content that holds together between its delimiters, before anything. -/
theorem scans_delimited
    (d : Delimiter) {content : List Char}
    (hopen : Delimiter.staysOpen d.closing false content = true) (rest : List Char) :
    Scans rest (d.opening :: content ++ [d.closing])
      [(Lexeme.delimited d content true).kind] := by
  refine ⟨[.lexeme (.delimited d content true)], ?_, ?_, rfl⟩
  · rw [List.append_assoc, List.singleton_append, ofText_delimited d hopen]
    rfl
  · intro f hf
    rw [List.mem_singleton.mp hf]
    rfl

/-! ## Tokens of a text that scans -/

/-- A text that scans to its end has no errors and tokens of these kinds. -/
theorem Scans.tokenizeText
    {text : List Char} {kinds : List TokenKind} (h : Scans [] text kinds) :
    (QueryFormula.tokenizeText text).errors = [] ∧
      (QueryFormula.tokenizeText text).tokens.map Token.kind = kinds := by
  obtain ⟨fs, hfs, hsound, hkinds⟩ := h
  rw [List.append_nil, ofText_nil, List.append_nil] at hfs
  constructor
  · rw [QueryFormula.tokenizeText, hfs]
    exact (filterMap_error?_eq_nil_iff fs 0).mpr hsound
  · rw [QueryFormula.tokenizeText, hfs, ← hkinds]
    exact map_kind_filterMap_token? fs 0

/-! ## Punctuation and signs -/

theorem scans_comma (rest : List Char) :
    Scans rest [','] [.comma] := by
  have hblank : Text.isBlank ',' = false := by decide
  have hsplit : Lexeme.split ',' ([] ++ rest) = some (.comma, rest) := rfl
  exact scans_lexeme hblank hsplit rfl

theorem scans_leftParen (rest : List Char) :
    Scans rest ['('] [.leftParen] := by
  have hblank : Text.isBlank '(' = false := by decide
  have hsplit : Lexeme.split '(' ([] ++ rest) = some (.leftParen, rest) := rfl
  exact scans_lexeme hblank hsplit rfl

theorem scans_rightParen (rest : List Char) :
    Scans rest [')'] [.rightParen] := by
  have hblank : Text.isBlank ')' = false := by decide
  have hsplit : Lexeme.split ')' ([] ++ rest) = some (.rightParen, rest) := rfl
  exact scans_lexeme hblank hsplit rfl

theorem scans_sign
    {c : Char} {text rest : List Char} {op : BinaryOperator}
    (hblank : Text.isBlank c = false)
    (h : Lexeme.splitSign c (text ++ rest) = some (op, rest)) :
    Scans rest (c :: text) [.operator (.binary op)] :=
  scans_lexeme hblank (Lexeme.split_eq_some_iff.mpr (.sign h)) rfl

/-- A minus sign goes on with no other character. -/
theorem scans_minus (rest : List Char) :
    Scans rest ['-'] [.operator (.binary .minus)] := by
  have hblank : Text.isBlank '-' = false := by decide
  exact scans_sign hblank rfl

theorem scans_plus (rest : List Char) :
    Scans rest ['+'] [.operator (.binary .plus)] := by
  have hblank : Text.isBlank '+' = false := by decide
  exact scans_sign hblank rfl

/-! ## Words -/

/-- What may come after a word or a number: nothing, a blank, a parenthesis or a
comma. -/
def Ends (rest : List Char) : Prop :=
  ∀ c ∈ rest.head?, c ∈ [' ', ')', ',', '(']

theorem ends_cons
    {c : Char} (hc : c ∈ [' ', ')', ',', '(']) (rest : List Char) :
    Ends (c :: rest) := by
  intro d hd
  rwa [← Option.mem_some.mp hd]

theorem Ends.forall_head?
    {rest : List Char} (h : Ends rest) {p : Char → Bool}
    (hp : [' ', ')', ',', '('].any p = false) :
    ∀ c ∈ rest.head?, p c = false := by
  intro c hc
  exact Bool.eq_false_iff.mpr (List.any_eq_false.mp hp c (h c hc))

/-- A word ends where a character follows that cannot go on with it. -/
theorem scans_word
    {c : Char} {text rest : List Char}
    (hstart : Text.isWordStart c = true) (hword : text.all Text.isWordChar = true)
    (hrest : Ends rest) :
    Scans rest (c :: text) [Lexeme.wordKind (c :: text)] := by
  obtain ⟨htake, hdrop⟩ := Text.takeWhile_append_of_head? (List.all_eq_true.mp hword)
    (hrest.forall_head? (by decide))
  have hsplit :
      Lexeme.split c (text ++ rest) = some (.word (c :: text), rest) := by
    have hbegins := Lexeme.Begins.word hstart (text ++ rest)
    rw [htake, hdrop] at hbegins
    exact Lexeme.split_eq_some_iff.mpr hbegins
  exact scans_lexeme (Text.isBlank_of_isWordStart hstart) hsplit rfl

/-! ## Numbers -/

theorem split_number
    {n : NumberText} {rest : List Char} (hn : n.Plain) (hrest : Ends rest) :
    NumberText.split (n.text ++ rest) = (n, rest) := by
  apply NumberText.split_text_append hn.wellFormed
  intro c hc
  have hend := hrest c hc
  simp only [List.mem_cons, List.not_mem_nil, or_false] at hend
  rcases hend with rfl | rfl | rfl | rfl <;> decide

/-- Digits, and perhaps a point with further digits, are a number. -/
theorem scans_number
    {n : NumberText} {rest : List Char} (hn : n.Plain) (hrest : Ends rest) :
    Scans rest n.text [n.kind] := by
  obtain ⟨c, ds, hcons⟩ := List.exists_cons_of_ne_nil hn.whole_ne_nil
  have htext : n.text = c :: (ds ++ NumberText.fractionText n.fraction) := by
    rw [hn.text_eq, hcons, List.cons_append]
  have hc : c.isDigit = true := hn.whole_digits c (by rw [hcons]; exact List.mem_cons_self)
  have hpoint : c ≠ '.' := by
    rintro rfl
    contradiction
  have hsplit :
      Lexeme.split c (ds ++ NumberText.fractionText n.fraction ++ rest) =
        some (.number n, rest) := by
    have hnumber := split_number hn hrest
    rw [htext, List.cons_append] at hnumber
    have hstarts := NumberText.starts_of_ne_point hpoint
      (ds ++ NumberText.fractionText n.fraction ++ rest)
    have hbegins := Lexeme.Begins.number (hstarts.trans hc)
    rw [hnumber] at hbegins
    exact Lexeme.split_eq_some_iff.mpr hbegins
  rw [htext]
  exact scans_lexeme (Text.isBlank_of_isDigit hc) hsplit rfl

end Fragment
end QueryFormula
