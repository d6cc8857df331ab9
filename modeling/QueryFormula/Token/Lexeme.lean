import QueryFormula.Quote.Style
import QueryFormula.Text.Alphanumeric
import QueryFormula.Text.LowerCase
import QueryFormula.Token.Delimiter
import QueryFormula.Token.NumberText

/-!
# Lexemes

A lexeme is a part of a formula's text that makes one token.  It is cut off the front of the text
as far as it reaches; its spelling is exactly what was cut off, and its kind depends on nothing
else.
-/

namespace QueryFormula

/-- A part of a formula's text that makes one token. -/
inductive Lexeme where
  | comma
  | leftParen
  | rightParen
  /-- A literal or a name between delimiters; the closing one may be missing. -/
  | delimited (delimiter : Delimiter) (content : List Char) (closed : Bool)
  | number (text : NumberText)
  | word (text : List Char)
  | sign (op : BinaryOperator)
deriving Repr, DecidableEq

namespace Lexeme

/-- The lexeme as it is written. -/
def text : Lexeme → List Char
  | .comma => [',']
  | .leftParen => ['(']
  | .rightParen => [')']
  | .delimited d content closed => d.opening :: content ++ if closed then [d.closing] else []
  | .number n => n.text
  | .word text => text
  | .sign op => op.name.toList

/-- What a word stands for: an operator or a truth value in any letter case, or a name. -/
def wordKind (text : List Char) : TokenKind :=
  match String.ofList (Text.lowerCase text) with
  | "and" => .operator (.binary .and)
  | "or" => .operator (.binary .or)
  | "not" => .operator .not
  | "true" => .boolean true
  | "false" => .boolean false
  | _ => .word (String.ofList text)

/-- What stands between delimiters, unquoted; a missing delimiter is supplied. -/
def contentValue (d : Delimiter) (content : List Char) : String :=
  String.ofList ((Quote.unquoteText (d.opening :: content ++ [d.closing])).getD [])

/-- What the lexeme stands for. -/
def kind : Lexeme → TokenKind
  | .comma => .comma
  | .leftParen => .leftParen
  | .rightParen => .rightParen
  | .delimited .bracket content _ => .bracketed (contentValue .bracket content)
  | .delimited d content _ => .text (contentValue d content)
  | .number n => n.kind
  | .word text => wordKind text
  | .sign op => .operator (.binary op)

/-- What is wrong with the lexeme, if anything is. -/
def fault : Lexeme → Option TokenError.Cause
  | .delimited d _ false => some d.missing
  | _ => none

/-- The operator that a character and the ones after it spell with signs, and the text after it. -/
def splitSign (c : Char) (rest : List Char) : Option (BinaryOperator × List Char) :=
  match c, rest with
  | '+', _ => some (.plus, rest)
  | '-', _ => some (.minus, rest)
  | '*', _ => some (.times, rest)
  | '/', _ => some (.divide, rest)
  | '=', _ => some (.equal, rest)
  | '<', '=' :: rest => some (.atMost, rest)
  | '>', '=' :: rest => some (.atLeast, rest)
  | '!', '=' :: rest => some (.unequal, rest)
  | '<', _ => some (.less, rest)
  | '>', _ => some (.greater, rest)
  | _, _ => none

/-- The lexeme that begins with a character, as far as it reaches, and the text after it; none when
the character begins no lexeme. -/
def split (c : Char) (rest : List Char) : Option (Lexeme × List Char) :=
  if c = ',' then some (.comma, rest)
  else if c = '(' then some (.leftParen, rest)
  else if c = ')' then some (.rightParen, rest)
  else match Delimiter.ofOpening? c with
    | some d =>
      match Delimiter.split d.closing rest with
      | (content, some rest) => some (.delimited d content true, rest)
      | (content, none) => some (.delimited d content false, [])
    | none =>
      if NumberText.starts (c :: rest) then
        let (n, rest) := NumberText.split (c :: rest)
        some (.number n, rest)
      else if Text.isWordStart c then
        some (.word (c :: rest.takeWhile Text.isWordChar), rest.dropWhile Text.isWordChar)
      else (splitSign c rest).map fun (op, rest) => (.sign op, rest)

theorem text_splitSign {c : Char} {rest after : List Char} {op : BinaryOperator}
    (h : splitSign c rest = some (op, after)) : op.name.toList ++ after = c :: rest := by
  unfold splitSign at h
  split at h
  case h_11 => contradiction
  all_goals
    obtain ⟨rfl, rfl⟩ := Prod.mk.inj (Option.some.inj h)
    rfl

/-- What is cut off and what is left spell the text. -/
theorem text_split {c : Char} {rest after : List Char} {lexeme : Lexeme}
    (h : split c rest = some (lexeme, after)) : lexeme.text ++ after = c :: rest := by
  unfold split at h
  split at h
  · cases h
    simp_all [text]
  split at h
  · cases h
    simp_all [text]
  split at h
  · cases h
    simp_all [text]
  split at h
  · next d hd =>
    have hopen := Delimiter.opening_of_ofOpening? hd
    have hspell := Delimiter.text_split d.closing rest
    split at h
    · next hsplit =>
      cases h
      simp_all [text]
    · next hsplit =>
      cases h
      simp_all [text]
  · split at h
    · cases h
      exact NumberText.text_split (c :: rest)
    · split at h
      · cases h
        simp [text]
      · simp only [Option.map_eq_some_iff, Prod.mk.injEq, Prod.exists] at h
        obtain ⟨op, r, hop, rfl, rfl⟩ := h
        exact text_splitSign hop

theorem text_ne_nil_of_split {c : Char} {rest after : List Char} {lexeme : Lexeme}
    (h : split c rest = some (lexeme, after)) : lexeme.text ≠ [] := by
  unfold split at h
  split at h
  · cases h
    simp [text]
  split at h
  · cases h
    simp [text]
  split at h
  · cases h
    simp [text]
  split at h
  · split at h <;> cases h <;> simp [text]
  · split at h
    · next hstarts =>
      cases h
      exact NumberText.text_split_ne_nil hstarts
    · split at h
      · cases h
        simp [text]
      · simp only [Option.map_eq_some_iff, Prod.mk.injEq, Prod.exists] at h
        obtain ⟨op, r, -, rfl, rfl⟩ := h
        cases op <;> simp [text, BinaryOperator.name]

end Lexeme
end QueryFormula
