import QueryFormula.Json.Render
import QueryFormula.Token.Fragment

/-!
# Tokens as JSON

The values for tokens and for what is wrong with a text.
-/

namespace QueryFormula

/-- A natural number as a value; one of more than 64 bits is none and becomes null. -/
def Json.ofNat (n : Nat) : Json :=
  match Integer.ofInt? n with
  | some value => .num (.int value)
  | none => .null

namespace TokenKind

/-- The name of the kind. -/
def name : TokenKind → String
  | .integer _ => "integer"
  | .float _ => "float"
  | .text _ => "string"
  | .boolean _ => "boolean"
  | .word _ => "identifier"
  | .bracketed _ => "bracket_identifier"
  | .operator _ => "operator"
  | .comma => "comma"
  | .leftParen => "l_paren"
  | .rightParen => "r_paren"

/-- The value that the kind carries, if it carries one. -/
def value? : TokenKind → Option Json
  | .integer n => some (.ofNat n)
  | .float (some x) => some (.num (.float ⟨false, x⟩))
  | .float none => some .null
  | .text s => some (.str s)
  | .boolean b => some (.bool b)
  | .word s => some (.str s)
  | .bracketed s => some (.str s)
  | .operator op => some (.str op.name)
  | .comma | .leftParen | .rightParen => none

/-- The value for a kind of token. -/
def toJson (kind : TokenKind) : Json :=
  .obj (("type", .str kind.name) :: (kind.value?.map ("value", ·)).toList)

end TokenKind

/-- The value for a token. -/
def Token.toJson (token : Token) : Json :=
  .obj [("kind", token.kind.toJson), ("start", .ofNat token.start), ("end", .ofNat token.stop)]

/-- The value for something wrong with a text. -/
def TokenError.toJson (e : TokenError) : Json :=
  .obj [("message", .str e.message), ("position", .ofNat e.position)]

/-- The value for the tokens of a text and what is wrong with it. -/
def Tokenized.toJson (t : Tokenized) : Json :=
  .obj [("tokens", .arr (t.tokens.map Token.toJson)),
    ("errors", .arr (t.errors.map TokenError.toJson))]

/-- The part of a text that a token spans. -/
def Token.slice (source : String) (token : Token) : String :=
  String.ofList (Text.slice source.toList token.start token.stop)

/-- The first `count` tokens of a text, none for those that are lacking, and what is left after
them with everything that is wrong. -/
def Tokenized.advance (t : Tokenized) (count : Nat) : List (Option Token) × Tokenized :=
  ((List.range count).map fun i => t.tokens[i]?, ⟨t.tokens.drop count, t.errors⟩)

end QueryFormula
