import QueryFormula.Number.Basic
import QueryFormula.Operator

/-!
# Tokens

What the parts of a formula's text stand for, with the place of each in the text, and what can be
wrong with a text.  Places count the bytes of UTF-8.
-/

namespace QueryFormula

/-- What a token stands for. -/
inductive TokenKind where
  | integer (value : Nat)
  /-- A number with a fraction or an exponent, or too large for an integer; none when it is beyond
  the largest finite number. -/
  | float (value : Option Magnitude)
  /-- A text literal, already unquoted. -/
  | text (value : String)
  | boolean (value : Bool)
  /-- A bare word: the name of a function or of a column. -/
  | word (name : String)
  /-- A name in brackets, already unquoted. -/
  | bracketed (name : String)
  | operator (op : Operator)
  | comma
  | leftParen
  | rightParen
deriving Repr, DecidableEq

/-- A token with its place: it begins at `start` and ends before `stop`. -/
structure Token where
  kind : TokenKind
  start : Nat
  stop : Nat
deriving Repr, DecidableEq

/-- What can be wrong with the text of a formula. -/
inductive TokenError.Cause where
  /-- A text literal without its closing quote. -/
  | missingQuote
  /-- A name without its closing bracket. -/
  | missingBracket
  /-- A character that begins no token. -/
  | unexpected (c : Char)
deriving Repr, DecidableEq

/-- Something wrong with the text of a formula, and where. -/
structure TokenError where
  cause : TokenError.Cause
  position : Nat
deriving Repr, DecidableEq

namespace TokenError

/-- The message without the place. -/
def message (e : TokenError) : String :=
  match e.cause with
  | .missingQuote => "Missing closing quotes"
  | .missingBracket => "Missing a closing bracket"
  | .unexpected c => "Unexpected character '" ++ c.toString ++ "'"

/-- The message with the place. -/
def describe (e : TokenError) : String :=
  e.message ++ " at position " ++ toString e.position

end TokenError

/-- The tokens of a text and everything that is wrong with it, each in order. -/
structure Tokenized where
  tokens : List Token
  errors : List TokenError
deriving Repr, DecidableEq

end QueryFormula
