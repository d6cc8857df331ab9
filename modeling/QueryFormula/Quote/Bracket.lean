/-!
# Bracket escapes

Inside brackets each bracket has a backslash before it.  The backslash itself is not escaped, and
taking the escapes away leaves every backslash that no bracket follows.
-/

namespace QueryFormula.Quote

/-- Whether a character is an opening or a closing bracket. -/
def isBracket (c : Char) : Bool :=
  c == '[' || c == ']'

/-- The text with a backslash before each bracket. -/
def escape : List Char → List Char
  | [] => []
  | c :: rest => if isBracket c then '\\' :: c :: escape rest else c :: escape rest

/-- Whether a text begins with a bracket. -/
def startsWithBracket : List Char → Bool
  | [] => false
  | c :: _ => isBracket c

/-- The text without the backslashes that stand before brackets. -/
def unescape : List Char → List Char
  | [] => []
  | c :: rest =>
    if c = '\\' ∧ startsWithBracket rest then unescape rest else c :: unescape rest

end QueryFormula.Quote
