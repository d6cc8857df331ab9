/-!
# Operators

The operators that formulas write between or before their operands.  Each has a name in clauses; in
formulas the words are written in capitals and the signs as they are.
-/

namespace QueryFormula

/-- An operator between two operands. -/
inductive BinaryOperator where
  | or
  | and
  | equal
  | unequal
  | less
  | greater
  | atMost
  | atLeast
  | plus
  | minus
  | times
  | divide
deriving Repr, DecidableEq

namespace BinaryOperator

/-- The name in clauses. -/
def name : BinaryOperator → String
  | .or => "or"
  | .and => "and"
  | .equal => "="
  | .unequal => "!="
  | .less => "<"
  | .greater => ">"
  | .atMost => "<="
  | .atLeast => ">="
  | .plus => "+"
  | .minus => "-"
  | .times => "*"
  | .divide => "/"

/-- The operator of a name. -/
def ofName? (name : String) : Option BinaryOperator :=
  match name with
  | "or" => some .or
  | "and" => some .and
  | "=" => some .equal
  | "!=" => some .unequal
  | "<" => some .less
  | ">" => some .greater
  | "<=" => some .atMost
  | ">=" => some .atLeast
  | "+" => some .plus
  | "-" => some .minus
  | "*" => some .times
  | "/" => some .divide
  | _ => none

theorem ofName?_name (op : BinaryOperator) : ofName? op.name = some op := by
  cases op <;> rfl

/-- The text in formulas. -/
def symbol : BinaryOperator → String
  | .or => "OR"
  | .and => "AND"
  | op => op.name

/-- How strongly the operator binds its operands; all of them group from the left. -/
def strength : BinaryOperator → Nat
  | .or => 1
  | .and => 2
  | .equal | .unequal | .less | .greater | .atMost | .atLeast => 4
  | .plus | .minus => 5
  | .times | .divide => 6

end BinaryOperator

/-- An operator before its operand. -/
inductive UnaryOperator where
  | not
  | minus
  | plus
deriving Repr, DecidableEq

namespace UnaryOperator

/-- The operator of a name. -/
def ofName? (name : String) : Option UnaryOperator :=
  match name with
  | "not" => some .not
  | "-" => some .minus
  | "+" => some .plus
  | _ => none

/-- The text in formulas. -/
def symbol : UnaryOperator → String
  | .not => "NOT"
  | .minus => "-"
  | .plus => "+"

/-- How strongly the operator binds its operand. -/
def strength : UnaryOperator → Nat
  | .not => 3
  | .minus | .plus => 7

end UnaryOperator

/-- An operator as a token shows it, where a sign and a binary operator look alike. -/
inductive Operator where
  | binary (op : BinaryOperator)
  | not
deriving Repr, DecidableEq

namespace Operator

/-- The name in clauses. -/
def name : Operator → String
  | .binary op => op.name
  | .not => "not"

/-- The operator of a name. -/
def ofName? (name : String) : Option Operator :=
  if name = "not" then some .not else (BinaryOperator.ofName? name).map .binary

end Operator
end QueryFormula
