import QueryFormula.Formula.Basic

/-!
# Layout of formulas

A formula is laid out as a row of pieces.  Parentheses stand around an operand only where its own
operator binds too weakly for its place, or where it would put a sign directly after an operator.
-/

namespace QueryFormula

/-- A piece of a formula that has been laid out. -/
inductive Piece where
  | text (value : String)
  /-- A number without its sign, in digits. -/
  | digits (value : List Char)
  | boolean (value : Bool)
  | name (name : String)
  /-- The shown name of what is called. -/
  | head (name : String)
  | between (op : BinaryOperator)
  | before (op : UnaryOperator)
  | leftParen
  | rightParen
  | comma
deriving Repr, DecidableEq

/-- Pieces in parentheses, if they are needed. -/
def enclose (needed : Bool) (pieces : List Piece) : List Piece :=
  if needed then .leftParen :: pieces ++ [.rightParen] else pieces

namespace Formula

/-- Whether a formula needs parentheses to the left of an operator. -/
def needsParensLeft (strength : Nat) (operand : Formula) : Bool :=
  operand.strength?.any (· < strength)

/-- Whether a formula needs parentheses to the right of an operator. -/
def needsParensRight (strength : Nat) (operand : Formula) : Bool :=
  operand.isSigned || operand.strength?.any (· ≤ strength)

/-- Whether a formula needs parentheses after an operator before its operand. -/
def needsParensAfter (operand : Formula) : Bool :=
  operand.isSigned || operand.strength?.isSome

mutual

/-- The pieces of a formula. -/
def layout : Formula → List Piece
  | .text s => [.text s]
  | .number n =>
    if n.negative then [.before .minus, .digits n.plainMagnitude] else [.digits n.plainMagnitude]
  | .boolean b => [.boolean b]
  | .name s => [.name s]
  | .call head [] => [.head head]
  | .call head (arg :: rest) =>
    .head head :: enclose true (layout arg ++ layoutMore rest)
  | .conditional head parts => .head head :: enclose true (layoutParts parts)
  | .unary op operand => .before op :: enclose operand.needsParensAfter (layout operand)
  | .binary op left right =>
    enclose (left.needsParensLeft op.strength) (layout left) ++
      .between op :: enclose (right.needsParensRight op.strength) (layout right)

/-- The pieces of formulas with commas between them. -/
def layoutParts : List Formula → List Piece
  | [] => []
  | x :: rest => layout x ++ layoutMore rest

/-- The pieces of further formulas, a comma before each. -/
def layoutMore : List Formula → List Piece
  | [] => []
  | x :: rest => .comma :: layout x ++ layoutMore rest

end

end Formula
end QueryFormula
