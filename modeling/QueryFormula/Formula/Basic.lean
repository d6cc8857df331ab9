import QueryFormula.Number.Basic
import QueryFormula.Operator

/-!
# Formulas

The tree of a formula as an editor shows it: operators between two operands or before one, calls
and conditionals with their parts, and at the leaves literals and names.  Operators that a clause
applies to more than two arguments are grouped from the left.
-/

namespace QueryFormula

/-- A formula as it is shown. -/
inductive Formula where
  | text (value : String)
  | number (value : Number)
  | boolean (value : Bool)
  /-- The name of a column, a metric or a segment. -/
  | name (name : String)
  | call (head : String) (args : List Formula)
  /-- Conditions with their values in turn, and perhaps a default after them. -/
  | conditional (head : String) (parts : List Formula)
  | unary (op : UnaryOperator) (operand : Formula)
  | binary (op : BinaryOperator) (left right : Formula)
deriving Repr, Inhabited

namespace Formula

/-- How strongly the outermost operator binds, if there is one. -/
def strength? : Formula → Option Nat
  | .unary op _ => some op.strength
  | .binary op _ _ => some op.strength
  | _ => none

/-- Whether the formula itself is a signed number or a sign before an operand. -/
def isSigned : Formula → Bool
  | .number n => n.signed
  | .unary .minus _ => true
  | .unary .plus _ => true
  | _ => false

/-- An operator between several operands, grouped from the left. -/
def chain (op : BinaryOperator) (first : Formula) (others : List Formula) : Formula :=
  others.foldl (.binary op) first

end Formula
end QueryFormula
