import QueryFormula.Expression.Classify

/-!
# Kinds of clauses

For each kind of expression, whether a clause has the form of that kind whatever the kinds tried
before it, and whether a clause ends in options.
-/

namespace QueryFormula

namespace Json

/-- Whether the clause is a text literal. -/
def isText : Json → Bool
  | .str _ => true
  | _ => false

/-- Whether the clause is a number literal. -/
def isNumber : Json → Bool
  | .num _ => true
  | _ => false

/-- Whether the clause is a truth value. -/
def isBoolean : Json → Bool
  | .bool _ => true
  | _ => false

/-- Whether the clause is a literal of the kinds tried first. -/
def isLiteral (clause : Json) : Bool :=
  clause.isText || clause.isNumber

/-- Whether the clause is a reference to a metric. -/
def isMetric : Json → Bool
  | .arr [.str "metric", .num _] => true
  | _ => false

/-- Whether the clause is a reference to a segment. -/
def isSegment : Json → Bool
  | .arr [.str "segment", .num _] => true
  | _ => false

/-- Whether the clause is headed as a conditional. -/
def isConditional : Json → Bool
  | .arr (.str "case" :: _) => true
  | _ => false

/-- Whether the clause is an array that ends in an object. -/
def hasOptions : Json → Bool
  | .arr items => items.getLast?.any isObject
  | _ => false

end Json

namespace Scope

variable (scope : Scope)

/-- Whether the clause applies an operator to expressions. -/
def isOperator : Json → Bool
  | .arr (.str name :: rest) => scope.registry.isOperator name && (scope.classifyArgs rest).isSome
  | _ => false

/-- Whether the clause applies a function to expressions. -/
def isFunction : Json → Bool
  | .arr (.str name :: rest) => scope.registry.isFunction name && (scope.classifyArgs rest).isSome
  | _ => false

end Scope
end QueryFormula
