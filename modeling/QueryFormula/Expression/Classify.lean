import QueryFormula.Dialect.Registry
import QueryFormula.Expression.Basic

/-!
# Classification

A clause is understood by its form.  The kinds are tried in a fixed order: literals, operators,
functions, columns, truth values, metrics, segments, conditionals.  A clause that fits none of them
is no expression.
-/

namespace QueryFormula

/-- What is known when a clause is classified: the names of the dialect, and which clauses refer to
columns. -/
structure Scope where
  registry : Registry
  isDimension : Json → Bool

namespace Scope

variable (scope : Scope)

/-- The role in which a name heads an application; an operator is one also when a function has the
same name. -/
def role? (name : String) : Option Role :=
  if scope.registry.isOperator name then some .operator
  else if scope.registry.isFunction name then some .function
  else none

/-- A clause that is neither a literal nor an application. -/
def classifyOther (clause : Json) : Option Expression :=
  if scope.isDimension clause then some (.dimension clause)
  else match clause with
    | .bool b => some (.boolean b)
    | .arr [.str "metric", .num id] => some (.metric id)
    | .arr [.str "segment", .num id] => some (.segment id)
    | .arr (.str "case" :: parts) => some (.conditional parts)
    | _ => none

mutual

/-- The expression that a clause is understood as, none when it is no expression. -/
def classify : Json → Option Expression
  | .str s => some (.text s)
  | .num n => some (.number n)
  | .arr (.str name :: rest) =>
    match scope.role? name, classifyArgs rest with
    | some role, some (args, options) => some (.application role name args options)
    | _, _ => scope.classifyOther (.arr (.str name :: rest))
  | clause => scope.classifyOther clause

/-- The items after the head of an application: arguments, which must all be expressions, and
options when the last item is an object. -/
def classifyArgs : List Json → Option (List Expression × Option Members)
  | [] => some ([], none)
  | [.obj members] => some ([], some members)
  | item :: rest => do
    let arg ← classify item
    let (args, options) ← classifyArgs rest
    return (arg :: args, options)

end

/-- Whether a clause is an expression. -/
def isExpression (clause : Json) : Bool :=
  (scope.classify clause).isSome

end Scope
end QueryFormula
