import QueryFormula.Json.Basic

/-!
# Expressions

What a clause of a query is understood as.  A literal is kept with its value, an application with
its name and its understood arguments, and a reference as it is written; the parts of a conditional
stay clauses.
-/

namespace QueryFormula

/-- Whether the name that heads an application is an operator or a function. -/
inductive Role where
  | operator
  | function
deriving Repr, DecidableEq

/-- A clause that has been understood. -/
inductive Expression where
  | text (value : String)
  | number (value : Number)
  | boolean (value : Bool)
  /-- A name applied to arguments; the object after them, if there is one, holds options. -/
  | application (role : Role) (name : String) (args : List Expression) (options : Option Members)
  /-- A reference to a column. -/
  | dimension (reference : Json)
  | metric (id : Number)
  | segment (id : Number)
  /-- A choice between values by conditions; the parts after the head are not looked at. -/
  | conditional (parts : List Json)
deriving Repr, Inhabited

namespace Expression

/-- The value for an expression of a kind. -/
def tagged (kind : String) (content : Json) : Json :=
  .obj [("kind", .str kind), ("value", content)]

/-- The name of the kind of an application. -/
def roleName : Role → String
  | .operator => "operator"
  | .function => "function"

mutual

/-- The value for an expression: its kind and what it holds.  An application without options does
not mention them. -/
def toJson : Expression → Json
  | .text s => tagged "string_literal" (.str s)
  | .number n => tagged "number_literal" (.num n)
  | .boolean b => tagged "boolean_literal" (.bool b)
  | .application role name args options =>
    tagged (roleName role) (.obj (("name", .str name) :: ("args", .arr (argsToJson args)) ::
      (options.map fun members => ("options", Json.obj members)).toList))
  | .dimension reference => tagged "dimension" reference
  | .metric id => tagged "metric" (.num id)
  | .segment id => tagged "segment" (.num id)
  | .conditional parts => tagged "case" (.arr parts)

/-- The values for the arguments of an application. -/
def argsToJson : List Expression → List Json
  | [] => []
  | x :: rest => toJson x :: argsToJson rest

end

end Expression
end QueryFormula
