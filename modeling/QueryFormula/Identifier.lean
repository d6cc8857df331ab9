import QueryFormula.Dialect.Basic

/-!
# Names in formulas

A name stands bare in a formula when it is a plain word that the dialect does not reserve and the
dialect allows it; every other name is quoted.  Literals are always quoted.
-/

namespace QueryFormula

/-- Whether a name is made of ASCII letters, digits and underscores, at least one. -/
def isSimpleName (name : String) : Bool :=
  !name.isEmpty && name.toList.all fun c => c.isAlphanum || c == '_'

namespace Dialect

/-- Whether a name is written without quotes. -/
def writesBare (dialect : Dialect) (name : String) : Bool :=
  !dialect.quoting.alwaysQuoted && isSimpleName name && !dialect.registry.isReserved name

/-- A name as a formula has it. -/
def formatName (dialect : Dialect) (name : String) : String :=
  if dialect.writesBare name then name else dialect.quoting.names.quote name

/-- A text literal as a formula has it. -/
def formatLiteral (dialect : Dialect) (text : String) : String :=
  dialect.quoting.literals.quote text

end Dialect
end QueryFormula
