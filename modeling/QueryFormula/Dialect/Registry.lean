import QueryFormula.Ordered

/-!
# The registry of a dialect

The operators and functions that a dialect knows by name, and the names under which functions are
shown in formulas.
-/

namespace QueryFormula

/-- The operator and function names of a dialect, and the shown names of functions. -/
structure Registry where
  operators : NameSet
  functions : NameSet
  displayNames : NameMap
deriving DecidableEq

namespace Registry

/-- The operators of the standard dialect. -/
def standardOperators : List String :=
  ["+", "-", "*", "/", "=", "!=", "<", ">", "<=", ">=", "and", "or", "not"]

/-- The functions of the standard dialect with their shown names. -/
def standardFunctions : List (String × String) :=
  [("count", "Count"), ("cum-count", "CumulativeCount"), ("sum", "Sum"),
   ("cum-sum", "CumulativeSum"), ("distinct", "Distinct"), ("stddev", "StandardDeviation"),
   ("avg", "Average"), ("min", "Min"), ("max", "Max"), ("median", "Median"),
   ("percentile", "Percentile"), ("var", "Variance"), ("share", "Share"),
   ("count-where", "CountIf"), ("sum-where", "SumIf"),
   ("lower", "lower"), ("upper", "upper"), ("substring", "substring"),
   ("regex-match-first", "regexextract"), ("concat", "concat"), ("replace", "replace"),
   ("trim", "trim"), ("rtrim", "rtrim"), ("ltrim", "ltrim"), ("length", "length"),
   ("abs", "abs"), ("floor", "floor"), ("ceil", "ceil"), ("round", "round"), ("sqrt", "sqrt"),
   ("power", "power"), ("log", "log"), ("exp", "exp"),
   ("contains", "contains"), ("starts-with", "startsWith"), ("ends-with", "endsWith"),
   ("between", "between"), ("time-interval", "interval"), ("is-null", "isnull"),
   ("not-null", "notnull"), ("is-empty", "isempty"), ("not-empty", "notempty"),
   ("coalesce", "coalesce"), ("case", "case")]

/-- The registry of the standard dialect. -/
def standard : Registry where
  operators := .ofList standardOperators
  functions := .ofList (standardFunctions.map Prod.fst)
  displayNames := .ofList standardFunctions

/-- Whether a name is one of the operators. -/
def isOperator (registry : Registry) (name : String) : Bool :=
  registry.operators.contains name

/-- Whether a name is one of the functions. -/
def isFunction (registry : Registry) (name : String) : Bool :=
  registry.functions.contains name

/-- Whether a name is an operator or a function, in exactly these letters. -/
def isReserved (registry : Registry) (name : String) : Bool :=
  registry.isOperator name || registry.isFunction name

/-- The name under which a function is shown: its own when it has no other. -/
def displayName (registry : Registry) (name : String) : String :=
  (registry.displayNames.find? name).getD name

end Registry
end QueryFormula
