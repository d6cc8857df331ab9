import QueryFormula.Json.Basic

/-!
# Queries

What a query offers to formulas: the metrics, segments and fields of its source table, the columns
that can be referred to, and which clauses are references to columns.
-/

namespace QueryFormula

/-- A saved aggregation on the source table. -/
structure Metric where
  id : Int64
  name : String
deriving Repr, DecidableEq

/-- A saved filter on the source table. -/
structure Segment where
  id : Int64
  name : String
deriving Repr, DecidableEq

/-- A field of the source table. -/
structure TableField where
  id : Int64
  name : String
  baseType : String
deriving Repr, DecidableEq

namespace TableField

/-- Whether the field holds truth values, so that it can stand for a filter. -/
def isBoolean (field : TableField) : Bool :=
  field.baseType == "type/Boolean"

end TableField

/-- The source table of a query. -/
structure Table where
  metrics : List Metric
  segments : List Segment
  fields : List TableField
deriving Repr, DecidableEq

/-- A column that a formula can refer to, by its shown name with the parts of its path joined by
arrows. -/
structure Dimension where
  shown : String
  /-- Whether the column is itself defined by a formula of the query. -/
  isExpression : Bool
deriving Repr, DecidableEq

/-- A query as formulas see it. -/
structure Query where
  table : Option Table
  dimensions : List Dimension
  /-- Whether a clause is a reference to a column, known or not. -/
  isDimension : Json → Bool
  /-- The column that a reference points at. -/
  dimensionFor : Json → Option Dimension

/-- A query that cannot be asked for what is wanted of it. -/
inductive QueryError where
  /-- A metric or segment is looked for in a query without a source table. -/
  | missingTable
deriving Repr, DecidableEq

/-- The message of the error. -/
def QueryError.message : QueryError → String
  | .missingTable => "query has no source table"

/-- The source table of a query that must have one. -/
def Query.sourceTable (query : Query) : Except QueryError Table :=
  match query.table with
  | some table => .ok table
  | none => .error .missingTable

end QueryFormula
