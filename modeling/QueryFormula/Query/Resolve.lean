import QueryFormula.Identifier
import QueryFormula.Query.Basic
import QueryFormula.Text.LowerCase

/-!
# Names in queries

Metrics and segments are found by name with letter case ignored, columns by their exact name under
any separator of the dialect.  No match is no error; a query without a source table is.
-/

namespace QueryFormula

/-- What the name of a segment stands for. -/
inductive SegmentMatch where
  | segment (segment : Segment)
  /-- A field of truth values in place of a segment. -/
  | field (field : TableField)
deriving Repr, DecidableEq

namespace SegmentMatch

/-- The name as the table has it. -/
def name : SegmentMatch → String
  | .segment s => s.name
  | .field f => f.name

end SegmentMatch

/-- A name with each arrow between two spaces replaced by a separator, from left to right. -/
def replaceJoins (separator : List Char) : List Char → List Char
  | [] => []
  | ' ' :: '→' :: ' ' :: rest => separator ++ replaceJoins separator rest
  | c :: rest => c :: replaceJoins separator rest

/-- A shown name with another separator between its parts. -/
def withSeparator (shown separator : String) : String :=
  String.ofList (replaceJoins separator.toList shown.toList)

namespace Dimension

/-- The name of a column under a separator. -/
def nameWith (dimension : Dimension) (separator : String) : String :=
  withSeparator dimension.shown separator

end Dimension

namespace Dialect

/-- A metric as a formula has it. -/
def formatMetric (dialect : Dialect) (metric : Metric) : String :=
  dialect.formatName metric.name

/-- A segment as a formula has it. -/
def formatSegment (dialect : Dialect) (segment : Segment) : String :=
  dialect.formatName segment.name

/-- The name of a column under the separator that the dialect writes. -/
def dimensionName (dialect : Dialect) (dimension : Dimension) : String :=
  dimension.nameWith dialect.separators.written

/-- A column as a formula has it. -/
def formatDimension (dialect : Dialect) (dimension : Dimension) : String :=
  dialect.formatName (dialect.dimensionName dimension)

end Dialect

namespace Query

open Text

/-- The first metric of a name, letter case ignored. -/
def findMetric (query : Query) (name : String) : Except QueryError (Option Metric) :=
  query.sourceTable.map fun table => table.metrics.find? (sameIgnoringCase ·.name name)

/-- The first segment of a name, or else the first field of truth values of that name, letter case
ignored. -/
def findSegment (query : Query) (name : String) : Except QueryError (Option SegmentMatch) :=
  query.sourceTable.map fun table =>
    match table.segments.find? (sameIgnoringCase ·.name name) with
    | some segment => some (.segment segment)
    | none =>
      (table.fields.find? fun field => field.isBoolean && sameIgnoringCase field.name name).map
        .field

/-- Whether a column is the formula that is being edited. -/
def isEdited (edited : Option String) (dimension : Dimension) : Bool :=
  dimension.isExpression && some dimension.shown == edited

/-- Whether a column has a name under one of the separators. -/
def hasName (separators : Separators) (name : String) (dimension : Dimension) : Bool :=
  separators.symbols.any fun separator => dimension.nameWith separator == name

/-- The position of the first column of a name under some separator.  The formula that is being
edited never stands for itself. -/
def findDimension (query : Query) (separators : Separators) (edited : Option String)
    (name : String) : Option Nat :=
  query.dimensions.findIdx? fun dimension =>
    !isEdited edited dimension && hasName separators name dimension

end Query
end QueryFormula
