import QueryFormula.Dialect.Basic
import QueryFormula.Json.Record
import QueryFormula.Query.Basic

/-!
# Metadata

A query described by a document: its source table and its columns, each with its path and the
clause that refers to it.  A clause is a reference to a column by its form alone; the column is
the first one that is written as that clause.
-/

namespace QueryFormula

open QueryFormula.Json

/-- A column of the query with the clause that refers to it. -/
structure Column where
  /-- The names from the source table to the column, one for each join. -/
  path : List String
  reference : Json
  isExpression : Bool

/-- The description of a query. -/
structure Metadata where
  table : Option Table
  columns : List Column

/-- Texts joined by a separator. -/
def joinWith (separator : List Char) : List (List Char) → List Char
  | [] => []
  | [text] => text
  | text :: rest => text ++ separator ++ joinWith separator rest

namespace Column

/-- The column as a formula refers to it. -/
def dimension (column : Column) : Dimension where
  shown := String.ofList (joinWith pathJoin (column.path.map String.toList))
  isExpression := column.isExpression

end Column

/-- Whether the items after the name of a column are at most one, null or an object. -/
def endsReference : List Json → Bool
  | [] => true
  | [.null] => true
  | [.obj _] => true
  | _ => false

/-- Whether a clause has the form of a reference to a column: a field by number or name with its
options, an expression by name, or an aggregation by number. -/
def isColumnReference : Json → Bool
  | .arr (.str "field" :: .num _ :: rest) => !rest.isEmpty && endsReference rest
  | .arr (.str "field" :: .str _ :: rest) => !rest.isEmpty && endsReference rest
  | .arr (.str "expression" :: .str _ :: rest) => endsReference rest
  | .arr (.str "aggregation" :: .num _ :: rest) => endsReference rest
  | _ => false

namespace Metadata

/-- The description of a query without a table and without columns. -/
def empty : Metadata where
  table := none
  columns := []

/-- The first column that is written as a clause. -/
def columnFor (metadata : Metadata) (clause : Json) : Option Column :=
  metadata.columns.find? fun column => column.reference.sameValue clause

/-- The query that is described. -/
def toQuery (metadata : Metadata) : Query where
  table := metadata.table
  dimensions := metadata.columns.map Column.dimension
  isDimension := isColumnReference
  dimensionFor clause := (metadata.columnFor clause).map Column.dimension

end Metadata

/-- The fields of what has a number and a name. -/
def namedRecord {α : Type} (name : String) (start : α) (setId : Int64 → α → α)
    (setName : String → α → α) : Record α where
  name := name
  start := start
  fields := [.needed "id" .int64 setId, .needed "name" .text setName]

/-- The value for what has a number and a name. -/
def namedJson (id : Int64) (name : String) : Json :=
  .obj [("id", .num (.int (.ofInt64 id))), ("name", .str name)]

namespace Metric

/-- The fields of a metric. -/
def record : Record Metric :=
  namedRecord "Metric" ⟨0, ""⟩ (fun id m => { m with id := id })
    fun name m => { m with name := name }

/-- The value for a metric. -/
def toJson (m : Metric) : Json :=
  namedJson m.id m.name

end Metric

namespace Segment

/-- The fields of a segment. -/
def record : Record Segment :=
  namedRecord "Segment" ⟨0, ""⟩ (fun id s => { s with id := id })
    fun name s => { s with name := name }

/-- The value for a segment. -/
def toJson (s : Segment) : Json :=
  namedJson s.id s.name

end Segment

namespace TableField

/-- The fields of a table field. -/
def record : Record TableField where
  name := "Field"
  start := ⟨0, "", ""⟩
  fields :=
    [.needed "id" .int64 fun id f => { f with id := id },
     .needed "name" .text fun name f => { f with name := name },
     .optional "base_type" .text fun baseType f => { f with baseType := baseType }]

/-- The value for a table field. -/
def toJson (f : TableField) : Json :=
  .obj [("id", .num (.int (.ofInt64 f.id))), ("name", .str f.name),
    ("base_type", .str f.baseType)]

end TableField

namespace Table

/-- The fields of a table. -/
def record : Record Table where
  name := "Table"
  start := ⟨[], [], []⟩
  fields :=
    [.optional "metrics" (.sequence Metric.record.reader) fun ms t => { t with metrics := ms },
     .optional "segments" (.sequence Segment.record.reader) fun ss t => { t with segments := ss },
     .optional "fields" (.sequence TableField.record.reader) fun fs t => { t with fields := fs }]

/-- The value for a table. -/
def toJson (t : Table) : Json :=
  .obj [("metrics", .arr (t.metrics.map Metric.toJson)),
    ("segments", .arr (t.segments.map Segment.toJson)),
    ("fields", .arr (t.fields.map TableField.toJson))]

end Table

namespace Column

/-- How many containers a reference may hold open: those around it are the metadata, the list of
its columns and the column. -/
def referenceDepth : Nat := maxDepth - 3

/-- The fields of a column. -/
def record : Record Column where
  name := "DimensionOption"
  start := ⟨[], .null, false⟩
  fields :=
    [.needed "path" (.sequence .text) fun path c => { c with path := path },
     .needed "ref" (valueWithin referenceDepth) fun ref c => { c with reference := ref },
     .optional "expression" .boolean fun b c => { c with isExpression := b }]

/-- The value for a column. -/
def toJson (c : Column) : Json :=
  .obj [("path", .arr (c.path.map .str)), ("ref", c.reference),
    ("expression", .bool c.isExpression)]

end Column

namespace Metadata

/-- The fields of the description of a query. -/
def record : Record Metadata where
  name := "Metadata"
  start := .empty
  fields :=
    [.optional "table" Table.record.orNull fun table m => { m with table := table },
     .optional "dimensions" (.sequence Column.record.reader) fun columns m =>
      { m with columns := columns }]

/-- The value for the description of a query. -/
def toJson (m : Metadata) : Json :=
  .obj [("table", match m.table with
      | some table => table.toJson
      | none => .null),
    ("dimensions", .arr (m.columns.map Column.toJson))]

/-- The description in a JSON document. -/
def parse (source : String) : Except Fault Metadata :=
  record.reader.document source

/-- The JSON document of a description. -/
def document (m : Metadata) : String :=
  m.toJson.compact

end Metadata
end QueryFormula
