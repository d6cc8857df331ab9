import QueryFormula.Dialect.Basic
import QueryFormula.Json.Record

/-!
# Dialects as JSON

A dialect is read from a record in which every field may be absent and then keeps the value of the
standard dialect, and it is written with all fields in order.
-/

namespace QueryFormula

open QueryFormula.Json

/-- The reader of the name of a quoting style. -/
def Style.reader : Reader Style :=
  Reader.text.checked fun name => match Style.ofName name with
    | .ok style => .ok style
    | .error e => .error (.mismatch (.refused e.message))

/-- The value for a style. -/
def Style.toJson (style : Style) : Json :=
  .str style.name

/-- The value for a set of names. -/
def NameSet.toJson (set : NameSet) : Json :=
  .arr (set.names.map .str)

/-- The value for a map from names to texts. -/
def NameMap.toJson (map : NameMap) : Json :=
  .obj (map.entries.map fun entry => (entry.1, .str entry.2))

namespace Registry

/-- The fields of a registry. -/
def record : Record Registry where
  name := "Registry"
  start := .standard
  fields :=
    [.optional "operators" nameSet fun names r => { r with operators := names },
     .optional "functions" nameSet fun names r => { r with functions := names },
     .optional "display_names" nameMap fun entries r => { r with displayNames := entries }]

/-- The value for a registry. -/
def toJson (r : Registry) : Json :=
  .obj [("operators", r.operators.toJson), ("functions", r.functions.toJson),
    ("display_names", r.displayNames.toJson)]

end Registry

namespace Quoting

/-- The fields of the quoting rules. -/
def record : Record Quoting where
  name := "QuoteConfig"
  start := .standard
  fields :=
    [.optional "identifier_always_quoted" .boolean fun b q => { q with alwaysQuoted := b },
     .optional "identifier_quote_default" Style.reader fun s q => { q with names := s },
     .optional "literal_quote_default" Style.reader fun s q => { q with literals := s }]

/-- The value for the quoting rules. -/
def toJson (q : Quoting) : Json :=
  .obj [("identifier_always_quoted", .bool q.alwaysQuoted),
    ("identifier_quote_default", q.names.toJson), ("literal_quote_default", q.literals.toJson)]

end Quoting

namespace Separators

/-- The fields of the separators. -/
def record : Record Separators where
  name := "Separators"
  start := .standard
  fields :=
    [.optional "symbols" (.sequence .text) fun symbols s => { s with symbols := symbols },
     .optional "default" .text fun written s => { s with written := written }]

/-- The value for the separators. -/
def toJson (s : Separators) : Json :=
  .obj [("symbols", .arr (s.symbols.map .str)), ("default", .str s.written)]

end Separators

namespace Dialect

/-- The fields of a dialect. -/
def record : Record Dialect where
  name := "ExpressionConfig"
  start := .standard
  fields :=
    [.optional "registry" Registry.record.reader fun r d => { d with registry := r },
     .optional "quotes" Quoting.record.reader fun q d => { d with quoting := q },
     .optional "separators" Separators.record.reader fun s d => { d with separators := s }]

/-- The value for a dialect. -/
def toJson (d : Dialect) : Json :=
  .obj [("registry", d.registry.toJson), ("quotes", d.quoting.toJson),
    ("separators", d.separators.toJson)]

/-- The dialect of a JSON document. -/
def parse (source : String) : Except Fault Dialect :=
  record.reader.document source

/-- The JSON document of a dialect. -/
def document (d : Dialect) : String :=
  d.toJson.compact

end Dialect
end QueryFormula
