import QueryFormula.Proofs.Dialect.Document
import QueryFormula.Proofs.Json.Value
import QueryFormula.Query.Metadata

/-!
# Documents read back

The description of a query is read back from its document when the clauses of its
columns are in order and not nested too deep, and every description that is read is
of this kind.  Together with what is known of dialects: what has been written is read
as what it was written from, and what is not given is standard.
-/

namespace QueryFormula

open QueryFormula.Json

/-- What has a number and a name is made from the start by setting the one and then the
other. -/
theorem reads_namedJson
    {α : Type} {title : String} {start : α} {setId : Int64 → α → α} {setName : String → α → α}
    (id : Int64) (name : String) :
    (namedRecord title start setId setName).reader.Reads (namedJson id name)
      (setName name (setId id start)) := by
  refine Record.reads_obj ["name", "id"] ?_ ?_
  · refine Record.steps_cons rfl (by decide) ((Reader.reads_int64 id).map _) ?_
    refine Record.steps_cons rfl (by decide) ((Reader.reads_text name).map _) ?_
    exact .nil
  · simp [namedRecord, Field.needed]

theorem TableField.reads_toJson (f : TableField) :
    record.reader.Reads f.toJson f := by
  refine Record.reads_obj ["base_type", "name", "id"] ?_ (by decide)
  refine Record.steps_cons rfl (by decide) ((Reader.reads_int64 f.id).map _) ?_
  refine Record.steps_cons rfl (by decide) ((Reader.reads_text f.name).map _) ?_
  refine Record.steps_cons rfl (by decide) ((Reader.reads_text f.baseType).map _) ?_
  exact .nil

namespace Table

theorem steps_toJson (t : Table) :
    Reader.Steps record.member (record.start, [])
      [("metrics", .arr (t.metrics.map Metric.toJson)),
        ("segments", .arr (t.segments.map Segment.toJson)),
        ("fields", .arr (t.fields.map TableField.toJson))]
      (t, ["fields", "segments", "metrics"]) := by
  refine Record.steps_cons rfl (by decide)
    ((Reader.reads_sequence_map fun m _ => reads_namedJson m.id m.name).map _) ?_
  refine Record.steps_cons rfl (by decide)
    ((Reader.reads_sequence_map fun s _ => reads_namedJson s.id s.name).map _) ?_
  refine Record.steps_cons rfl (by decide)
    ((Reader.reads_sequence_map fun f _ => TableField.reads_toJson f).map _) ?_
  exact .nil

/-- A table that may be absent is written as null without it. -/
theorem reads_orNull (table : Option Table) :
    record.orNull.Reads
      (match table with
        | some table => table.toJson
        | none => .null) table := by
  cases table with
  | none =>
      exact Record.reads_orNull_null
  | some table =>
      exact Record.reads_orNull_obj table.steps_toJson (by decide)

end Table

namespace Column

/-- The clause of a column is in order, and not nested deeper than it is read. -/
def Kept (column : Column) : Prop :=
  Json.Kept referenceDepth column.reference

theorem reads_toJson
    {column : Column} (h : column.Kept) :
    record.reader.Reads column.toJson column := by
  refine Record.reads_obj ["expression", "ref", "path"] ?_ (by decide)
  refine Record.steps_cons rfl (by decide)
    ((Reader.reads_sequence_map fun name _ => Reader.reads_text name).map _) ?_
  refine Record.steps_cons rfl (by decide) ((reads_valueWithin h).map _) ?_
  refine Record.steps_cons rfl (by decide) ((Reader.reads_boolean column.isExpression).map _) ?_
  exact .nil

theorem gives_kept :
    record.reader.Gives Kept := by
  refine Record.FieldsPreserve.reader ?_ (.scalar rfl)
  intro field hfield
  simp only [record, List.mem_cons, List.not_mem_nil, or_false] at hfield
  rcases hfield with rfl | rfl | rfl
  · exact (Reader.gives_true _).map fun _ _ _ hcolumn => hcolumn
  · exact (gives_valueWithin referenceDepth).map fun _ hreference _ _ => hreference
  · exact (Reader.gives_true _).map fun _ _ _ hcolumn => hcolumn

end Column

namespace Metadata

/-- The clauses of all columns are in order, and not nested deeper than they are
read. -/
def Kept (metadata : Metadata) : Prop :=
  ∀ column ∈ metadata.columns, column.Kept

theorem reads_toJson
    {metadata : Metadata} (h : metadata.Kept) :
    record.reader.Reads metadata.toJson metadata := by
  have hcolumns :
      (Reader.sequence Column.record.reader).Reads
        (.arr (metadata.columns.map Column.toJson)) metadata.columns :=
    Reader.reads_sequence_map fun column hcolumn => Column.reads_toJson (h column hcolumn)
  refine Record.reads_obj ["dimensions", "table"] ?_ (by decide)
  refine Record.steps_cons rfl (by decide) ((Table.reads_orNull metadata.table).map _) ?_
  refine Record.steps_cons rfl (by decide) (hcolumns.map _) ?_
  exact .nil

theorem gives_kept :
    record.reader.Gives Kept := by
  refine Record.FieldsPreserve.reader ?_ fun column hcolumn => absurd hcolumn List.not_mem_nil
  intro field hfield
  simp only [record, List.mem_cons, List.not_mem_nil, or_false] at hfield
  rcases hfield with rfl | rfl
  · exact (Reader.gives_true _).map fun _ _ _ hmetadata => hmetadata
  · exact Column.gives_kept.sequence.map fun _ hcolumns _ _ => hcolumns

end Metadata

/-- What has been written is read as what it was written from.  Any excerpt of the
document of a dialect, of its sections and of the fields in each of them, is read as
the dialect with the fields that are given and the standard ones in the others, and
the whole document as the dialect itself; a description of a query that has been read
is read again from its own document. -/
theorem parse_document :
    (∀ (d : Dialect) (doc : Json), doc.Excerpt 2 d.toJson →
        Dialect.parse doc.compact = .ok (d.limitedTo doc)) ∧
      (∀ d : Dialect, Dialect.parse d.document = .ok d) ∧
      ∀ (source : String) (m : Metadata), Metadata.parse source = .ok m →
        Metadata.parse m.document = .ok m := by
  have hexcerpt :
      ∀ (d : Dialect) (doc : Json), doc.Excerpt 2 d.toJson →
        Dialect.parse doc.compact = .ok (d.limitedTo doc) :=
    fun d doc hdoc => (Dialect.reads_excerpt hdoc).document
  refine ⟨hexcerpt, fun d => ?_, fun source m hread => ?_⟩
  · have hwhole := hexcerpt d d.toJson d.excerpt_toJson
    rwa [d.limitedTo_toJson] at hwhole
  · have hkept : m.Kept := Metadata.gives_kept.document hread
    exact (Metadata.reads_toJson hkept).document

/-- A dialect with names as plain words and literals between apostrophes. -/
def apostrophes : Dialect :=
  { Dialect.standard with quoting := ⟨false, .bracket, .single⟩ }

/-- Of these, only the apostrophes, and a section without any field. -/
def apostrophesAlone : Json :=
  .obj [("separators", .obj []), ("quotes", .obj [("literal_quote_default", .str "'")])]

theorem excerpt_apostrophesAlone :
    apostrophesAlone.Excerpt 2 apostrophes.toJson := by
  have hseparators : (Json.obj []).Excerpt 1 apostrophes.separators.toJson :=
    ⟨[], _, rfl, rfl, .nil, fun m hm => absurd hm List.not_mem_nil⟩
  have hquotes :
      (Json.obj [("literal_quote_default", .str "'")]).Excerpt 1 apostrophes.quoting.toJson := by
    refine ⟨_, _, rfl, rfl, List.nodup_singleton _, List.forall_mem_singleton.mpr ?_⟩
    exact ⟨("literal_quote_default", apostrophes.quoting.literals.toJson), by simp, rfl, rfl⟩
  have hkeys : ["separators", "quotes"].Nodup := by decide
  refine ⟨_, _, rfl, rfl, hkeys, ?_⟩
  simp only [List.forall_mem_cons]
  refine ⟨⟨("separators", apostrophes.separators.toJson), by simp, rfl, hseparators⟩,
    ⟨("quotes", apostrophes.quoting.toJson), by simp, rfl, hquotes⟩,
    fun m hm => absurd hm List.not_mem_nil⟩

/-- A reference to a column of a joined table. -/
def joinedReference : Json :=
  .arr [.str "field", .num (.int ⟨7, by decide, by decide⟩),
    .obj [("base-type", .str "type/Text"), ("join-alias", .null)]]

/-- A query with this column alone. -/
def joinedColumn : Metadata where
  table := none
  columns :=
    [{ path := ["Product", "Category"], reference := joinedReference, isExpression := false }]

/-- The same query, the clause before the path and nothing that may be absent. -/
def joinedColumnAlone : Json :=
  .obj [("dimensions", .arr
    [.obj [("ref", joinedReference), ("path", .arr [.str "Product", .str "Category"])]])]

theorem kept_joinedReference :
    Json.Kept Column.referenceDepth joinedReference := by
  have hoptions :
      Json.Kept 123 (.obj [("base-type", .str "type/Text"), ("join-alias", .null)]) := by
    refine .obj ?_ ?_
    · have hlt : "base-type" < "join-alias" := by decide
      exact List.pairwise_cons.mpr
        ⟨List.forall_mem_singleton.mpr hlt, List.pairwise_singleton _ _⟩
    · simp only [List.forall_mem_cons]
      exact ⟨.scalar rfl, .scalar rfl, fun m hm => absurd hm List.not_mem_nil⟩
  have hitems :
      ∀ item ∈ [Json.str "field", .num (.int ⟨7, by decide, by decide⟩),
        .obj [("base-type", .str "type/Text"), ("join-alias", .null)]], Json.Kept 123 item := by
    simp only [List.forall_mem_cons]
    exact ⟨.scalar rfl, .scalar rfl, hoptions, fun m hm => absurd hm List.not_mem_nil⟩
  exact .arr hitems

theorem parse_joinedColumnAlone :
    Metadata.parse joinedColumnAlone.compact = .ok joinedColumn := by
  have hpath :
      (Reader.sequence .text).Reads (.arr [.str "Product", .str "Category"])
        ["Product", "Category"] :=
    Reader.reads_sequence (.cons (Reader.reads_text _) (.cons (Reader.reads_text _) .nil))
  have hcolumn :
      Column.record.reader.Reads
        (.obj [("ref", joinedReference), ("path", .arr [.str "Product", .str "Category"])])
        ⟨["Product", "Category"], joinedReference, false⟩ := by
    refine Record.reads_obj ["path", "ref"] ?_ (by decide)
    refine Record.steps_cons rfl (by decide)
      ((reads_valueWithin kept_joinedReference).map _) ?_
    refine Record.steps_cons rfl (by decide) (hpath.map _) ?_
    exact .nil
  have hread : Metadata.record.reader.Reads joinedColumnAlone joinedColumn := by
    refine Record.reads_obj ["dimensions"] ?_ (by decide)
    refine Record.steps_cons rfl (by decide)
      ((Reader.reads_sequence (.cons hcolumn .nil)).map _) ?_
    exact .nil
  exact hread.document

theorem parse_document_partial :
    (apostrophesAlone.Excerpt 2 apostrophes.toJson ∧
        Dialect.parse apostrophesAlone.compact =
          .ok (apostrophes.limitedTo apostrophesAlone)) ∧
      Metadata.parse joinedColumnAlone.compact = .ok joinedColumn ∧
      Metadata.parse joinedColumn.document = .ok joinedColumn :=
  ⟨⟨excerpt_apostrophesAlone, parse_document.1 _ _ excerpt_apostrophesAlone⟩,
    parse_joinedColumnAlone, parse_document.2.2 _ _ parse_joinedColumnAlone⟩

example :
    apostrophes.limitedTo apostrophesAlone =
      { Dialect.standard with quoting := ⟨true, .bracket, .single⟩ } := by
  rfl

end QueryFormula
