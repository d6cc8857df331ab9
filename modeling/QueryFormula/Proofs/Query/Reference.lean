import QueryFormula.Proofs.Formula.Meaning
import QueryFormula.Proofs.Quote.Name
import QueryFormula.Query.Metadata

/-!
# References found again

A reference is printed by the number or the clause that it holds and is found
again by the name that was printed.  The two searches go through the same list in
the same order but ask for different things, so what is found is the first that
answers to the name, which is what was printed where names are told apart.
-/

namespace QueryFormula

/-! ## The first of a list -/

/-- An element stands at a place of a list and no element before it has the
property that it has. -/
structure FirstAt {α : Type} (p : α → Prop) (xs : List α) (i : Nat) (x : α) : Prop where
  here : xs[i]? = some x
  holds : p x
  none_before : ∀ j < i, ∀ y, xs[j]? = some y → ¬ p y

section

variable {α : Type} {xs : List α}

theorem findIdx?_eq_some_iff_firstAt
    {p : α → Bool} {i : Nat} :
    xs.findIdx? p = some i ↔ ∃ x, FirstAt (p · = true) xs i x := by
  rw [List.findIdx?_eq_some_iff_getElem]
  constructor
  · rintro ⟨hi, hp, hbefore⟩
    refine ⟨xs[i], List.getElem?_eq_getElem hi, hp, ?_⟩
    intro j hj y hy
    obtain ⟨hlt, rfl⟩ := List.getElem?_eq_some_iff.mp hy
    exact hbefore j hj
  · rintro ⟨x, hx⟩
    obtain ⟨hi, hhere⟩ := List.getElem?_eq_some_iff.mp hx.here
    refine ⟨hi, ?_, ?_⟩
    · rw [hhere]
      exact hx.holds
    · intro j hj
      exact hx.none_before j hj xs[j] (List.getElem?_eq_getElem (Nat.lt_trans hj hi))

theorem find?_eq_some_iff_firstAt
    {p : α → Bool} {x : α} :
    xs.find? p = some x ↔ ∃ i, FirstAt (p · = true) xs i x := by
  rw [List.find?_eq_some_iff_getElem]
  constructor
  · rintro ⟨hp, i, hi, rfl, hbefore⟩
    refine ⟨i, List.getElem?_eq_getElem hi, hp, ?_⟩
    intro j hj y hy
    obtain ⟨hlt, rfl⟩ := List.getElem?_eq_some_iff.mp hy
    simpa using hbefore j hj
  · rintro ⟨i, hx⟩
    obtain ⟨hi, hhere⟩ := List.getElem?_eq_some_iff.mp hx.here
    refine ⟨hx.holds, i, hi, hhere, ?_⟩
    intro j hj
    have hnot := hx.none_before j hj xs[j] (List.getElem?_eq_getElem (Nat.lt_trans hj hi))
    simpa using hnot

/-- Something has the property, so something is the first that has it. -/
theorem exists_firstAt
    {p : α → Prop} {j : Nat} {x : α} (hx : xs[j]? = some x) (hp : p x) :
    ∃ i y, FirstAt p xs i y ∧ i ≤ j := by
  induction j using Nat.strongRecOn generalizing x with
  | ind j ih =>
      by_cases hearlier : ∃ k < j, ∃ y, xs[k]? = some y ∧ p y
      · obtain ⟨k, hk, y, hy, hpy⟩ := hearlier
        obtain ⟨i, z, hz, hi⟩ := ih k hk hy hpy
        exact ⟨i, z, hz, by omega⟩
      · refine ⟨j, x, ⟨hx, hp, ?_⟩, Nat.le_refl j⟩
        intro k hk y hy hpy
        exact hearlier ⟨k, hk, y, hy, hpy⟩

/-- Where no two elements have the property together, the first is the only one. -/
theorem FirstAt.eq_of_pairwise
    {p : α → Prop} {i : Nat} {x y : α} (h : FirstAt p xs i x) (hy : y ∈ xs) (hp : p y)
    (hpairwise : xs.Pairwise fun a b => ¬ (p a ∧ p b)) :
    x = y := by
  obtain ⟨j, hj, rfl⟩ := List.getElem_of_mem hy
  obtain ⟨hi, rfl⟩ := List.getElem?_eq_some_iff.mp h.here
  rcases Nat.lt_trichotomy i j with hlt | rfl | hgt
  · exact absurd ⟨h.holds, hp⟩ (List.pairwise_iff_getElem.mp hpairwise i j hi hj hlt)
  · rfl
  · exact absurd ⟨hp, h.holds⟩ (List.pairwise_iff_getElem.mp hpairwise j i hj hi hgt)

end

/-! ## Names with letter case ignored -/

/-- What the name of an element finds: the first element of that name with letter
case ignored, and so the element itself where no two names are that much alike. -/
structure FirstNamed {α : Type} (name : α → String) (xs : List α) (x found : α) : Prop where
  first : ∃ i, FirstAt (fun y => Text.sameIgnoringCase (name y) (name x) = true) xs i found
  itself : (xs.Pairwise fun y z => Text.sameIgnoringCase (name y) (name z) = false) → found = x

theorem exists_firstNamed
    {α : Type} {name : α → String} {xs : List α} {x : α} (hx : x ∈ xs) :
    ∃ found, xs.find? (fun y => Text.sameIgnoringCase (name y) (name x)) = some found ∧
      FirstNamed name xs x found := by
  have hsame : Text.sameIgnoringCase (name x) (name x) = true := beq_self_eq_true _
  have hsome : (xs.find? fun y => Text.sameIgnoringCase (name y) (name x)).isSome = true :=
    List.find?_isSome.mpr ⟨x, hx, hsame⟩
  obtain ⟨found, hfound⟩ := Option.isSome_iff_exists.mp hsome
  obtain ⟨i, hfirst⟩ := find?_eq_some_iff_firstAt.mp hfound
  refine ⟨found, hfound, ⟨i, hfirst⟩, ?_⟩
  intro hdifferent
  apply hfirst.eq_of_pairwise hx hsame
  apply hdifferent.imp
  rintro a b hab ⟨ha, hb⟩
  rw [Text.sameIgnoringCase, beq_iff_eq] at ha hb
  rw [Text.sameIgnoringCase, ha, hb, beq_self_eq_true] at hab
  contradiction

namespace Query

variable {query : Query}

theorem findMetric_name
    {table : Table} {metric : Metric} (htable : query.table = some table)
    (hmetric : metric ∈ table.metrics) :
    ∃ found, query.findMetric metric.name = .ok (some found) ∧
      FirstNamed Metric.name table.metrics metric found := by
  obtain ⟨found, hfound, hfirst⟩ := @exists_firstNamed _ Metric.name _ _ hmetric
  refine ⟨found, ?_, hfirst⟩
  simp only [findMetric, sourceTable, htable, Except.map, hfound]

/-- A segment is found before any field of its name. -/
theorem findSegment_name
    {table : Table} {segment : Segment} (htable : query.table = some table)
    (hsegment : segment ∈ table.segments) :
    ∃ found, query.findSegment segment.name = .ok (some (.segment found)) ∧
      FirstNamed Segment.name table.segments segment found := by
  obtain ⟨found, hfound, hfirst⟩ := @exists_firstNamed _ Segment.name _ _ hsegment
  refine ⟨found, ?_, hfirst⟩
  simp only [findSegment, sourceTable, htable, Except.map, hfound]

/-! ## Columns by their names -/

/-- Whether a column answers to a name: it is not the formula that is being edited,
and the name is its own under some separator. -/
def Answers (separators : Separators) (edited : Option String) (name : String)
    (dimension : Dimension) : Prop :=
  ¬ (dimension.isExpression = true ∧ some dimension.shown = edited) ∧
    ∃ separator ∈ separators.symbols, dimension.nameWith separator = name

theorem findDimension_eq_some_iff
    {separators : Separators} {edited : Option String} {name : String} {i : Nat} :
    query.findDimension separators edited name = some i ↔
      ∃ dimension, FirstAt (Answers separators edited name) query.dimensions i dimension := by
  have hanswers :
      (fun dimension => (!isEdited edited dimension && hasName separators name dimension) = true) =
        Answers separators edited name := by
    funext dimension
    rw [Answers, isEdited, hasName, Bool.and_eq_true, Bool.not_eq_true', ← Bool.not_eq_true,
      Bool.and_eq_true, beq_iff_eq, List.any_eq_true]
    simp only [beq_iff_eq]
  rw [findDimension, findIdx?_eq_some_iff_firstAt, hanswers]

theorem exists_findDimension
    {separators : Separators} {edited : Option String} {name : String} {j : Nat}
    {dimension : Dimension} (hj : query.dimensions[j]? = some dimension)
    (h : Answers separators edited name dimension) :
    ∃ i ≤ j, query.findDimension separators edited name = some i := by
  obtain ⟨i, first, hfirst, hi⟩ := exists_firstAt hj h
  exact ⟨i, hi, findDimension_eq_some_iff.mpr ⟨first, hfirst⟩⟩

end Query

/-! ## References -/

namespace Dialect

/-- A dialect that quotes every name, in brackets. -/
structure QuotesNames (dialect : Dialect) : Prop where
  always : dialect.quoting.alwaysQuoted = true
  brackets : dialect.quoting.names = .bracket

theorem QuotesNames.formatName_eq
    {dialect : Dialect} (h : dialect.QuotesNames) (name : String) :
    dialect.formatName name = Style.bracket.quote name := by
  have hquoted : dialect.writesBare name = false := by
    rw [writesBare, h.always]
    rfl
  rw [formatName, hquoted, h.brackets]
  rfl

/-- The name of a reference is one token, if it can stand in brackets. -/
theorem QuotesNames.tokenize_print_name
    {dialect : Dialect} (h : dialect.QuotesNames) {name : String}
    (hname : Quote.Bracketable name.toList) :
    tokenize (dialect.print (.name name)) =
      ⟨[⟨.bracketed name, 0, (dialect.print (.name name)).utf8ByteSize⟩], []⟩ := by
  rw [print_name, h.formatName_eq]
  exact (tokenize_bracket_iff name).mpr hname

end Dialect

namespace Editor

/-- The text of a reference is the name of the first metric or segment of its
number, or of the first column of its clause.  Read as a token, that name finds
the first metric or segment that has it with letter case ignored, never a field in
place of a segment, and the first column that answers to it, which is the printed
one or stands before it unless the printed one is being edited. -/
theorem format_reference_resolves
    {dialect : Dialect} (hquotes : dialect.QuotesNames)
    (hwritten : dialect.separators.written ∈ dialect.separators.symbols)
    {metadata : Metadata} {clause : Json} {text : String}
    (hformat : (Editor.mk dialect metadata.toQuery).format clause = .ok text) :
    (∀ id, (Editor.mk dialect metadata.toQuery).scope.classify clause = some (.metric id) →
      ∃ table metric, metadata.table = some table ∧
        (∃ i, FirstAt (fun m => id.toInt64? = some m.id) table.metrics i metric) ∧
        text = dialect.formatMetric metric ∧
        (Quote.Bracketable metric.name.toList →
          tokenize text = ⟨[⟨.bracketed metric.name, 0, text.utf8ByteSize⟩], []⟩ ∧
          ∃ found, metadata.toQuery.findMetric metric.name = .ok (some found) ∧
            FirstNamed Metric.name table.metrics metric found)) ∧
    (∀ id, (Editor.mk dialect metadata.toQuery).scope.classify clause = some (.segment id) →
      ∃ table segment, metadata.table = some table ∧
        (∃ i, FirstAt (fun s => id.toInt64? = some s.id) table.segments i segment) ∧
        text = dialect.formatSegment segment ∧
        (Quote.Bracketable segment.name.toList →
          tokenize text = ⟨[⟨.bracketed segment.name, 0, text.utf8ByteSize⟩], []⟩ ∧
          ∃ found, metadata.toQuery.findSegment segment.name = .ok (some (.segment found)) ∧
            FirstNamed Segment.name table.segments segment found)) ∧
    (∀ reference,
      (Editor.mk dialect metadata.toQuery).scope.classify clause = some (.dimension reference) →
      ∃ column j,
        FirstAt (fun c => c.reference.sameValue reference = true) metadata.columns j column ∧
        text = dialect.formatDimension column.dimension ∧
        (Quote.Bracketable (dialect.dimensionName column.dimension).toList →
          tokenize text =
            ⟨[⟨.bracketed (dialect.dimensionName column.dimension), 0, text.utf8ByteSize⟩],
              []⟩ ∧
          ∀ edited,
            (∀ i, metadata.toQuery.findDimension dialect.separators edited
                (dialect.dimensionName column.dimension) = some i ↔
              ∃ dimension, FirstAt (Query.Answers dialect.separators edited
                (dialect.dimensionName column.dimension))
                (metadata.columns.map Column.dimension) i dimension) ∧
            (¬ (column.isExpression = true ∧ some column.dimension.shown = edited) →
              ∃ i ≤ j, metadata.toQuery.findDimension dialect.separators edited
                (dialect.dimensionName column.dimension) = some i))) := by
  refine ⟨?_, ?_, ?_⟩
  · intro id hclassify
    obtain ⟨f, hf, rfl⟩ := (format_of_classify hclassify).mp hformat
    rw [ofExpression] at hf
    obtain ⟨table, metric, htable, hfind, rfl⟩ := foundFormula_eq_ok_iff.mp hf
    have hmem : metric ∈ table.metrics := List.mem_of_find?_eq_some hfind
    have hfirst := find?_eq_some_iff_firstAt.mp hfind
    simp only [beq_iff_eq] at hfirst
    refine ⟨table, metric, htable, hfirst, dialect.print_name metric.name, ?_⟩
    intro hname
    exact ⟨hquotes.tokenize_print_name hname, Query.findMetric_name htable hmem⟩
  · intro id hclassify
    obtain ⟨f, hf, rfl⟩ := (format_of_classify hclassify).mp hformat
    rw [ofExpression] at hf
    obtain ⟨table, segment, htable, hfind, rfl⟩ := foundFormula_eq_ok_iff.mp hf
    have hmem : segment ∈ table.segments := List.mem_of_find?_eq_some hfind
    have hfirst := find?_eq_some_iff_firstAt.mp hfind
    simp only [beq_iff_eq] at hfirst
    refine ⟨table, segment, htable, hfirst, dialect.print_name segment.name, ?_⟩
    intro hname
    exact ⟨hquotes.tokenize_print_name hname, Query.findSegment_name htable hmem⟩
  · intro reference hclassify
    obtain ⟨f, hf, rfl⟩ := (format_of_classify hclassify).mp hformat
    rw [ofExpression] at hf
    obtain ⟨dimension, hdimension, rfl⟩ := dimensionFormula_eq_ok_iff.mp hf
    obtain ⟨column, hfind, rfl⟩ := Option.map_eq_some_iff.mp hdimension
    obtain ⟨j, hfirst⟩ := find?_eq_some_iff_firstAt.mp hfind
    refine ⟨column, j, hfirst, dialect.print_name _, ?_⟩
    intro hname
    refine ⟨hquotes.tokenize_print_name hname, ?_⟩
    intro edited
    refine ⟨fun i => Query.findDimension_eq_some_iff, ?_⟩
    intro hedited
    have hplace : metadata.toQuery.dimensions[j]? = some column.dimension := by
      rw [Metadata.toQuery, List.getElem?_map, hfirst.here]
      rfl
    exact Query.exists_findDimension hplace ⟨hedited, _, hwritten, rfl⟩

/-- A table with a segment and a field of truth values of one name, and two columns
of one name, the first of them a formula. -/
def sales : Metadata where
  table := some ⟨[], [⟨7, "Active"⟩], [⟨3, "active", "type/Boolean"⟩]⟩
  columns :=
    [⟨["Sales.Total"], .arr [.str "expression", .str "Sales.Total"], true⟩,
      ⟨["Sales", "Total"], .arr [.str "field", .num (.int (.ofInt64 5)), .null], false⟩]

theorem format_reference_resolves_sales :
    Dialect.standard.QuotesNames ∧
      Dialect.standard.separators.written ∈ Dialect.standard.separators.symbols ∧
      (Editor.mk .standard sales.toQuery).format
          (.arr [.str "segment", .num (.int (.ofInt64 7))]) = .ok "[Active]" ∧
      sales.toQuery.findSegment "Active" = .ok (some (.segment ⟨7, "Active"⟩)) ∧
      (Editor.mk .standard sales.toQuery).format
          (.arr [.str "field", .num (.int (.ofInt64 5)), .null]) = .ok "[Sales.Total]" ∧
      tokenize "[Sales.Total]" = ⟨[⟨.bracketed "Sales.Total", 0, 13⟩], []⟩ ∧
      ∀ edited, ∃ i ≤ 1,
        sales.toQuery.findDimension .standard edited "Sales.Total" = some i := by
  have hquotes : Dialect.standard.QuotesNames := ⟨rfl, rfl⟩
  have hwritten :
      Dialect.standard.separators.written ∈ Dialect.standard.separators.symbols := by
    decide
  have hsegment : (Editor.mk .standard sales.toQuery).scope.classify
      (.arr [.str "segment", .num (.int (.ofInt64 7))]) =
        some (.segment (.int (.ofInt64 7))) := by
    rfl
  have hcolumn : (Editor.mk .standard sales.toQuery).scope.classify
      (.arr [.str "field", .num (.int (.ofInt64 5)), .null]) =
        some (.dimension (.arr [.str "field", .num (.int (.ofInt64 5)), .null])) := by
    rfl
  have hsegmentText : (Editor.mk .standard sales.toQuery).format
      (.arr [.str "segment", .num (.int (.ofInt64 7))]) = .ok "[Active]" := by
    rw [format, formulaOf_of_classify hsegment, ofExpression]
    rfl
  have hcolumnText : (Editor.mk .standard sales.toQuery).format
      (.arr [.str "field", .num (.int (.ofInt64 5)), .null]) = .ok "[Sales.Total]" := by
    rw [format, formulaOf_of_classify hcolumn, ofExpression]
    rfl
  refine ⟨hquotes, hwritten, hsegmentText, ?_, hcolumnText, ?_⟩
  · obtain ⟨table, segment, htable, ⟨i, hfirst⟩, -, hresolves⟩ :=
      (format_reference_resolves hquotes hwritten hsegmentText).2.1 _ hsegment
    cases htable
    rcases i with - | i
    · cases hfirst.here
      obtain ⟨-, found, hfound, hnamed⟩ :=
        hresolves (Quote.bracketable_of_not_mem (by decide))
      rw [hnamed.itself (List.pairwise_singleton _ _)] at hfound
      exact hfound
    · cases hfirst.here
  · obtain ⟨column, j, hfirst, -, hresolves⟩ :=
      (format_reference_resolves hquotes hwritten hcolumnText).2.2 _ hcolumn
    rcases j with - | - | j
    · cases hfirst.here
      exact absurd hfirst.holds (by decide)
    · cases hfirst.here
      obtain ⟨htoken, hfinds⟩ := hresolves (Quote.bracketable_of_not_mem (by decide))
      refine ⟨htoken, ?_⟩
      intro edited
      exact (hfinds edited).2 fun h => Bool.false_ne_true h.1
    · cases hfirst.here

end Editor

end QueryFormula
