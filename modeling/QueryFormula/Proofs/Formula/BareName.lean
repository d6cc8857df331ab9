import QueryFormula.Proofs.Expression.Extension
import QueryFormula.Proofs.Formula.Application
import QueryFormula.Proofs.Formula.Tokens

/-!
# Names that read as calls

A name without quotes and a call without arguments are both written as a single
word.  A name is kept from being one of the names that clauses know, not from being
one of those that they are shown under, so the two can be the same.  This is all that
can happen: every other application has a mark in its text that is in no plain name.
-/

namespace QueryFormula

/-- Whether a piece is an operator or opens parentheses. -/
def Piece.isMark : Piece → Bool
  | .between _ => true
  | .before _ => true
  | .leftParen => true
  | _ => false

theorem exists_mem_pieceText_of_isMark
    {p : Piece} (h : p.isMark = true) (dialect : Dialect) :
    ∃ c ∈ dialect.pieceText p, ¬ (c.isAlphanum = true ∨ c = '_') := by
  cases p with
  | between op =>
      exact ⟨' ', List.mem_cons_self, by decide⟩
  | before op =>
      cases op with
      | not =>
          exact ⟨' ', List.mem_append_right _ (List.mem_singleton_self _), by decide⟩
      | minus =>
          exact ⟨'-', List.mem_singleton_self _, by decide⟩
      | plus =>
          exact ⟨'+', List.mem_singleton_self _, by decide⟩
  | leftParen =>
      exact ⟨'(', List.mem_singleton_self _, by decide⟩
  | _ =>
      contradiction

theorem print_ne_of_writesBare
    {dialect : Dialect} {f : Formula} {p : Piece} {bare : String}
    (hp : p ∈ f.layout) (hmark : p.isMark = true) (hbare : dialect.writesBare bare = true) :
    dialect.print f ≠ bare := by
  rintro rfl
  obtain ⟨c, hc, hother⟩ := exists_mem_pieceText_of_isMark hmark dialect
  apply hother
  apply (alphanum_of_writesBare hbare).2
  rw [Dialect.print, String.toList_ofList]
  exact List.mem_flatMap.mpr ⟨p, hp, hc⟩

theorem Formula.exists_chain_eq_binary
    (op : BinaryOperator) (first : Formula) {others : List Formula} (h : others ≠ []) :
    ∃ left right, Formula.chain op first others = .binary op left right := by
  refine ⟨Formula.chain op first others.dropLast, others.getLast h, ?_⟩
  calc
    Formula.chain op first others =
        Formula.chain op first (others.dropLast ++ [others.getLast h]) := by
      rw [List.dropLast_append_getLast]
    _ = .binary op (Formula.chain op first others.dropLast) (others.getLast h) := by
      rw [chain, chain, List.foldl_append]
      rfl

/-- Whatever is applied to arguments has a mark in its layout. -/
theorem Dialect.exists_isMark_applied
    (dialect : Dialect) (role : Role) (name : String) {args : List Formula} (h : args ≠ []) :
    ∃ p ∈ (dialect.applied role name args).layout, p.isMark = true := by
  unfold applied
  split
  · next operand op _ =>
    exact ⟨.before op, by rw [Formula.layout]; exact List.mem_cons_self, rfl⟩
  · next first second others op _ =>
    obtain ⟨left, right, hchain⟩ :=
      Formula.exists_chain_eq_binary op first (List.cons_ne_nil second others)
    rw [hchain, Formula.layout]
    exact ⟨.between op, List.mem_append_right _ List.mem_cons_self, rfl⟩
  · rw [Formula.layout_call_of_ne_nil _ h, Formula.layout]
    exact ⟨.leftParen, List.mem_cons_of_mem _ List.mem_cons_self, rfl⟩

theorem Dialect.applied_nil
    (dialect : Dialect) (role : Role) (name : String) :
    dialect.applied role name [] = .call (dialect.registry.displayName name) [] := by
  cases role <;> rfl

/-- What is applied to arguments never reads as a bare name, and what is applied to
none does when it is shown under that name. -/
theorem Dialect.print_applied_eq_iff
    {dialect : Dialect} {role : Role} {name bare : String} {args : List Formula}
    (hbare : dialect.writesBare bare = true) :
    dialect.print (dialect.applied role name args) = bare ↔
      args = [] ∧ dialect.registry.displayName name = bare := by
  by_cases hargs : args = []
  · subst hargs
    rw [applied_nil, print_call, List.map_nil, callText, if_pos rfl]
    simp
  · obtain ⟨p, hp, hmark⟩ := dialect.exists_isMark_applied role name hargs
    constructor
    · intro h
      exact absurd h (print_ne_of_writesBare hp hmark hbare)
    · intro h
      exact absurd h.1 hargs

/-- Whether a name can be called without arguments: it is known, but not as an
operator that is written with operands. -/
def Registry.callsAlone (registry : Registry) (name : String) : Bool :=
  registry.isReserved name && !(registry.isOperator name && (Operator.ofName? name).isSome)

theorem FormatError.ofArity?_zero_eq_none_iff
    {role : Role} {name : String} :
    FormatError.ofArity? role name 0 = none ↔
      (role = .operator → Operator.ofName? name = none) := by
  rw [FormatError.ofArity?_eq_none_iff]
  simp only [Operator.takes_zero, Bool.false_eq_true, imp_false, Option.eq_none_iff_forall_ne_some]

namespace Scope

theorem role?_eq_operator_iff
    {scope : Scope} {name : String} :
    scope.role? name = some .operator ↔ scope.registry.isOperator name = true := by
  rw [role?]
  cases scope.registry.isOperator name with
  | true =>
      simp
  | false =>
      cases scope.registry.isFunction name <;> simp

/-- A name that can be called alone is one whose role leaves it without a defect when
there are no arguments. -/
theorem callsAlone_iff
    (scope : Scope) {name : String} :
    scope.registry.callsAlone name = true ↔
      ∃ role, scope.role? name = some role ∧ FormatError.ofArity? role name 0 = none := by
  rw [Registry.callsAlone, ← role?_isSome, Bool.and_eq_true, Option.isSome_iff_exists]
  simp only [FormatError.ofArity?_zero_eq_none_iff]
  constructor
  · rintro ⟨⟨role, hrole⟩, hname⟩
    refine ⟨role, hrole, ?_⟩
    rintro rfl
    rw [role?_eq_operator_iff.mp hrole] at hname
    simpa using hname
  · rintro ⟨role, hrole, hname⟩
    refine ⟨⟨role, hrole⟩, ?_⟩
    cases hoperator : scope.registry.isOperator name with
    | false =>
        rfl
    | true =>
        have hsame := hrole.symm.trans (role?_eq_operator_iff.mpr hoperator)
        rw [hname (Option.some.inj hsame)]
        rfl

end Scope

namespace Editor

variable {editor : Editor}

theorem text_eq_bare_iff
    {clause : Json} {role : Role} {name : String} {args : List Expression}
    {options : Option Members} {text bare : String}
    (hclassify : editor.scope.classify clause = some (.application role name args options))
    (hformat : editor.format clause = .ok text) (hbare : editor.dialect.writesBare bare = true) :
    text = bare ↔ args = [] ∧ editor.dialect.registry.displayName name = bare := by
  obtain ⟨f, hf, rfl⟩ := (format_of_classify hclassify).mp hformat
  obtain ⟨-, fs, hfs, rfl⟩ := ofExpression_application_eq_ok_iff.mp hf
  have hnil : fs = [] ↔ args = [] := by
    rw [← List.length_eq_zero_iff, ← hfs.length_eq, List.length_eq_zero_iff]
  rw [Dialect.print_applied_eq_iff hbare, hnil]

/-- A name that can be called alone is shown as a call without arguments. -/
theorem exists_format_of_callsAlone
    {name bare : String} (halone : editor.dialect.registry.callsAlone name = true)
    (hname : editor.dialect.registry.displayName name = bare)
    (hbare : editor.dialect.writesBare bare = true) :
    ∃ role, editor.scope.classify (.arr [.str name]) = some (.application role name [] none) ∧
      editor.format (.arr [.str name]) = .ok bare := by
  obtain ⟨role, hrole, harity⟩ := (Scope.callsAlone_iff editor.scope).mp halone
  have hclassify : editor.scope.classify (.arr [.str name]) =
      some (.application role name [] none) := by
    rw [Scope.classify_eq_application_iff]
    exact ⟨[], rfl, hrole, by rw [Scope.classifyArgs]⟩
  refine ⟨role, hclassify, ?_⟩
  rw [format_of_classify hclassify]
  refine ⟨_, ofExpression_application_eq_ok_iff.mpr ⟨harity, [], .nil, rfl⟩, ?_⟩
  rw [Dialect.print_applied_eq_iff hbare]
  exact ⟨rfl, hname⟩

/-- An application reads as a bare name when it has no arguments and is shown under that
name, and only then.  The bare names that can be read so are those under which the names
that can be called alone are shown. -/
theorem format_application_eq_bare_iff (editor : Editor) :
    (∀ {clause : Json} {role : Role} {name : String} {args : List Expression}
      {options : Option Members} {text bare : String},
      editor.scope.classify clause = some (.application role name args options) →
      editor.format clause = .ok text → editor.dialect.writesBare bare = true →
        (text = bare ↔ args = [] ∧ editor.dialect.registry.displayName name = bare)) ∧
    ∀ bare, editor.dialect.writesBare bare = true →
      ((∃ clause role name args options,
        editor.scope.classify clause = some (.application role name args options) ∧
          editor.format clause = .ok bare) ↔
        ∃ name, editor.dialect.registry.callsAlone name = true ∧
          editor.dialect.registry.displayName name = bare) := by
  refine ⟨text_eq_bare_iff, ?_⟩
  intro bare hbare
  constructor
  · rintro ⟨clause, role, name, args, options, hclassify, hformat⟩
    obtain ⟨rfl, hname⟩ := (text_eq_bare_iff hclassify hformat hbare).mp rfl
    obtain ⟨rest, -, hrole, -⟩ := Scope.classify_eq_application_iff.mp hclassify
    obtain ⟨f, hf, -⟩ := (format_of_classify hclassify).mp hformat
    obtain ⟨harity, -⟩ := ofExpression_application_eq_ok_iff.mp hf
    exact ⟨name, (Scope.callsAlone_iff editor.scope).mpr ⟨role, hrole, harity⟩, hname⟩
  · rintro ⟨name, halone, hname⟩
    obtain ⟨role, hclassify, hformat⟩ := exists_format_of_callsAlone halone hname hbare
    exact ⟨_, role, name, [], none, hclassify, hformat⟩

/-- An editor that quotes names only where it has to, on a table with a metric that is
named as a function is shown. -/
def unquoted : Editor where
  dialect := { Dialect.standard with quoting := { Quoting.standard with alwaysQuoted := false } }
  query := Metadata.toQuery ⟨some ⟨[⟨1, "Count"⟩], [], []⟩, []⟩

theorem unquoted_names :
    unquoted.scope.role? "metric" = none ∧ unquoted.scope.role? "count" = some .function ∧
      unquoted.dialect.registry.displayName "count" = "Count" ∧
      unquoted.dialect.writesBare "Count" = true := by
  decide +kernel

/-- A call without arguments and a metric that stands bare are shown alike. -/
theorem count_reads_as_metric :
    unquoted.dialect.quoting.alwaysQuoted = false ∧
      unquoted.dialect.writesBare "Count" = true ∧
      unquoted.format (.arr [.str "metric", .num (.int (.ofInt64 1))]) = .ok "Count" ∧
      unquoted.scope.classify (.arr [.str "count"]) =
        some (.application .function "count" [] none) ∧
      unquoted.format (.arr [.str "count"]) = .ok "Count" := by
  obtain ⟨hmetric, hcount, hshown, hbare⟩ := unquoted_names
  have hcall : unquoted.scope.classify (.arr [.str "count"]) =
      some (.application .function "count" [] none) := by
    rw [Scope.classify_of_role hcount, Scope.classifyArgs]
  have hreference : unquoted.scope.classify (.arr [.str "metric", .num (.int (.ofInt64 1))]) =
      some (.metric (.int (.ofInt64 1))) := by
    rw [Scope.classify, hmetric]
    rfl
  refine ⟨rfl, hbare, ?_, hcall, ?_⟩
  · rw [format_of_classify hreference, ofExpression]
    refine ⟨.name "Count", by rfl, ?_⟩
    rw [Dialect.print_name, Dialect.formatName, if_pos hbare]
  · rw [format_of_classify hcall, ofExpression, ofExpressions]
    refine ⟨_, rfl, ?_⟩
    rw [Dialect.print_call, hshown]
    rfl

theorem format_application_eq_bare_iff_count :
    unquoted.scope.classify (.arr [.str "count", .num (.int (.ofInt64 7))]) =
        some (.application .function "count" [.number (.int (.ofInt64 7))] none) ∧
      unquoted.format (.arr [.str "count", .num (.int (.ofInt64 7))]) = .ok "Count(7)" ∧
      unquoted.dialect.writesBare "Count" = true ∧
      ("Count(7)" = "Count" ↔ [Expression.number (.int (.ofInt64 7))] = [] ∧
        unquoted.dialect.registry.displayName "count" = "Count") ∧
      ∃ clause role name args options,
        unquoted.scope.classify clause = some (.application role name args options) ∧
          unquoted.format clause = .ok "Count" := by
  obtain ⟨-, hcount, hshown, hbare⟩ := unquoted_names
  have hclassify : unquoted.scope.classify (.arr [.str "count", .num (.int (.ofInt64 7))]) =
      some (.application .function "count" [.number (.int (.ofInt64 7))] none) := by
    rw [Scope.classify_of_role hcount]
    rfl
  have hformat :
      unquoted.format (.arr [.str "count", .num (.int (.ofInt64 7))]) = .ok "Count(7)" := by
    rw [format_of_classify hclassify]
    simp only [ofExpression, ofExpressions]
    refine ⟨_, rfl, ?_⟩
    rw [Dialect.print_call, hshown]
    rfl
  obtain ⟨hreads, halone⟩ := format_application_eq_bare_iff unquoted
  refine ⟨hclassify, hformat, hbare, hreads hclassify hformat hbare, ?_⟩
  rw [halone "Count" hbare]
  refine ⟨"count", ?_, hshown⟩
  exact (Scope.callsAlone_iff unquoted.scope).mpr ⟨.function, hcount, rfl⟩

end Editor
end QueryFormula
