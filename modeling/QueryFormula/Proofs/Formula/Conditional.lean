import QueryFormula.Proofs.Expression.Application
import QueryFormula.Proofs.Formula.Meaning
import QueryFormula.Query.Metadata

/-!
# How conditionals are shown

The word that heads a conditional is a function of the dialect too.  A clause
headed by it is shown as a call when all its operands are expressions, its options
dropped as those of any call; it is shown as a conditional, with its default, only
when they are not, and then only if it is well formed.  A list of branches is no
expression, so a well-formed conditional is never taken for a call.
-/

namespace QueryFormula

/-- A relation through an intermediate value, element by element, is the relation
to a list of intermediate values. -/
theorem forall₂_exists_map_iff
    {α β γ : Type} {r : α → β → Prop} {g : β → γ} {xs : List α} {zs : List γ} :
    List.Forall₂ (fun x z => ∃ y, r x y ∧ g y = z) xs zs ↔
      ∃ ys, List.Forall₂ r xs ys ∧ ys.map g = zs := by
  constructor
  · intro h
    induction h with
    | nil =>
        exact ⟨[], .nil, rfl⟩
    | cons hhead _ ih =>
        obtain ⟨y, hy, rfl⟩ := hhead
        obtain ⟨ys, hys, rfl⟩ := ih
        exact ⟨y :: ys, .cons hy hys, rfl⟩
  · rintro ⟨ys, hys, rfl⟩
    rw [List.forall₂_map_right_iff]
    exact hys.imp fun _ y hy => ⟨y, hy, rfl⟩

/-! ## The text of calls and conditionals -/

/-- A name before its parts in parentheses, with commas between them. -/
def partsText (head : String) (parts : List String) : String :=
  head ++ "(" ++ ", ".intercalate parts ++ ")"

/-- A call as it is written: the name alone when it has no arguments. -/
def callText (head : String) (args : List String) : String :=
  if args = [] then head else partsText head args

namespace Dialect

theorem piecesText_append (dialect : Dialect) (ps qs : List Piece) :
    dialect.piecesText (ps ++ qs) = dialect.piecesText ps ++ dialect.piecesText qs :=
  List.flatMap_append

theorem piecesText_joined (dialect : Dialect) (rows : List (List Piece)) :
    dialect.piecesText (Piece.joined rows) =
      [',', ' '].intercalate (rows.map dialect.piecesText) := by
  cases rows with
  | nil =>
      rfl
  | cons row rows =>
      rw [Piece.joined]
      induction rows generalizing row with
      | nil =>
          rw [List.flatMap_nil, List.append_nil, List.map_singleton, List.intercalate_singleton]
      | cons next rows ih =>
          rw [List.flatMap_cons, piecesText_append, List.cons_append, List.map_cons, List.map_cons,
            List.intercalate_cons_cons, ← List.map_cons, ← ih next, List.append_assoc]
          rfl

theorem print_conditional (dialect : Dialect) (head : String) (fs : List Formula) :
    dialect.print (.conditional head fs) = partsText head (fs.map dialect.print) := by
  apply String.toList_inj.mp
  have htexts : (fs.map dialect.print).map String.toList =
      (fs.map Formula.layout).map dialect.piecesText := by
    rw [List.map_map, List.map_map]
    apply List.map_congr_left
    intro f _
    exact String.toList_ofList
  have hpieces : dialect.piecesText (Formula.layout (.conditional head fs)) =
      head.toList ++ ('(' :: dialect.piecesText (Formula.layoutParts fs) ++ [')']) := by
    rw [Formula.layout]
    simp [piecesText, enclose, pieceText]
  rw [print, String.toList_ofList, hpieces, Formula.layoutParts_eq_joined, piecesText_joined,
    ← htexts]
  simp [partsText]

theorem print_call (dialect : Dialect) (head : String) (fs : List Formula) :
    dialect.print (.call head fs) = callText head (fs.map dialect.print) := by
  by_cases hnil : fs = []
  · subst hnil
    rw [print, Formula.layout, piecesText, List.flatMap_singleton, pieceText,
      String.ofList_toList]
    rfl
  · have hne : fs.map dialect.print ≠ [] := fun h => hnil (List.map_eq_nil_iff.mp h)
    rw [callText, if_neg hne, ← print_conditional, print, print,
      Formula.layout_call_of_ne_nil head hnil]

end Dialect

/-! ## Well-formed conditionals -/

namespace Json

/-- Branches as they stand in a conditional: a condition and a value each. -/
def branchClauses (branches : List (Json × Json)) : List Json :=
  branches.map fun branch => .arr [branch.1, branch.2]

/-- The conditions and values of branches, in turn. -/
def branchParts (branches : List (Json × Json)) : List Json :=
  branches.flatMap fun branch => [branch.1, branch.2]

/-- The default among options, if there is one. -/
def defaults (options : Members) : List Json :=
  ((options.find? fun member => member.1 == "default").map Prod.snd).toList

/-- The items after the head of a well-formed conditional, with its conditions and
values in turn and its default, if it has one, at the end. -/
inductive Branched : List Json → List Json → Prop
  | plain (branches : List (Json × Json)) :
      Branched [.arr (branchClauses branches)] (branchParts branches)
  | options (branches : List (Json × Json)) (options : Members) :
      Branched [.arr (branchClauses branches), .obj options]
        (branchParts branches ++ defaults options)

end Json

namespace Editor

variable {editor : Editor}

theorem forall₂_format_iff
    {clauses : List Json} {texts : List String} :
    List.Forall₂ (fun clause text => editor.format clause = .ok text) clauses texts ↔
      ∃ fs, List.Forall₂ (fun clause f => editor.formulaOf clause = .ok f) clauses fs ∧
        fs.map editor.dialect.print = texts := by
  simp only [format_eq_ok_iff]
  exact forall₂_exists_map_iff

theorem ofExpressions_eq_ok_iff
    {xs : List Expression} {fs : List Formula} :
    editor.ofExpressions xs = .ok fs ↔
      List.Forall₂ (fun x f => editor.ofExpression x = .ok f) xs fs := by
  induction xs generalizing fs with
  | nil =>
      rw [ofExpressions, List.forall₂_nil_left_iff, Except.ok.injEq, eq_comm]
  | cons x xs ih =>
      rw [ofExpressions, bind_eq_ok_iff, List.forall₂_cons_left_iff]
      constructor
      · rintro ⟨f, hf, hrest⟩
        obtain ⟨fs', hfs', hresult⟩ := bind_eq_ok_iff.mp hrest
        exact ⟨f, fs', hf, ih.mp hfs', (Except.ok.inj hresult).symm⟩
      · rintro ⟨f, fs', hf, hfs', rfl⟩
        exact ⟨f, hf, bind_eq_ok_iff.mpr ⟨fs', ih.mpr hfs', rfl⟩⟩

/-- The formulas of clauses are those of what they are understood as. -/
theorem forall₂_formulaOf_iff
    {clauses : List Json} {xs : List Expression} {fs : List Formula}
    (h : List.Forall₂ (fun clause x => editor.scope.classify clause = some x) clauses xs) :
    List.Forall₂ (fun clause f => editor.formulaOf clause = .ok f) clauses fs ↔
      List.Forall₂ (fun x f => editor.ofExpression x = .ok f) xs fs := by
  induction h generalizing fs with
  | nil =>
      rw [List.forall₂_nil_left_iff, List.forall₂_nil_left_iff]
  | cons hclassify _ ih =>
      simp only [List.forall₂_cons_left_iff, ih, formulaOf_of_classify hclassify]

theorem ofBranches_eq_ok_iff
    {parts clauses : List Json} {fs : List Formula} :
    editor.ofBranches parts clauses = .ok fs ↔
      ∃ branches, clauses = Json.branchClauses branches ∧
        List.Forall₂ (fun clause f => editor.formulaOf clause = .ok f)
          (Json.branchParts branches) fs := by
  constructor
  · intro h
    induction clauses generalizing fs with
    | nil =>
        rw [ofBranches, Except.ok.injEq] at h
        subst h
        exact ⟨[], rfl, .nil⟩
    | cons clause clauses ih =>
        by_cases hbranch : ∃ condition value, clause = .arr [condition, value]
        · obtain ⟨condition, value, rfl⟩ := hbranch
          rw [ofBranches] at h
          obtain ⟨f₁, hf₁, hvalue⟩ := bind_eq_ok_iff.mp h
          obtain ⟨f₂, hf₂, hothers⟩ := bind_eq_ok_iff.mp hvalue
          obtain ⟨fs', hfs', hresult⟩ := bind_eq_ok_iff.mp hothers
          obtain ⟨branches, rfl, hparts⟩ := ih hfs'
          rw [← Except.ok.inj hresult]
          exact ⟨(condition, value) :: branches, rfl, .cons hf₁ (.cons hf₂ hparts)⟩
        · rw [ofBranches] at h
          · contradiction
          · intro condition value hclause
            exact hbranch ⟨condition, value, hclause⟩
  · rintro ⟨branches, rfl, h⟩
    induction branches generalizing fs with
    | nil =>
        rw [List.forall₂_nil_left_iff.mp h, Json.branchClauses, List.map_nil, ofBranches]
    | cons branch branches ih =>
        obtain ⟨f₁, fs₁, hf₁, hvalue, rfl⟩ := List.forall₂_cons_left_iff.mp h
        obtain ⟨f₂, fs₂, hf₂, hrest, rfl⟩ := List.forall₂_cons_left_iff.mp hvalue
        have hothers := ih hrest
        rw [Json.branchClauses] at hothers
        rw [Json.branchClauses, List.map_cons, ofBranches, hf₁, hf₂, hothers]
        rfl

theorem ofDefault_eq_ok_iff
    {options : Members} {fs : List Formula} :
    editor.ofDefault options = .ok fs ↔
      List.Forall₂ (fun clause f => editor.formulaOf clause = .ok f)
        (Json.defaults options) fs := by
  rw [ofDefault_eq, Json.defaults]
  cases options.find? fun member => member.1 == "default" with
  | none =>
      simp [eq_comm]
  | some member =>
      simp only [map_eq_ok_iff, Option.map_some, Option.toList_some, List.forall₂_cons_left_iff,
        List.forall₂_nil_left_iff]
      constructor
      · rintro ⟨f, hf, rfl⟩
        exact ⟨f, [], hf, rfl, rfl⟩
      · rintro ⟨f, _, hf, rfl, rfl⟩
        exact ⟨f, hf, rfl⟩

/-- A conditional has a formula only if it is well formed, the formula of all its
parts. -/
theorem ofExpression_conditional_iff
    {rest : List Json} {f : Formula} :
    editor.ofExpression (.conditional rest) = .ok f ↔
      ∃ parts fs, Json.Branched rest parts ∧
        List.Forall₂ (fun clause f => editor.formulaOf clause = .ok f) parts fs ∧
        f = .conditional (editor.dialect.registry.displayName "case") fs := by
  constructor
  · intro h
    rw [ofExpression.eq_def] at h
    simp only at h
    split at h
    · next clauses =>
      obtain ⟨fs, hfs, rfl⟩ := map_eq_ok_iff.mp h
      obtain ⟨branches, rfl, hparts⟩ := ofBranches_eq_ok_iff.mp hfs
      exact ⟨_, fs, .plain branches, hparts, rfl⟩
    · next clauses options =>
      obtain ⟨fs, hfs, hdefault⟩ := bind_eq_ok_iff.mp h
      obtain ⟨ds, hds, hresult⟩ := bind_eq_ok_iff.mp hdefault
      obtain ⟨branches, rfl, hparts⟩ := ofBranches_eq_ok_iff.mp hfs
      have hdefaults := ofDefault_eq_ok_iff.mp hds
      exact ⟨_, fs ++ ds, .options branches options, List.rel_append hparts hdefaults,
        (Except.ok.inj hresult).symm⟩
    · contradiction
  · rintro ⟨parts, fs, hbranched, hparts, rfl⟩
    cases hbranched with
    | plain branches =>
        rw [ofExpression]
        exact map_eq_ok_iff.mpr ⟨fs, ofBranches_eq_ok_iff.mpr ⟨branches, rfl, hparts⟩, rfl⟩
    | options branches options =>
        obtain ⟨us, vs, hus, hvs, rfl⟩ := forall₂_append_left_iff.mp hparts
        have hfs : editor.ofBranches [.arr (Json.branchClauses branches), .obj options]
            (Json.branchClauses branches) = .ok us :=
          ofBranches_eq_ok_iff.mpr ⟨branches, rfl, hus⟩
        rw [ofExpression, hfs, ofDefault_eq_ok_iff.mpr hvs]
        rfl

/-! ## Clauses under the name of conditionals -/

/-- Shown as a call on the operands; an object at the end does not show. -/
def ShowsCall (editor : Editor) (rest : List Json) (text : String) : Prop :=
  ∃ texts,
    List.Forall₂ (fun clause text => editor.format clause = .ok text) (Json.operands rest) texts ∧
      text = callText (editor.dialect.registry.displayName "case") texts

/-- Shown as a well-formed conditional: the conditions and values of its branches
in turn, and its default if it has one. -/
def ShowsConditional (editor : Editor) (rest : List Json) (text : String) : Prop :=
  ∃ parts texts, Json.Branched rest parts ∧
    List.Forall₂ (fun clause text => editor.format clause = .ok text) parts texts ∧
      text = partsText (editor.dialect.registry.displayName "case") texts

theorem role?_case
    (hfunction : editor.dialect.registry.isFunction "case" = true)
    (hoperator : editor.dialect.registry.isOperator "case" = false) :
    editor.scope.role? "case" = some .function := by
  have hnotOperator : editor.scope.registry.isOperator "case" = false := hoperator
  have hisFunction : editor.scope.registry.isFunction "case" = true := hfunction
  rw [Scope.role?, hnotOperator, hisFunction]
  rfl

section

variable {rest : List Json} {text : String}

theorem format_eq_ok_iff_showsCall
    (hrole : editor.scope.role? "case" = some .function)
    (hall : ∀ item ∈ Json.operands rest, editor.scope.isExpression item = true) :
    editor.format (.arr (.str "case" :: rest)) = .ok text ↔ editor.ShowsCall rest text := by
  obtain ⟨⟨args, options⟩, hargs⟩ :=
    Option.isSome_iff_exists.mp (Scope.classifyArgs_isSome_iff.mpr hall)
  have hclassify :
      editor.scope.classify (.arr (.str "case" :: rest)) =
        some (.application .function "case" args options) := by
    rw [Scope.classify_of_role hrole, hargs]
  have hoperands := (Scope.classifyArgs_eq_some_iff.mp hargs).1
  rw [format_of_classify hclassify, ofExpression, ShowsCall]
  simp only [forall₂_format_iff, map_eq_ok_iff, ofExpressions_eq_ok_iff]
  constructor
  · rintro ⟨_, ⟨fs, hfs, rfl⟩, rfl⟩
    exact ⟨_, ⟨fs, (forall₂_formulaOf_iff hoperands).mpr hfs, rfl⟩, Dialect.print_call _ _ fs⟩
  · rintro ⟨_, ⟨fs, hfs, rfl⟩, rfl⟩
    exact ⟨_, ⟨fs, (forall₂_formulaOf_iff hoperands).mp hfs, rfl⟩, Dialect.print_call _ _ fs⟩

theorem classify_case_of_not_application
    (hrole : editor.scope.role? "case" = some .function)
    (hsome : ∃ item ∈ Json.operands rest, editor.scope.isExpression item = false) :
    editor.scope.classify (.arr (.str "case" :: rest)) =
      if editor.query.isDimension (.arr (.str "case" :: rest)) = true then
        some (.dimension (.arr (.str "case" :: rest)))
      else some (.conditional rest) := by
  have hargs : editor.scope.classifyArgs rest = none := by
    obtain ⟨item, hitem, hnot⟩ := hsome
    rw [← Option.not_isSome_iff_eq_none, Scope.classifyArgs_isSome_iff]
    intro hall
    rw [hall item hitem] at hnot
    contradiction
  rw [Scope.classify_of_role hrole, hargs]
  exact Scope.classifyOther_case rest

theorem format_eq_ok_iff_formatDimension
    {clause reference : Json}
    (hclassify : editor.scope.classify clause = some (.dimension reference)) :
    editor.format clause = .ok text ↔
      ∃ dimension, editor.query.dimensionFor reference = some dimension ∧
        text = editor.dialect.formatDimension dimension := by
  rw [format_of_classify hclassify, ofExpression]
  simp only [dimensionFormula_eq_ok_iff]
  constructor
  · rintro ⟨_, ⟨dimension, hfor, rfl⟩, rfl⟩
    exact ⟨dimension, hfor, Dialect.print_name _ _⟩
  · rintro ⟨dimension, hfor, rfl⟩
    exact ⟨_, ⟨dimension, hfor, rfl⟩, Dialect.print_name _ _⟩

theorem format_text (s : String) :
    editor.format (.str s) = .ok (editor.dialect.formatLiteral s) := by
  have hclassify : editor.scope.classify (.str s) = some (.text s) := by
    rw [Scope.classify]
  rw [format_of_classify hclassify, ofExpression]
  refine ⟨_, rfl, ?_⟩
  simp [Dialect.print, Formula.layout, Dialect.piecesText, Dialect.pieceText]

theorem format_eq_ok_iff_showsConditional
    (hclassify : editor.scope.classify (.arr (.str "case" :: rest)) = some (.conditional rest)) :
    editor.format (.arr (.str "case" :: rest)) = .ok text ↔
      editor.ShowsConditional rest text := by
  rw [format_of_classify hclassify, ShowsConditional]
  simp only [forall₂_format_iff, ofExpression_conditional_iff]
  constructor
  · rintro ⟨_, ⟨parts, fs, hbranched, hfs, rfl⟩, rfl⟩
    exact ⟨parts, _, hbranched, ⟨fs, hfs, rfl⟩, Dialect.print_conditional _ _ fs⟩
  · rintro ⟨parts, _, hbranched, ⟨fs, hfs, rfl⟩, rfl⟩
    exact ⟨_, ⟨parts, fs, hbranched, hfs, rfl⟩, Dialect.print_conditional _ _ fs⟩

end

end Editor

/-- References to columns are under a name, and not under that of conditionals. -/
def Query.NamesColumns (query : Query) : Prop :=
  ∀ items, query.isDimension (.arr items) = true →
    ∃ name rest, items = .str name :: rest ∧ name ≠ "case"

theorem Metadata.namesColumns_toQuery (metadata : Metadata) :
    metadata.toQuery.NamesColumns := by
  intro items h
  have hreference : isColumnReference (.arr items) = true := h
  unfold isColumnReference at hreference
  split at hreference
  case h_5 => contradiction
  all_goals
    next heq =>
    exact ⟨_, _, Json.arr.inj heq, by decide⟩

namespace Editor

variable {editor : Editor} {rest : List Json} {text : String}

theorem isExpression_branchClauses
    (hcolumns : editor.query.NamesColumns) (branches : List (Json × Json)) :
    editor.scope.isExpression (.arr (Json.branchClauses branches)) = false := by
  have hnamed : ∀ name rest, Json.branchClauses branches ≠ .str name :: rest := by
    intro name rest
    cases branches with
    | nil =>
        intro h
        contradiction
    | cons branch branches =>
        intro h
        exact Json.noConfusion (List.cons.inj h).1
  have hdimension :
      ¬ editor.scope.isDimension (.arr (Json.branchClauses branches)) = true := by
    intro h
    obtain ⟨name, rest, hitems, -⟩ := hcolumns _ h
    exact hnamed name rest hitems
  rw [Scope.isExpression, Scope.classify_of_not_named hnamed, if_neg hdimension]
  rfl

/-- The list of branches is an operand, so a well-formed conditional is no call. -/
theorem exists_not_isExpression_of_branched
    (hcolumns : editor.query.NamesColumns) {parts : List Json} (h : Json.Branched rest parts) :
    ∃ item ∈ Json.operands rest, editor.scope.isExpression item = false := by
  cases h with
  | plain branches =>
      exact ⟨_, List.mem_singleton_self _, isExpression_branchClauses hcolumns branches⟩
  | options branches options =>
      exact ⟨_, List.mem_singleton_self _, isExpression_branchClauses hcolumns branches⟩

/-- A clause under the name of conditionals is shown as a call when all operands
among its items are expressions: no branches are asked for, and an object at the
end is dropped with the default in it.  Any other such clause is shown as the
column that it refers to, if it refers to one, and else as the well-formed
conditional that it must be.  Where columns are known by other names, a well-formed
conditional is always shown as one. -/
theorem format_case_iff
    (hfunction : editor.dialect.registry.isFunction "case" = true)
    (hoperator : editor.dialect.registry.isOperator "case" = false)
    (rest : List Json) (text : String) :
    ((∀ item ∈ Json.operands rest, editor.scope.isExpression item = true) →
      (editor.format (.arr (.str "case" :: rest)) = .ok text ↔ editor.ShowsCall rest text)) ∧
    ((∃ item ∈ Json.operands rest, editor.scope.isExpression item = false) →
      (editor.format (.arr (.str "case" :: rest)) = .ok text ↔
        if editor.query.isDimension (.arr (.str "case" :: rest)) = true then
          ∃ dimension, editor.query.dimensionFor (.arr (.str "case" :: rest)) = some dimension ∧
            text = editor.dialect.formatDimension dimension
        else editor.ShowsConditional rest text)) ∧
    (editor.query.NamesColumns →
      editor.query.isDimension (.arr (.str "case" :: rest)) = false ∧
        ∀ parts, Json.Branched rest parts →
          ∃ item ∈ Json.operands rest, editor.scope.isExpression item = false) := by
  have hrole := role?_case hfunction hoperator
  refine ⟨format_eq_ok_iff_showsCall hrole, ?_, ?_⟩
  · intro hsome
    have hclassify := classify_case_of_not_application hrole hsome
    by_cases hdimension : editor.query.isDimension (.arr (.str "case" :: rest)) = true
    · rw [if_pos hdimension] at hclassify ⊢
      exact format_eq_ok_iff_formatDimension hclassify
    · rw [if_neg hdimension] at hclassify ⊢
      exact format_eq_ok_iff_showsConditional hclassify
  · intro hcolumns
    refine ⟨?_, fun parts => exists_not_isExpression_of_branched hcolumns⟩
    rw [← Bool.not_eq_true]
    intro h
    obtain ⟨name, others, hitems, hname⟩ := hcolumns _ h
    exact hname (Json.str.inj (List.cons.inj hitems).1).symm

/-- An editor of the standard dialect on the query of an empty description. -/
def standard : Editor where
  dialect := .standard
  query := Metadata.empty.toQuery

/-- The standard dialect has conditionals among its functions. -/
theorem standard_isFunction_case :
    standard.dialect.registry.isFunction "case" = true ∧
      standard.dialect.registry.isOperator "case" = false := by
  decide +kernel

theorem format_case_default :
    standard.dialect.registry.isFunction "case" = true ∧
      standard.dialect.registry.isOperator "case" = false ∧
      standard.query.NamesColumns ∧
      standard.format (.arr [.str "case",
        .arr [.arr [.arr [.str "<", .num (.int (.ofInt64 1)), .num (.int (.ofInt64 2))],
          .str "low"]],
        .obj [("default", .str "high")]]) = .ok "case(1 < 2, \"low\", \"high\")" := by
  obtain ⟨hfunction, hoperator⟩ := standard_isFunction_case
  have hquery : standard.query.NamesColumns := Metadata.empty.namesColumns_toQuery
  refine ⟨hfunction, hoperator, hquery, ?_⟩
  obtain ⟨-, hways, hcolumns⟩ := format_case_iff hfunction hoperator
    [.arr [.arr [.arr [.str "<", .num (.int (.ofInt64 1)), .num (.int (.ofInt64 2))],
      .str "low"]], .obj [("default", .str "high")]] "case(1 < 2, \"low\", \"high\")"
  obtain ⟨hdimension, hconditional⟩ := hcolumns hquery
  have hbranched := Json.Branched.options
    [(.arr [.str "<", .num (.int (.ofInt64 1)), .num (.int (.ofInt64 2))], .str "low")]
    [("default", .str "high")]
  rw [hways (hconditional _ hbranched), hdimension]
  have hcondition : standard.format
      (.arr [.str "<", .num (.int (.ofInt64 1)), .num (.int (.ofInt64 2))]) =
        .ok "1 < 2" := by
    have hclassify : standard.scope.classify
        (.arr [.str "<", .num (.int (.ofInt64 1)), .num (.int (.ofInt64 2))]) =
          some (.application .operator "<"
            [.number (.int (.ofInt64 1)), .number (.int (.ofInt64 2))] none) := by
      rfl
    have hop : BinaryOperator.ofName? "<" = some .less := rfl
    rw [format_of_classify hclassify, ofExpression_of_binary hop]
    simp only [ofExpression, ofExpressions]
    exact ⟨_, rfl, by rfl⟩
  exact ⟨_, _, hbranched, .cons hcondition (.cons (format_text _) (.cons (format_text _) .nil)),
    by decide⟩

/-- A clause without branches is shown as a call, and its default is lost. -/
theorem format_case_without_branches :
    standard.dialect.registry.isFunction "case" = true ∧
      standard.dialect.registry.isOperator "case" = false ∧
      standard.format (.arr [.str "case", .num (.int (.ofInt64 1)),
        .obj [("default", .num (.int (.ofInt64 2)))]]) = .ok "case(1)" ∧
      ∀ parts, ¬ Json.Branched [.num (.int (.ofInt64 1)),
        .obj [("default", .num (.int (.ofInt64 2)))]] parts := by
  obtain ⟨hfunction, hoperator⟩ := standard_isFunction_case
  refine ⟨hfunction, hoperator, ?_, ?_⟩
  · have hclassify : standard.scope.classify (.num (.int (.ofInt64 1))) =
        some (.number (.int (.ofInt64 1))) := by
      rw [Scope.classify]
    have hnumber : standard.format (.num (.int (.ofInt64 1))) = .ok "1" := by
      rw [format_of_classify hclassify, ofExpression]
      exact ⟨_, rfl, by rfl⟩
    rw [format_eq_ok_iff_showsCall (role?_case hfunction hoperator)]
    · exact ⟨["1"], .cons hnumber .nil, by decide⟩
    · intro item hitem
      rw [List.mem_singleton.mp hitem, Scope.isExpression, hclassify]
      rfl
  · rintro parts ⟨⟩

end Editor

end QueryFormula
