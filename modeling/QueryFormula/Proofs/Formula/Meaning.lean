import QueryFormula.Formula.Print
import QueryFormula.Proofs.Formula.Layout
import QueryFormula.Result

/-!
# What clauses are shown as

The reading of an expression is given rule by rule, without formulas: operators
with more than two operands group from the left, a negative number is a minus
sign before its magnitude, a conditional is a call on its conditions, values and
default, and options are dropped.  The formula that an editor finds for an
expression has this reading, so the text of a clause can only be read as the
clause was understood.
-/

namespace QueryFormula

theorem Dialect.print_name (dialect : Dialect) (name : String) :
    dialect.print (.name name) = dialect.formatName name := by
  rw [print, Formula.layout, piecesText, List.flatMap_singleton, pieceText, String.ofList_toList]

/-- A clause with the expression that it is understood as, and a reading. -/
structure Understood where
  clause : Json
  expression : Expression
  tree : Reading

namespace Understood

/-- The conditions and values of branches, in turn. -/
def flatten (branches : List (Understood × Understood)) : List Understood :=
  branches.flatMap fun branch => [branch.1, branch.2]

/-- A branch as it stands in a conditional. -/
def branchClause (branch : Understood × Understood) : Json :=
  .arr [branch.1.clause, branch.2.clause]

end Understood

/-- The default in what follows the branches of a conditional, as a list of at
most one clause; none when something else follows. -/
def Expression.defaults? : List Json → Option (List Json)
  | [] => some []
  | [.obj options] =>
    some ((options.find? fun member => member.1 == "default").map Prod.snd).toList
  | _ => none

namespace Editor

/-- The reading of an expression. -/
inductive Means (editor : Editor) : Expression → Reading → Prop
  | text (s : String) : Means editor (.text s) (.text s)
  | number (n : Number) : Means editor (.number n) (.ofNumber n)
  | boolean (b : Bool) : Means editor (.boolean b) (.boolean b)
  | dimension {reference : Json} {dimension : Dimension}
      (hdimension : editor.query.dimensionFor reference = some dimension) :
      Means editor (.dimension reference) (.name (editor.dialect.dimensionName dimension))
  | metric {id : Number} {table : Table} {metric : Metric}
      (htable : editor.query.table = some table)
      (hmetric :
        table.metrics.find? (fun metric => id.toInt64? == some metric.id) = some metric) :
      Means editor (.metric id) (.name metric.name)
  | segment {id : Number} {table : Table} {segment : Segment}
      (htable : editor.query.table = some table)
      (hsegment :
        table.segments.find? (fun segment => id.toInt64? == some segment.id) =
          some segment) :
      Means editor (.segment id) (.name segment.name)
  | call {role : Role} {name : String} {options : Option Members}
      (args : List (Expression × Reading))
      (hrole : role = .function ∨ Operator.ofName? name = none)
      (hargs : ∀ arg ∈ args, Means editor arg.1 arg.2) :
      Means editor (.application role name (args.map Prod.fst) options)
        (.call (editor.dialect.registry.displayName name) (args.map Prod.snd))
  | unary {name : String} {options : Option Members} {op : UnaryOperator}
      {operand : Expression} {tree : Reading}
      (hop : UnaryOperator.ofName? name = some op)
      (hoperand : Means editor operand tree) :
      Means editor (.application .operator name [operand] options) (.unary op tree)
  | binary {name : String} {options : Option Members} {op : BinaryOperator}
      {first : Expression} {tree : Reading} (others : List (Expression × Reading))
      (hop : BinaryOperator.ofName? name = some op) (hothers : others ≠ [])
      (hfirst : Means editor first tree)
      (hmeans : ∀ other ∈ others, Means editor other.1 other.2) :
      Means editor (.application .operator name (first :: others.map Prod.fst) options)
        ((others.map Prod.snd).foldl (.binary op) tree)
  | conditional {rest : List Json} (branches : List (Understood × Understood))
      (default : List Understood)
      (hdefault : Expression.defaults? rest = some (default.map Understood.clause))
      (hclassify : ∀ item ∈ Understood.flatten branches ++ default,
        editor.scope.classify item.clause = some item.expression)
      (hmeans : ∀ item ∈ Understood.flatten branches ++ default,
        Means editor item.expression item.tree) :
      Means editor (.conditional (.arr (branches.map Understood.branchClause) :: rest))
        (.call (editor.dialect.registry.displayName "case")
          ((Understood.flatten branches ++ default).map Understood.tree))

variable {editor : Editor}

theorem formulaOf_of_classify
    {clause : Json} {x : Expression} (h : editor.scope.classify clause = some x) :
    editor.formulaOf clause = editor.ofExpression x := by
  rw [formulaOf]
  split
  · rename_i hnone
    rw [h] at hnone
    contradiction
  · rename_i y hsome
    rw [h] at hsome
    rw [Option.some.inj hsome]

theorem classify_of_formulaOf_eq_ok
    {clause : Json} {f : Formula} (h : editor.formulaOf clause = .ok f) :
    ∃ x, editor.scope.classify clause = some x ∧ editor.ofExpression x = .ok f := by
  cases hx : editor.scope.classify clause with
  | none =>
      rw [formulaOf] at h
      split at h
      · contradiction
      · rename_i y hsome
        rw [hx] at hsome
        contradiction
  | some x =>
      rw [formulaOf_of_classify hx] at h
      exact ⟨x, rfl, h⟩

theorem dimensionFormula_eq_ok_iff
    {reference : Json} {f : Formula} :
    editor.dimensionFormula reference = .ok f ↔
      ∃ dimension, editor.query.dimensionFor reference = some dimension ∧
        f = .name (editor.dialect.dimensionName dimension) := by
  unfold dimensionFormula
  cases editor.query.dimensionFor reference with
  | none =>
      simp
  | some dimension =>
      simp [eq_comm]

theorem foundFormula_eq_ok_iff
    {α : Type} {found : Table → Option α} {name : α → String} {unknown : FormatError}
    {f : Formula} :
    editor.foundFormula found name unknown = .ok f ↔
      ∃ table entry, editor.query.table = some table ∧ found table = some entry ∧
        f = .name (name entry) := by
  unfold foundFormula
  cases editor.query.table with
  | none =>
      simp
  | some table =>
      cases hfound : found table with
      | none =>
          simp [hfound]
      | some entry =>
          simp [hfound, eq_comm]

/-- Only the first default counts. -/
theorem ofDefault_eq (options : Members) :
    editor.ofDefault options =
      match options.find? fun member => member.1 == "default" with
      | some member => (editor.formulaOf member.2).map ([·])
      | none => .ok [] := by
  induction options with
  | nil =>
      rw [ofDefault, List.find?_nil]
  | cons member rest ih =>
      obtain ⟨key, value⟩ := member
      rw [ofDefault, List.find?_cons]
      by_cases hkey : key = "default"
      · have hbeq : (key == "default") = true := beq_iff_eq.mpr hkey
        simp only [if_pos hkey, hbeq]
      · have hbeq : (key == "default") = false := beq_eq_false_iff_ne.mpr hkey
        simp only [if_neg hkey, hbeq]
        exact ih

theorem reading_chain
    (op : BinaryOperator) (first : Formula) (others : List Formula) :
    (Formula.chain op first others).reading =
      (others.map Formula.reading).foldl (.binary op) first.reading := by
  induction others generalizing first with
  | nil =>
      rfl
  | cons other rest ih =>
      rw [Formula.chain, List.foldl_cons, List.map_cons, List.foldl_cons]
      exact ih (.binary op first other)

theorem ofName?_of_unary
    {name : String} {sign : UnaryOperator} (h : UnaryOperator.ofName? name = some sign) :
    ∃ op, Operator.ofName? name = some op := by
  unfold UnaryOperator.ofName? at h
  split at h
  · exact ⟨.not, rfl⟩
  · exact ⟨.binary .minus, rfl⟩
  · exact ⟨.binary .plus, rfl⟩
  · contradiction

theorem ofName?_eq_some_binary_iff
    {name : String} {op : BinaryOperator} :
    Operator.ofName? name = some (.binary op) ↔ BinaryOperator.ofName? name = some op := by
  unfold Operator.ofName?
  by_cases hname : name = "not"
  · rw [if_pos hname, hname]
    simp [BinaryOperator.ofName?]
  · rw [if_neg hname]
    simp

/-! ## The formulas of operator applications -/

section Application

variable {name : String} {options : Option Members}

theorem ofExpression_of_unknown
    {args : List Expression} (h : Operator.ofName? name = none) :
    editor.ofExpression (.application .operator name args options) =
      (editor.ofExpressions args).map (.call (editor.dialect.registry.displayName name)) := by
  simp only [ofExpression.eq_def, h]

theorem ofExpression_of_unary
    {sign : UnaryOperator} {operand : Expression}
    (h : UnaryOperator.ofName? name = some sign) :
    editor.ofExpression (.application .operator name [operand] options) =
      (editor.ofExpression operand).map (.unary sign) := by
  obtain ⟨op, hop⟩ := ofName?_of_unary h
  rw [ofExpression.eq_def]
  simp only [hop, h]

theorem ofExpression_of_binary
    {op : BinaryOperator} {first second : Expression} {others : List Expression}
    (h : BinaryOperator.ofName? name = some op) :
    editor.ofExpression (.application .operator name (first :: second :: others) options) =
      do
        let first ← editor.ofExpression first
        let others ← editor.ofExpressions (second :: others)
        return .chain op first others := by
  have hname : Operator.ofName? name = some (.binary op) :=
    ofName?_eq_some_binary_iff.mpr h
  rw [ofExpression.eq_def]
  simp only [hname]

end Application

/-! ## Readings have formulas -/

theorem ofExpressions_of_forall
    {args : List (Expression × Reading)}
    (h : ∀ arg ∈ args, ∃ f, editor.ofExpression arg.1 = .ok f ∧ f.reading = arg.2) :
    ∃ fs, editor.ofExpressions (args.map Prod.fst) = .ok fs ∧
      fs.map Formula.reading = args.map Prod.snd := by
  induction args with
  | nil =>
      exact ⟨[], by rw [List.map_nil, ofExpressions], rfl⟩
  | cons arg rest ih =>
      obtain ⟨f, hf, hreading⟩ := h arg List.mem_cons_self
      obtain ⟨fs, hfs, hreadings⟩ := ih fun arg' harg' =>
        h arg' (List.mem_cons_of_mem arg harg')
      refine ⟨f :: fs, ?_, ?_⟩
      · rw [List.map_cons, ofExpressions, hf, hfs]
        rfl
      · rw [List.map_cons, List.map_cons, hreading, hreadings]

theorem ofBranches_of_forall
    (parts : List Json) {branches : List (Understood × Understood)}
    (h : ∀ item ∈ Understood.flatten branches,
      ∃ f, editor.formulaOf item.clause = .ok f ∧ f.reading = item.tree) :
    ∃ fs, editor.ofBranches parts (branches.map Understood.branchClause) = .ok fs ∧
      fs.map Formula.reading = (Understood.flatten branches).map Understood.tree := by
  induction branches with
  | nil =>
      exact ⟨[], by rw [List.map_nil, ofBranches], rfl⟩
  | cons branch rest ih =>
      have hflatten :
          Understood.flatten (branch :: rest) =
            branch.1 :: branch.2 :: Understood.flatten rest := rfl
      rw [hflatten] at h ⊢
      obtain ⟨f₁, hf₁, hreading₁⟩ := h branch.1 List.mem_cons_self
      obtain ⟨f₂, hf₂, hreading₂⟩ :=
        h branch.2 (List.mem_cons_of_mem _ List.mem_cons_self)
      obtain ⟨fs, hfs, hreadings⟩ := ih fun item hitem =>
        h item (List.mem_cons_of_mem _ (List.mem_cons_of_mem _ hitem))
      refine ⟨f₁ :: f₂ :: fs, ?_, ?_⟩
      · rw [List.map_cons, Understood.branchClause, ofBranches, hf₁, hf₂, hfs]
        rfl
      · simp only [List.map_cons, hreading₁, hreading₂, hreadings]

theorem ofDefault_of_forall
    {options : Members} {default : List Understood}
    (hdefault : Expression.defaults? [.obj options] =
      some (default.map Understood.clause))
    (h : ∀ item ∈ default, ∃ f, editor.formulaOf item.clause = .ok f ∧
      f.reading = item.tree) :
    ∃ fs, editor.ofDefault options = .ok fs ∧
      fs.map Formula.reading = default.map Understood.tree := by
  rw [Expression.defaults?, Option.some.injEq] at hdefault
  rw [ofDefault_eq]
  cases hfind : options.find? fun member => member.1 == "default" with
  | none =>
      rw [hfind] at hdefault
      have hnil : default = [] := List.map_eq_nil_iff.mp hdefault.symm
      exact ⟨[], rfl, by rw [hnil]; rfl⟩
  | some member =>
      rw [hfind] at hdefault
      obtain ⟨item, hitem, hclause⟩ := List.map_eq_singleton_iff.mp hdefault.symm
      obtain ⟨f, hf, hreading⟩ := h item (hitem ▸ List.mem_singleton_self item)
      rw [hclause] at hf
      refine ⟨[f], ?_, ?_⟩
      · simp only [hf]
        rfl
      · rw [hitem, List.map_singleton, List.map_singleton, hreading]

/-- Whatever the rules read an expression as is the reading of its formula. -/
theorem Means.exists_formula
    {x : Expression} {tree : Reading} (h : editor.Means x tree) :
    ∃ f, editor.ofExpression x = .ok f ∧ f.reading = tree := by
  induction h with
  | text s =>
      exact ⟨.text s, by rw [ofExpression], by rw [Formula.reading]⟩
  | number n =>
      exact ⟨.number n, by rw [ofExpression], by rw [Formula.reading]⟩
  | boolean b =>
      exact ⟨.boolean b, by rw [ofExpression], by rw [Formula.reading]⟩
  | @dimension reference dimension hdimension =>
      refine ⟨.name (editor.dialect.dimensionName dimension), ?_, by rw [Formula.reading]⟩
      rw [ofExpression, dimensionFormula_eq_ok_iff]
      exact ⟨dimension, hdimension, rfl⟩
  | @metric id table metric htable hmetric =>
      refine ⟨.name metric.name, ?_, by rw [Formula.reading]⟩
      rw [ofExpression, metricFormula, foundFormula_eq_ok_iff]
      exact ⟨table, metric, htable, hmetric, rfl⟩
  | @segment id table segment htable hsegment =>
      refine ⟨.name segment.name, ?_, by rw [Formula.reading]⟩
      rw [ofExpression, segmentFormula, foundFormula_eq_ok_iff]
      exact ⟨table, segment, htable, hsegment, rfl⟩
  | @call role name options args hrole hargs ih =>
      obtain ⟨fs, hfs, hreadings⟩ := ofExpressions_of_forall ih
      refine ⟨.call (editor.dialect.registry.displayName name) fs, ?_, ?_⟩
      · cases role with
        | function =>
            rw [ofExpression, hfs]
            rfl
        | operator =>
            have hnone : Operator.ofName? name = none := hrole.resolve_left (by decide)
            rw [ofExpression_of_unknown hnone, hfs]
            rfl
      · rw [Formula.reading, Formula.readings_eq_map, hreadings]
  | @unary name options op operand tree hop hoperand ih =>
      obtain ⟨f, hf, hreading⟩ := ih
      refine ⟨.unary op f, ?_, ?_⟩
      · rw [ofExpression_of_unary hop, hf]
        rfl
      · rw [Formula.reading, hreading]
  | @binary name options op first tree others hop hothers hfirst hmeans ihFirst ihOthers =>
      obtain ⟨f, hf, hreading⟩ := ihFirst
      obtain ⟨fs, hfs, hreadings⟩ := ofExpressions_of_forall ihOthers
      refine ⟨.chain op f fs, ?_, ?_⟩
      · obtain ⟨other, rest, hcons⟩ := List.exists_cons_of_ne_nil hothers
        rw [hcons, List.map_cons] at hfs ⊢
        rw [ofExpression_of_binary hop, hf, hfs]
        rfl
      · rw [reading_chain, hreading, hreadings]
  | @conditional rest branches default hdefault hclassify hmeans ih =>
      have hitems :
          ∀ item ∈ Understood.flatten branches ++ default,
            ∃ f, editor.formulaOf item.clause = .ok f ∧ f.reading = item.tree := by
        intro item hitem
        rw [formulaOf_of_classify (hclassify item hitem)]
        exact ih item hitem
      obtain ⟨fs, hfs, hreadings⟩ :=
        ofBranches_of_forall (.arr (branches.map Understood.branchClause) :: rest)
          fun item hitem => hitems item (List.mem_append_left _ hitem)
      have hdefaults := fun item hitem => hitems item (List.mem_append_right _ hitem)
      rcases rest with - | ⟨part, - | ⟨part', rest⟩⟩
      · have hnil : default = [] := by
          rw [Expression.defaults?, Option.some.injEq] at hdefault
          exact List.map_eq_nil_iff.mp hdefault.symm
        refine ⟨.conditional (editor.dialect.registry.displayName "case") fs, ?_, ?_⟩
        · rw [ofExpression, hfs]
          rfl
        · rw [Formula.reading, Formula.readings_eq_map, hreadings, hnil, List.append_nil]
      · cases part with
        | obj options =>
            obtain ⟨ds, hds, hdreadings⟩ := ofDefault_of_forall hdefault hdefaults
            refine ⟨.conditional (editor.dialect.registry.displayName "case") (fs ++ ds),
              ?_, ?_⟩
            · rw [ofExpression, hfs, hds]
              rfl
            · rw [Formula.reading, Formula.readings_eq_map, List.map_append, hreadings,
                hdreadings, List.map_append]
        | _ =>
            simp [Expression.defaults?] at hdefault
      · simp [Expression.defaults?] at hdefault

/-! ## Formulas have the readings of their expressions -/

/-- The clause is understood as the expression, which has the reading. -/
def Shown (editor : Editor) (item : Understood) : Prop :=
  editor.scope.classify item.clause = some item.expression ∧
    editor.Means item.expression item.tree

/-- The formulas are shown as the readings, each of a clause of the list. -/
def ShownAs (editor : Editor) (items : List Understood) (fs : List Formula) : Prop :=
  (∀ item ∈ items, editor.Shown item) ∧
    fs.map Formula.reading = items.map Understood.tree

theorem shownAs_nil : editor.ShownAs [] [] :=
  ⟨fun _ hitem => absurd hitem List.not_mem_nil, rfl⟩

theorem ShownAs.cons
    {item : Understood} {items : List Understood} {f : Formula} {fs : List Formula}
    (hitem : editor.Shown item) (hreading : f.reading = item.tree)
    (h : editor.ShownAs items fs) :
    editor.ShownAs (item :: items) (f :: fs) := by
  constructor
  · intro item' hitem'
    rcases List.mem_cons.mp hitem' with rfl | hrest
    · exact hitem
    · exact h.1 item' hrest
  · rw [List.map_cons, List.map_cons, hreading, h.2]

theorem Means.of_branches
    {rest : List Json} {branches : List (Understood × Understood)}
    {default : List Understood} {fs ds : List Formula}
    (hdefault : Expression.defaults? rest = some (default.map Understood.clause))
    (hfs : editor.ShownAs (Understood.flatten branches) fs)
    (hds : editor.ShownAs default ds) :
    editor.Means (.conditional (.arr (branches.map Understood.branchClause) :: rest))
      (Formula.conditional (editor.dialect.registry.displayName "case") (fs ++ ds)).reading := by
  have hshown :
      ∀ item ∈ Understood.flatten branches ++ default, editor.Shown item := by
    intro item hitem
    rcases List.mem_append.mp hitem with hbranch | hitem
    · exact hfs.1 item hbranch
    · exact hds.1 item hitem
  rw [Formula.reading, Formula.readings_eq_map, List.map_append, hfs.2, hds.2,
    ← List.map_append]
  exact .conditional branches default hdefault
    (fun item hitem => (hshown item hitem).1) (fun item hitem => (hshown item hitem).2)

theorem Means.of_args
    {role : Role} {name : String} {options : Option Members}
    {args : List (Expression × Reading)} {fs : List Formula}
    (hrole : role = .function ∨ Operator.ofName? name = none)
    (hargs : ∀ arg ∈ args, editor.Means arg.1 arg.2)
    (hfs : fs.map Formula.reading = args.map Prod.snd) :
    editor.Means (.application role name (args.map Prod.fst) options)
      (Formula.call (editor.dialect.registry.displayName name) fs).reading := by
  rw [Formula.reading, Formula.readings_eq_map, hfs]
  exact .call args hrole hargs

/-- The induction follows the search for formulas: a clause, an expression, the
options of a conditional, its branches and the arguments of an application have
each their own statement. -/
theorem means_of_formulas :
    (∀ clause f, editor.formulaOf clause = .ok f →
      ∃ item, editor.Shown item ∧ item.clause = clause ∧ f.reading = item.tree) ∧
    (∀ x f, editor.ofExpression x = .ok f → editor.Means x f.reading) ∧
    (∀ options fs, editor.ofDefault options = .ok fs →
      ∃ default, editor.ShownAs default fs ∧
        Expression.defaults? [.obj options] = some (default.map Understood.clause)) ∧
    (∀ parts clauses fs, editor.ofBranches parts clauses = .ok fs →
      ∃ branches, editor.ShownAs (Understood.flatten branches) fs ∧
        branches.map Understood.branchClause = clauses) ∧
    (∀ xs fs, editor.ofExpressions xs = .ok fs →
      ∃ args : List (Expression × Reading),
        (∀ arg ∈ args, editor.Means arg.1 arg.2) ∧ args.map Prod.fst = xs ∧
          fs.map Formula.reading = args.map Prod.snd) := by
  apply formulaOf.mutual_induct editor
  case case1 => -- a clause that is no expression
    intro clause hclassify f h
    obtain ⟨x, hx, -⟩ := classify_of_formulaOf_eq_ok h
    rw [hclassify] at hx
    contradiction
  case case2 => -- a clause that is an expression
    intro clause x hclassify ih f h
    rw [formulaOf_of_classify hclassify] at h
    exact ⟨⟨clause, x, f.reading⟩, ⟨hclassify, ih f h⟩, rfl, rfl⟩
  case case3 => -- literals
    intro s f h
    rw [ofExpression, Except.ok.injEq] at h
    rw [← h, Formula.reading]
    exact .text s
  case case4 =>
    intro n f h
    rw [ofExpression, Except.ok.injEq] at h
    rw [← h, Formula.reading]
    exact .number n
  case case5 =>
    intro b f h
    rw [ofExpression, Except.ok.injEq] at h
    rw [← h, Formula.reading]
    exact .boolean b
  case case6 => -- references
    intro reference f h
    rw [ofExpression] at h
    obtain ⟨dimension, hdimension, rfl⟩ := dimensionFormula_eq_ok_iff.mp h
    rw [Formula.reading]
    exact .dimension hdimension
  case case7 =>
    intro id f h
    rw [ofExpression] at h
    obtain ⟨table, metric, htable, hmetric, rfl⟩ := foundFormula_eq_ok_iff.mp h
    rw [Formula.reading]
    exact .metric htable hmetric
  case case8 =>
    intro id f h
    rw [ofExpression] at h
    obtain ⟨table, segment, htable, hsegment, rfl⟩ := foundFormula_eq_ok_iff.mp h
    rw [Formula.reading]
    exact .segment htable hsegment
  case case9 => -- functions
    intro name xs options ih f h
    rw [ofExpression] at h
    obtain ⟨fs, hfs, rfl⟩ := map_eq_ok_iff.mp h
    obtain ⟨args, hargs, rfl, hreadings⟩ := ih fs hfs
    exact .of_args (.inl rfl) hargs hreadings
  case case10 => -- operators that formulas do not write
    intro name options xs hname ih f h
    rw [ofExpression_of_unknown hname] at h
    obtain ⟨fs, hfs, rfl⟩ := map_eq_ok_iff.mp h
    obtain ⟨args, hargs, rfl, hreadings⟩ := ih fs hfs
    exact .of_args (.inr hname) hargs hreadings
  case case11 => -- an operator without operands
    intro name options op hname f h
    simp only [ofExpression.eq_def, hname, reduceCtorEq] at h
  case case12 => -- an operator before its operand
    intro name options op operand hname sign hsign ih f h
    rw [ofExpression_of_unary hsign] at h
    obtain ⟨f', hf', rfl⟩ := map_eq_ok_iff.mp h
    rw [Formula.reading]
    exact .unary hsign (ih f' hf')
  case case13 =>
    intro name options op operand hname hsign f h
    simp only [ofExpression.eq_def, hname, hsign, reduceCtorEq] at h
  case case14 =>
    intro name options xs hnil hsingle hname f h
    rcases xs with - | ⟨first, - | ⟨second, others⟩⟩
    · exact absurd rfl hnil
    · exact absurd rfl (hsingle first)
    · simp only [ofExpression.eq_def, hname, reduceCtorEq] at h
  case case15 => -- an operator between its operands
    intro name options op first others hothers hname ihFirst ihOthers f h
    rcases others with - | ⟨second, others⟩
    · exact absurd rfl hothers
    · have hop : BinaryOperator.ofName? name = some op :=
        ofName?_eq_some_binary_iff.mp hname
      rw [ofExpression_of_binary hop] at h
      obtain ⟨f₁, hf₁, hothers⟩ := bind_eq_ok_iff.mp h
      obtain ⟨fs, hfs, hresult⟩ := bind_eq_ok_iff.mp hothers
      obtain ⟨args, hargs, hxs, hreadings⟩ := ihOthers fs hfs
      have hne : args ≠ [] := by
        rintro rfl
        contradiction
      rw [← Except.ok.inj hresult, reading_chain, hreadings, ← hxs]
      exact .binary args hop hne (ihFirst f₁ hf₁) hargs
  case case16 => -- a conditional without a default
    intro clauses ih f h
    rw [ofExpression] at h
    obtain ⟨fs, hfs, rfl⟩ := map_eq_ok_iff.mp h
    obtain ⟨branches, hshown, rfl⟩ := ih fs hfs
    rw [← List.append_nil fs]
    exact .of_branches rfl hshown shownAs_nil
  case case17 => -- a conditional with options
    intro clauses options ih ihDefault f h
    rw [ofExpression] at h
    obtain ⟨fs, hfs, hdefaults⟩ := bind_eq_ok_iff.mp h
    obtain ⟨ds, hds, hresult⟩ := bind_eq_ok_iff.mp hdefaults
    obtain ⟨branches, hshown, rfl⟩ := ih fs hfs
    obtain ⟨default, hdefault, hclauses⟩ := ihDefault ds hds
    rw [← Except.ok.inj hresult]
    exact .of_branches hclauses hshown hdefault
  case case18 =>
    intro parts hshort hlong f h
    rw [ofExpression] at h
    · contradiction
    · exact hshort
    · exact hlong
  case case19 => -- options
    intro fs h
    rw [ofDefault, Except.ok.injEq] at h
    subst h
    exact ⟨[], shownAs_nil, rfl⟩
  case case20 =>
    intro value rest ih fs h
    rw [ofDefault, if_pos rfl] at h
    obtain ⟨f, hf, rfl⟩ := map_eq_ok_iff.mp h
    obtain ⟨item, hshown, rfl, hreading⟩ := ih f hf
    exact ⟨[item], shownAs_nil.cons hshown hreading, rfl⟩
  case case21 =>
    intro key value rest hkey ih fs h
    rw [ofDefault, if_neg hkey] at h
    obtain ⟨default, hshown, hclauses⟩ := ih fs h
    refine ⟨default, hshown, ?_⟩
    have hbeq : (key == "default") = false := beq_eq_false_iff_ne.mpr hkey
    rw [← hclauses, Expression.defaults?, Expression.defaults?, List.find?_cons]
    simp only [hbeq]
  case case22 => -- branches
    intro parts fs h
    rw [ofBranches, Except.ok.injEq] at h
    subst h
    exact ⟨[], shownAs_nil, rfl⟩
  case case23 =>
    intro parts condition value rest ihCondition ihValue ihRest fs h
    rw [ofBranches] at h
    obtain ⟨f₁, hf₁, hvalue⟩ := bind_eq_ok_iff.mp h
    obtain ⟨f₂, hf₂, hothers⟩ := bind_eq_ok_iff.mp hvalue
    obtain ⟨fs', hfs', hresult⟩ := bind_eq_ok_iff.mp hothers
    obtain ⟨item₁, hshown₁, rfl, hreading₁⟩ := ihCondition f₁ hf₁
    obtain ⟨item₂, hshown₂, rfl, hreading₂⟩ := ihValue f₂ hf₂
    obtain ⟨branches, hshown, rfl⟩ := ihRest fs' hfs'
    rw [← Except.ok.inj hresult]
    exact ⟨(item₁, item₂) :: branches,
      (hshown.cons hshown₂ hreading₂).cons hshown₁ hreading₁, rfl⟩
  case case24 =>
    intro parts clause rest hclause fs h
    rw [ofBranches] at h
    · contradiction
    · exact hclause
  case case25 => -- arguments
    intro fs h
    rw [ofExpressions, Except.ok.injEq] at h
    subst h
    exact ⟨[], fun arg harg => absurd harg List.not_mem_nil, rfl, rfl⟩
  case case26 =>
    intro x rest ih ihRest fs h
    rw [ofExpressions] at h
    obtain ⟨f, hf, hothers⟩ := bind_eq_ok_iff.mp h
    obtain ⟨fs', hfs', hresult⟩ := bind_eq_ok_iff.mp hothers
    obtain ⟨args, hargs, rfl, hreadings⟩ := ihRest fs' hfs'
    refine ⟨(x, f.reading) :: args, ?_, rfl, ?_⟩
    · intro arg harg
      rcases List.mem_cons.mp harg with rfl | harg
      · exact ih f hf
      · exact hargs arg harg
    · rw [← Except.ok.inj hresult, List.map_cons, hreadings]
      rfl

theorem means_iff
    {x : Expression} {f : Formula} (h : editor.ofExpression x = .ok f) (tree : Reading) :
    editor.Means x tree ↔ tree = f.reading := by
  constructor
  · intro hmeans
    obtain ⟨f', hf', hreading⟩ := hmeans.exists_formula
    rw [h] at hf'
    rw [← hreading, Except.ok.inj hf']
  · rintro rfl
    exact means_of_formulas.2.1 x f h

/-- The pieces of a clause, or the first defect that keeps it from being shown. -/
def pieces (editor : Editor) (clause : Json) : Except FormatError (List Piece) :=
  (editor.formulaOf clause).map Formula.layout

theorem format_eq_ok_iff
    {clause : Json} {text : String} :
    editor.format clause = .ok text ↔
      ∃ f, editor.formulaOf clause = .ok f ∧ editor.dialect.print f = text :=
  map_eq_ok_iff

theorem format_of_classify
    {clause : Json} {x : Expression} {text : String}
    (h : editor.scope.classify clause = some x) :
    editor.format clause = .ok text ↔
      ∃ f, editor.ofExpression x = .ok f ∧ editor.dialect.print f = text := by
  rw [format_eq_ok_iff, formulaOf_of_classify h]

theorem pieces_eq_ok_iff
    {clause : Json} {pieces : List Piece} :
    editor.pieces clause = .ok pieces ↔
      ∃ f, editor.formulaOf clause = .ok f ∧ f.layout = pieces :=
  map_eq_ok_iff

/-- What a clause is understood as is what its pieces are read as. -/
theorem means_iff_reads
    {clause : Json} {x : Expression} {pieces : List Piece}
    (hpieces : editor.pieces clause = .ok pieces)
    (hclassify : editor.scope.classify clause = some x) (tree : Reading) :
    editor.Means x tree ↔ Reads 1 pieces tree := by
  obtain ⟨f, hf, rfl⟩ := pieces_eq_ok_iff.mp hpieces
  rw [formulaOf_of_classify hclassify] at hf
  rw [means_iff hf, reads_layout_iff]

/-- The text of a clause is a row of pieces that has one reading only, the one
that the clause has as it was understood.  So clauses that are shown by the same
pieces are read alike, whatever editor shows them. -/
theorem format_reads_as_meant
    {clause : Json} {text : String} (h : editor.format clause = .ok text) :
    ∃ (x : Expression) (pieces : List Piece) (tree : Reading),
      editor.scope.classify clause = some x ∧
        editor.pieces clause = .ok pieces ∧
        text = String.ofList (editor.dialect.piecesText pieces) ∧
        (∀ tree', Reads 1 pieces tree' ↔ tree' = tree) ∧
        (∀ tree', editor.Means x tree' ↔ tree' = tree) ∧
        ∀ (other : Editor) (clause' : Json) (x' : Expression),
          other.pieces clause' = .ok pieces →
            other.scope.classify clause' = some x' →
              ∀ tree', other.Means x' tree' ↔ tree' = tree := by
  obtain ⟨f, hf, rfl⟩ := format_eq_ok_iff.mp h
  obtain ⟨x, hclassify, hx⟩ := classify_of_formulaOf_eq_ok hf
  have hpieces : editor.pieces clause = .ok f.layout :=
    pieces_eq_ok_iff.mpr ⟨f, hf, rfl⟩
  refine ⟨x, f.layout, f.reading, hclassify, hpieces, rfl, ?_, ?_, ?_⟩
  · intro tree'
    exact reads_layout_iff
  · intro tree'
    exact means_iff hx tree'
  · intro other clause' x' hpieces' hclassify' tree'
    rw [means_iff_reads hpieces' hclassify', reads_layout_iff]

/-- An editor of the standard dialect on a query that knows no names. -/
def bare : Editor where
  dialect := .standard
  query := ⟨none, [], fun _ => false, fun _ => none⟩

/-- Two differences, one within the other, and a negative number as an operand. -/
def nestedDifference : Json :=
  .arr [.str "*",
    .arr [.str "-", .num (.int (.ofInt64 1)),
      .arr [.str "-", .num (.int (.ofInt64 2)), .num (.int (.ofInt64 (-3)))],
      .num (.int (.ofInt64 4))],
    .num (.int (.ofInt64 5))]

theorem formulaOf_nestedDifference :
    bare.formulaOf nestedDifference =
      .ok (.binary .times
        (.binary .minus
          (.binary .minus (.number (.int (.ofInt64 1)))
            (.binary .minus (.number (.int (.ofInt64 2))) (.number (.int (.ofInt64 (-3))))))
          (.number (.int (.ofInt64 4))))
        (.number (.int (.ofInt64 5)))) := by
  have hclassify :
      bare.scope.classify nestedDifference =
        some (.application .operator "*"
          [.application .operator "-"
            [.number (.int (.ofInt64 1)),
              .application .operator "-"
                [.number (.int (.ofInt64 2)), .number (.int (.ofInt64 (-3)))] none,
              .number (.int (.ofInt64 4))] none,
            .number (.int (.ofInt64 5))] none) := by
    rfl
  rw [formulaOf_of_classify hclassify]
  simp [ofExpression, ofExpressions, Operator.ofName?, BinaryOperator.ofName?]
  rfl

theorem format_reads_as_meant_nestedDifference :
    bare.format nestedDifference = .ok "(1 - (2 - (-3)) - 4) * 5" ∧
      ∃ x, bare.scope.classify nestedDifference = some x ∧
        ∀ tree, bare.Means x tree ↔
          tree = .binary .times
            (.binary .minus
              (.binary .minus (.digits ['1'])
                (.binary .minus (.digits ['2']) (.unary .minus (.digits ['3']))))
              (.digits ['4']))
            (.digits ['5']) := by
  have hformat : bare.format nestedDifference = .ok "(1 - (2 - (-3)) - 4) * 5" := by
    rw [format, formulaOf_nestedDifference]
    rfl
  obtain ⟨x, pieces, tree, hclassify, hpieces, -, hreads, hmeans, -⟩ :=
    format_reads_as_meant hformat
  refine ⟨hformat, x, hclassify, ?_⟩
  rw [Editor.pieces, formulaOf_nestedDifference] at hpieces
  cases Except.ok.inj hpieces
  have htree := (hreads _).mp (reads_layout_iff.mpr rfl)
  intro tree'
  rw [hmeans, ← htree]
  rfl

end Editor
end QueryFormula
