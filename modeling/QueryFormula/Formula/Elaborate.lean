import QueryFormula.Expression.Classify
import QueryFormula.Formula.Basic
import QueryFormula.Json.Render
import QueryFormula.Query.Resolve

/-!
# Formulas of clauses

A clause becomes a formula when it is an expression that can be shown: its operators have operands
as they are written, its references are known to the query, and its conditionals are well formed.
The first defect is reported: a clause is classified as a whole before its parts, a node is checked
before its children, and children are taken from left to right.
-/

namespace QueryFormula

/-- Why a clause cannot be shown as a formula. -/
inductive FormatError where
  | notAnExpression (clause : Json)
  | unknownDimension (reference : Json)
  | unknownMetric (id : Number)
  | unknownSegment (id : Number)
  | malformedConditional (parts : List Json)
  /-- An operator with a number of operands that it is not written with. -/
  | operatorArity (op : Operator) (arity : Nat)
  | query (cause : QueryError)
deriving Repr

/-- The message for a clause that cannot be shown. -/
def FormatError.message : FormatError → String
  | .notAnExpression clause => "not an expression: " ++ clause.compact
  | .unknownDimension reference => "unknown dimension: " ++ reference.compact
  | .unknownMetric id => "unknown metric: " ++ (Json.num id).compact
  | .unknownSegment id => "unknown segment: " ++ (Json.num id).compact
  | .malformedConditional parts => "malformed case expression: " ++ (Json.arr parts).compact
  | .operatorArity op arity =>
    "operator " ++ op.name ++ " cannot take " ++ toString arity ++ " argument(s)"
  | .query cause => cause.message

namespace Expression

mutual

/-- A bound on how often the formula of an expression goes down into parts. -/
noncomputable def weight : Expression → Nat
  | .application _ _ args _ => weights args + 1
  | .conditional parts => sizeOf parts
  | _ => 0

/-- The bound for the arguments of an application. -/
noncomputable def weights : List Expression → Nat
  | [] => 0
  | x :: rest => weight x + weights rest + 1

end

end Expression

namespace Scope

theorem weight_le_of_classifyOther {scope : Scope} {clause : Json} {x : Expression}
    (h : scope.classifyOther clause = some x) : x.weight ≤ sizeOf clause := by
  unfold classifyOther at h
  split at h
  · cases h
    exact Nat.zero_le _
  · split at h
    case h_4 parts =>
      cases h
      simp only [Expression.weight, Json.arr.sizeOf_spec, List.cons.sizeOf_spec]
      omega
    all_goals
      cases h
      try exact Nat.zero_le _

mutual

theorem weight_le_of_classify {scope : Scope} :
    ∀ {clause : Json} {x : Expression}, scope.classify clause = some x → x.weight ≤ sizeOf clause
  | .str _, _, h => by
    rw [classify] at h
    cases h
    exact Nat.zero_le _
  | .num _, _, h => by
    rw [classify] at h
    cases h
    exact Nat.zero_le _
  | .arr (.str name :: rest), x, h => by
    rw [classify] at h
    split at h
    · next args options _ hargs =>
      cases h
      have := weights_le_of_classifyArgs hargs
      simp only [Expression.weight, Json.arr.sizeOf_spec, List.cons.sizeOf_spec]
      omega
    · exact weight_le_of_classifyOther h
  | .null, _, h => weight_le_of_classifyOther h
  | .bool _, _, h => weight_le_of_classifyOther h
  | .obj _, _, h => weight_le_of_classifyOther h
  | .arr [], _, h => weight_le_of_classifyOther h
  | .arr (.null :: _), _, h => weight_le_of_classifyOther h
  | .arr (.bool _ :: _), _, h => weight_le_of_classifyOther h
  | .arr (.num _ :: _), _, h => weight_le_of_classifyOther h
  | .arr (.arr _ :: _), _, h => weight_le_of_classifyOther h
  | .arr (.obj _ :: _), _, h => weight_le_of_classifyOther h

theorem weights_le_of_classifyArgs {scope : Scope} :
    ∀ {items : List Json} {args : List Expression} {options : Option Members},
      scope.classifyArgs items = some (args, options) →
        Expression.weights args ≤ sizeOf items
  | [], _, _, h => by
    rw [classifyArgs] at h
    cases h
    exact Nat.zero_le _
  | item :: rest, args, options, h => by
    unfold classifyArgs at h
    split at h
    · contradiction
    · cases h
      exact Nat.zero_le _
    · next _ _ hcons =>
      obtain ⟨rfl, rfl⟩ := List.cons.inj hcons
      simp only [Option.bind_eq_bind, Option.bind_eq_some_iff, Option.pure_def,
        Option.some.injEq, Prod.mk.injEq, Prod.exists] at h
      obtain ⟨arg, harg, args', options', hrest, rfl, rfl⟩ := h
      have h₁ := weight_le_of_classify harg
      have h₂ := weights_le_of_classifyArgs hrest
      simp only [Expression.weights, List.cons.sizeOf_spec]
      omega

end

end Scope

/-- An editor: the dialect it speaks and the query it works on. -/
structure Editor where
  dialect : Dialect
  query : Query

namespace Editor

variable (editor : Editor)

/-- What the editor knows when it classifies a clause. -/
def scope : Scope where
  registry := editor.dialect.registry
  isDimension := editor.query.isDimension

/-- A column by the name that the editor writes. -/
def dimensionFormula (reference : Json) : Except FormatError Formula :=
  match editor.query.dimensionFor reference with
  | some dimension => .ok (.name (editor.dialect.dimensionName dimension))
  | none => .error (.unknownDimension reference)

/-- What is found in the source table, by its name; there must be a table, and it must be found
there. -/
def foundFormula {α : Type} (found : Table → Option α) (name : α → String)
    (unknown : FormatError) : Except FormatError Formula :=
  match editor.query.table with
  | none => .error (.query .missingTable)
  | some table => match found table with
    | some entry => .ok (.name (name entry))
    | none => .error unknown

/-- The first metric with the given number. -/
def metricFormula (id : Number) : Except FormatError Formula :=
  editor.foundFormula (·.metrics.find? fun metric => id.toInt64? == some metric.id) Metric.name
    (.unknownMetric id)

/-- The first segment with the given number. -/
def segmentFormula (id : Number) : Except FormatError Formula :=
  editor.foundFormula (·.segments.find? fun segment => id.toInt64? == some segment.id) Segment.name
    (.unknownSegment id)

mutual

/-- The formula of a clause, or the first defect that keeps it from having one. -/
def formulaOf (clause : Json) : Except FormatError Formula :=
  match _h : editor.scope.classify clause with
  | none => .error (.notAnExpression clause)
  | some x => ofExpression x
termination_by (sizeOf clause, 1)
decreasing_by
  have := Scope.weight_le_of_classify _h
  simp only [Prod.lex_def]
  omega

/-- The formula of a clause that has been understood. -/
def ofExpression (x : Expression) : Except FormatError Formula :=
  match x with
  | .text s => .ok (.text s)
  | .number n => .ok (.number n)
  | .boolean b => .ok (.boolean b)
  | .dimension reference => editor.dimensionFormula reference
  | .metric id => editor.metricFormula id
  | .segment id => editor.segmentFormula id
  | .application .function name args _ =>
    (ofExpressions args).map (.call (editor.dialect.registry.displayName name))
  | .application .operator name args _ =>
    match Operator.ofName? name, args with
    | none, args => (ofExpressions args).map (.call (editor.dialect.registry.displayName name))
    | some op, [] => .error (.operatorArity op 0)
    | some op, [operand] => match UnaryOperator.ofName? name with
      | some sign => (ofExpression operand).map (.unary sign)
      | none => .error (.operatorArity op 1)
    | some .not, args => .error (.operatorArity .not args.length)
    | some (.binary op), first :: others => do
      let first ← ofExpression first
      let others ← ofExpressions others
      return .chain op first others
  | .conditional parts =>
    let head := editor.dialect.registry.displayName "case"
    match parts with
    | [.arr branches] => (ofBranches parts branches).map (.conditional head)
    | [.arr branches, .obj options] => do
      let branches ← ofBranches parts branches
      let default ← ofDefault options
      return .conditional head (branches ++ default)
    | parts => .error (.malformedConditional parts)
termination_by (x.weight, 0)
decreasing_by all_goals
  simp only [Prod.lex_def, Expression.weight, Expression.weights, List.cons.sizeOf_spec,
    Json.arr.sizeOf_spec, Json.obj.sizeOf_spec]
  omega

/-- The formulas of the arguments of an application. -/
def ofExpressions (xs : List Expression) : Except FormatError (List Formula) :=
  match xs with
  | [] => .ok []
  | x :: rest => do
    let formula ← ofExpression x
    let formulas ← ofExpressions rest
    return formula :: formulas
termination_by (Expression.weights xs, 0)
decreasing_by all_goals
  simp only [Prod.lex_def, Expression.weights]
  omega

/-- The conditions and values of the branches of a conditional with the given parts. -/
def ofBranches (parts : List Json) (branches : List Json) : Except FormatError (List Formula) :=
  match branches with
  | [] => .ok []
  | .arr [condition, value] :: rest => do
    let condition ← formulaOf condition
    let value ← formulaOf value
    let others ← ofBranches parts rest
    return condition :: value :: others
  | _ :: _ => .error (.malformedConditional parts)
termination_by (sizeOf branches, 0)
decreasing_by all_goals
  simp only [Prod.lex_def, List.cons.sizeOf_spec, Json.arr.sizeOf_spec]
  omega

/-- The default of a conditional, if its options have one. -/
def ofDefault (options : Members) : Except FormatError (List Formula) :=
  match options with
  | [] => .ok []
  | (key, value) :: rest =>
    if key = "default" then (formulaOf value).map ([·]) else ofDefault rest
termination_by (sizeOf options, 0)
decreasing_by all_goals
  simp only [Prod.lex_def, List.cons.sizeOf_spec, Prod.mk.sizeOf_spec]
  omega

end

end Editor
end QueryFormula
