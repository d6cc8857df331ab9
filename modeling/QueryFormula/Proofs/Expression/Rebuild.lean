import QueryFormula.Proofs.Expression.Application
import QueryFormula.Query.Metadata

/-!
# Clauses behind expressions

Understanding a clause loses nothing of it.  The clause can be put together again
from the serialized expression, by its kind and its value alone and without knowing
the names or the columns under which it was understood.
-/

namespace QueryFormula
namespace Expression

mutual

/-- The clause behind a serialized expression, from its kind and value alone. -/
def rebuild : Json → Option Json
  | .obj [("kind", .str kind), ("value", value)] =>
    match kind with
    | "string_literal" | "number_literal" | "boolean_literal" | "dimension" => some value
    | "metric" => some (.arr [.str "metric", value])
    | "segment" => some (.arr [.str "segment", value])
    | "case" => match value with
      | .arr parts => some (.arr (.str "case" :: parts))
      | _ => none
    | "operator" | "function" => match value with
      | .obj (("name", name) :: ("args", .arr args) :: options) =>
        (rebuildAll args).map fun args => .arr (name :: (args ++ options.map Prod.snd))
      | _ => none
    | _ => none
  | _ => none

/-- The clauses behind serialized expressions. -/
def rebuildAll : List Json → Option (List Json)
  | [] => some []
  | x :: rest => do
    let clause ← rebuild x
    let clauses ← rebuildAll rest
    return clause :: clauses

end

mutual

/-- The clause that is understood as an expression. -/
def clause : Expression → Json
  | .text s => .str s
  | .number n => .num n
  | .boolean b => .bool b
  | .application _ name args options =>
    .arr (.str name :: (clauses args ++ (options.map Json.obj).toList))
  | .dimension reference => reference
  | .metric id => .arr [.str "metric", .num id]
  | .segment id => .arr [.str "segment", .num id]
  | .conditional parts => .arr (.str "case" :: parts)

/-- The clauses that are understood as expressions. -/
def clauses : List Expression → List Json
  | [] => []
  | x :: rest => clause x :: clauses rest

end

mutual

theorem rebuild_toJson :
    ∀ x : Expression, rebuild x.toJson = some x.clause
  | .text s => by
      rw [toJson, tagged, rebuild, clause]
  | .number n => by
      rw [toJson, tagged, rebuild, clause]
  | .boolean b => by
      rw [toJson, tagged, rebuild, clause]
  | .application role name args options => by
      have hargs := rebuildAll_argsToJson args
      have hoptions :
          ((options.map fun members => ("options", Json.obj members)).toList).map Prod.snd =
            (options.map Json.obj).toList := by
        cases options <;> rfl
      cases role with
      | operator =>
          rw [toJson, roleName, tagged, rebuild, hargs, hoptions, clause]
          rfl
      | function =>
          rw [toJson, roleName, tagged, rebuild, hargs, hoptions, clause]
          rfl
  | .dimension reference => by
      rw [toJson, tagged, rebuild, clause]
  | .metric id => by
      rw [toJson, tagged, rebuild, clause]
  | .segment id => by
      rw [toJson, tagged, rebuild, clause]
  | .conditional parts => by
      rw [toJson, tagged, rebuild, clause]

theorem rebuildAll_argsToJson :
    ∀ xs : List Expression, rebuildAll (argsToJson xs) = some (clauses xs)
  | [] => by
      rw [argsToJson, rebuildAll, clauses]
  | x :: rest => by
      rw [argsToJson, rebuildAll, rebuild_toJson x, rebuildAll_argsToJson rest, clauses]
      rfl

end

end Expression

namespace Scope

variable {scope : Scope}

theorem clause_of_classifyOther
    {clause : Json} {x : Expression} (h : scope.classifyOther clause = some x) :
    x.clause = clause := by
  unfold classifyOther at h
  split at h
  · cases h
    rw [Expression.clause]
  · split at h
    case h_5 =>
      contradiction
    all_goals
      cases h
      rw [Expression.clause]

theorem clause_of_classify
    {clause : Json} {x : Expression} (h : scope.classify clause = some x) :
    x.clause = clause := by
  revert x
  refine classify.induct scope
    (fun clause => ∀ {x}, scope.classify clause = some x → x.clause = clause)
    (fun items => ∀ {args options}, scope.classifyArgs items = some (args, options) →
      Expression.clauses args ++ (options.map Json.obj).toList = items)
    ?text ?number ?applied ?notApplied ?other ?nil ?options ?cons clause
  case text =>
    intro s x h
    rw [classify] at h
    cases h
    rw [Expression.clause]
  case number =>
    intro n x h
    rw [classify] at h
    cases h
    rw [Expression.clause]
  case applied =>
    intro name rest role args options hargs hrole ih x h
    rw [classify_of_role hrole, hargs] at h
    cases h
    rw [Expression.clause, ih hargs]
  case notApplied =>
    intro name rest hnone ih x h
    rw [classify] at h
    split at h
    · next role args options hrole hargs =>
      exact (hnone role args options hrole hargs).elim
    · exact clause_of_classifyOther h
  case other =>
    intro clause htext hnumber hnamed x h
    rw [classify.eq_4 _ _ htext hnumber hnamed] at h
    exact clause_of_classifyOther h
  case nil =>
    intro args options h
    rw [classifyArgs] at h
    cases h
    rfl
  case options =>
    intro members args options h
    rw [classifyArgs] at h
    cases h
    rfl
  case cons =>
    intro item rest hlast hhead htail args options h
    rw [classifyArgs.eq_3 scope item rest hlast] at h
    simp only [Option.bind_eq_bind, Option.bind_eq_some_iff, Option.pure_def, Option.some.injEq,
      Prod.mk.injEq, Prod.exists] at h
    obtain ⟨x, hx, xs, options', hrest, rfl, rfl⟩ := h
    rw [Expression.clauses, hhead hx, List.cons_append, htail hrest]

/-- A clause can be rebuilt from what it was understood as, so no two clauses are
understood as the same, in whatever scopes. -/
theorem rebuild_classify
    {clause : Json} {x : Expression} (h : scope.classify clause = some x) :
    Expression.rebuild x.toJson = some clause ∧
      ∀ (scope' : Scope) (clause' : Json), scope'.classify clause' = some x → clause' = clause := by
  constructor
  · rw [Expression.rebuild_toJson, clause_of_classify h]
  · intro scope' clause' h'
    rw [← clause_of_classify h', clause_of_classify h]

/-- Options within and after arguments, a column with options of its own, and a
conditional whose parts are kept as they are. -/
theorem rebuild_classify_nested :
    let scope : Scope := ⟨.standard, isColumnReference⟩
    let five : Number := .int ⟨5, by decide, by decide⟩
    let column : Json := .arr [.str "field", .num five, .obj [("join", .null)]]
    let parts : List Json := [.arr [.arr [.bool true, .arr [.str "count", .obj []]]]]
    let clause : Json :=
      .arr [.str "-", .arr [.str "max", column, .obj [("a", .obj [])]],
        .arr [.str "metric", .num five], .arr (.str "case" :: parts), .obj []]
    let x : Expression :=
      .application .operator "-"
        [.application .function "max" [.dimension column] (some [("a", .obj [])]),
          .metric five, .conditional parts] (some [])
    scope.classify clause = some x ∧ Expression.rebuild x.toJson = some clause := by
  intro scope five column parts clause x
  have h : scope.classify clause = some x := by
    rfl
  exact ⟨h, (rebuild_classify h).1⟩

end Scope
end QueryFormula
