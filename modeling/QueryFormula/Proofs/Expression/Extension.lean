import QueryFormula.Proofs.Expression.Application
import QueryFormula.Query.Metadata

/-!
# Dialects with more names

A name that becomes known changes what a clause is taken for: a metric, a column or a
conditional may turn into an application.  An application whose operands are no
expressions is taken for what it would be under an unknown name, so nothing that was an
expression ceases to be one.  Whether a name is an operator or a function makes no
difference to this.
-/

namespace QueryFormula
namespace Scope

variable {scope scope' : Scope}

/-- All that is known in one scope is known in another: reserved names, whether they
are operators or functions, and columns. -/
structure Within (scope scope' : Scope) : Prop where
  reserved : ∀ name, scope.registry.isReserved name = true →
    scope'.registry.isReserved name = true
  columns : ∀ clause, scope.isDimension clause = true → scope'.isDimension clause = true

/-- A name has a role when it is reserved. -/
theorem role?_isSome (scope : Scope) (name : String) :
    (scope.role? name).isSome = scope.registry.isReserved name := by
  rw [role?, Registry.isReserved]
  cases scope.registry.isOperator name with
  | true =>
      rfl
  | false =>
      cases scope.registry.isFunction name <;> rfl

/-- Under a name a clause is an expression as an application of a reserved name to
expressions, or as it would be if the name were not reserved. -/
theorem isExpression_named_iff
    {name : String} {rest : List Json} :
    scope.isExpression (.arr (.str name :: rest)) = true ↔
      (scope.registry.isReserved name = true ∧
        ∀ item ∈ Json.operands rest, scope.isExpression item = true) ∨
      (scope.classifyOther (.arr (.str name :: rest))).isSome = true := by
  rw [← role?_isSome, ← classifyArgs_isSome_iff, isExpression, classify]
  cases scope.role? name with
  | none =>
      simp
  | some role =>
      cases scope.classifyArgs rest <;> simp

/-- Beside the columns no form depends on what is known. -/
theorem Within.classifyOther
    (h : scope.Within scope') {clause : Json}
    (hclause : (scope.classifyOther clause).isSome = true) :
    (scope'.classifyOther clause).isSome = true := by
  unfold Scope.classifyOther at hclause ⊢
  by_cases hcolumn : scope'.isDimension clause = true
  · rw [if_pos hcolumn]
    rfl
  · have hother : ¬ scope.isDimension clause = true := fun hc => hcolumn (h.columns clause hc)
    rw [if_neg hother] at hclause
    rwa [if_neg hcolumn]

/-- A clause under a name, when its operands stay expressions. -/
theorem Within.isExpression_named
    (h : scope.Within scope') {name : String} {rest : List Json}
    (hrest : ∀ item ∈ Json.operands rest,
      scope.isExpression item = true → scope'.isExpression item = true)
    (hclause : scope.isExpression (.arr (.str name :: rest)) = true) :
    scope'.isExpression (.arr (.str name :: rest)) = true := by
  rw [isExpression_named_iff] at hclause ⊢
  rcases hclause with ⟨hreserved, hoperands⟩ | hother
  · left
    refine ⟨h.reserved name hreserved, ?_⟩
    intro item hitem
    exact hrest item hitem (hoperands item hitem)
  · exact .inr (h.classifyOther hother)

theorem Within.isExpression
    (h : scope.Within scope') (clause : Json) :
    scope.isExpression clause = true → scope'.isExpression clause = true := by
  refine Scope.classify.induct scope
    (fun clause => scope.isExpression clause = true → scope'.isExpression clause = true)
    (fun items => ∀ item ∈ Json.operands items,
      scope.isExpression item = true → scope'.isExpression item = true)
    ?text ?number ?applied ?notApplied ?other ?nil ?options ?cons clause
  case text =>
    intro s _
    rfl
  case number =>
    intro n _
    rfl
  case applied =>
    intro name rest role args options _ _ ih
    exact h.isExpression_named ih
  case notApplied =>
    intro name rest _ ih
    exact h.isExpression_named ih
  case other =>
    intro clause htext hnumber hnamed hclause
    rw [Scope.isExpression, classify.eq_4 _ _ htext hnumber hnamed] at hclause ⊢
    exact h.classifyOther hclause
  case nil =>
    intro item hitem
    exact absurd hitem List.not_mem_nil
  case options =>
    intro members item hitem
    exact absurd hitem List.not_mem_nil
  case cons =>
    intro item rest hlast hhead htail
    rw [Json.operands.eq_3 item rest hlast, List.forall_mem_cons]
    exact ⟨hhead, htail⟩

/-- A clause that is an expression is one also where more names and more columns are
known.  Among the names only those that are reserved matter, not which of them are
operators and which functions. -/
theorem isExpression_extension :
    (∀ scope scope' : Scope, scope.Within scope' →
      ∀ clause, scope.isExpression clause = true → scope'.isExpression clause = true) ∧
    ∀ (registry registry' : Registry) (isDimension : Json → Bool),
      (∀ name, registry.isReserved name = registry'.isReserved name) →
        ∀ clause, Scope.isExpression ⟨registry, isDimension⟩ clause =
          Scope.isExpression ⟨registry', isDimension⟩ clause := by
  constructor
  · intro scope scope' h clause
    exact h.isExpression clause
  · intro registry registry' isDimension hsame clause
    have hwithin : Within ⟨registry, isDimension⟩ ⟨registry', isDimension⟩ :=
      ⟨fun name hname => (hsame name).symm.trans hname, fun _ hclause => hclause⟩
    have hwithin' : Within ⟨registry', isDimension⟩ ⟨registry, isDimension⟩ :=
      ⟨fun name hname => (hsame name).trans hname, fun _ hclause => hclause⟩
    rw [Bool.eq_iff_iff]
    exact ⟨hwithin.isExpression clause, hwithin'.isExpression clause⟩

/-- Where the names of columns and metrics become operators, a column stays one as its
null is no operand, and a metric turns into an application; operators and functions can
be exchanged. -/
theorem isExpression_extension_shadowed :
    let registry : Registry :=
      { Registry.standard with
        operators := .ofList ("field" :: "metric" :: Registry.standardOperators) }
    let exchanged : Registry :=
      { registry with operators := registry.functions, functions := registry.operators }
    let number : Json := .num (.int ⟨5, by decide, by decide⟩)
    let clause : Json :=
      .arr [.str "+", .arr [.str "field", number, .null], .arr [.str "metric", number]]
    Within ⟨.standard, isColumnReference⟩ ⟨registry, isColumnReference⟩ ∧
      Scope.isExpression ⟨.standard, isColumnReference⟩ clause = true ∧
      Scope.isExpression ⟨registry, isColumnReference⟩ clause = true ∧
      (∀ name, registry.isReserved name = exchanged.isReserved name) ∧
      Scope.isExpression ⟨exchanged, isColumnReference⟩ clause = true := by
  intro registry exchanged number clause
  have hoperators : ∀ name ∈ Registry.standard.operators.names,
      registry.operators.contains name = true := by
    decide +kernel
  have hwithin : Within ⟨.standard, isColumnReference⟩ ⟨registry, isColumnReference⟩ := by
    refine ⟨?_, fun _ hcolumn => hcolumn⟩
    intro name hname
    rw [Registry.isReserved, Bool.or_eq_true] at hname ⊢
    apply hname.imp_left
    intro hoperator
    exact hoperators name (List.contains_iff_mem.mp hoperator)
  have hbefore : Scope.isExpression ⟨.standard, isColumnReference⟩ clause = true := by
    decide +kernel
  have hafter := isExpression_extension.1 _ _ hwithin clause hbefore
  have hsame : ∀ name, registry.isReserved name = exchanged.isReserved name := fun name =>
    Bool.or_comm _ _
  refine ⟨hwithin, hbefore, hafter, hsame, ?_⟩
  rw [← isExpression_extension.2 registry exchanged isColumnReference hsame clause]
  exact hafter

end Scope
end QueryFormula
