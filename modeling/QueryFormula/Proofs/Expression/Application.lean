import Mathlib.Data.List.Forall2
import QueryFormula.Expression.Predicates

/-!
# Applications

A clause headed by a known name is an application when each of its operands is an
expression.  An object at the end is no operand and is not looked at.
-/

namespace QueryFormula

/-- Elements are related to the elements of some list, in turn, when each is
related to something. -/
theorem exists_forall₂_iff
    {α β : Type} {r : α → β → Prop} {xs : List α} :
    (∃ ys, List.Forall₂ r xs ys) ↔ ∀ x ∈ xs, ∃ y, r x y := by
  induction xs with
  | nil =>
      constructor
      · intro _ x hx
        exact absurd hx List.not_mem_nil
      · intro _
        exact ⟨[], .nil⟩
  | cons x xs ih =>
      rw [List.forall_mem_cons, ← ih]
      constructor
      · rintro ⟨_, hall⟩
        obtain ⟨y, ys, hy, hys, rfl⟩ := List.forall₂_cons_left_iff.mp hall
        exact ⟨⟨y, hy⟩, ys, hys⟩
      · rintro ⟨⟨y, hy⟩, ys, hys⟩
        exact ⟨y :: ys, .cons hy hys⟩

theorem forall₂_append_left_iff
    {α β : Type} {r : α → β → Prop} {xs ys : List α} {zs : List β} :
    List.Forall₂ r (xs ++ ys) zs ↔
      ∃ us vs, List.Forall₂ r xs us ∧ List.Forall₂ r ys vs ∧ zs = us ++ vs := by
  constructor
  · intro h
    induction xs generalizing zs with
    | nil =>
        exact ⟨[], zs, .nil, h, rfl⟩
    | cons x xs ih =>
        obtain ⟨z, zs, hz, hrest, rfl⟩ := List.forall₂_cons_left_iff.mp h
        obtain ⟨us, vs, hus, hvs, rfl⟩ := ih hrest
        exact ⟨z :: us, vs, .cons hz hus, hvs, rfl⟩
  · rintro ⟨us, vs, hus, hvs, rfl⟩
    exact List.rel_append hus hvs

namespace Json

/-- The operands among the items after the head of an application: all items but
an object at the end. -/
def operands : List Json → List Json
  | [] => []
  | [.obj _] => []
  | item :: rest => item :: operands rest

/-- The options among the items after the head of an application: the members of
an object at the end. -/
def options? (items : List Json) : Option Members :=
  match items.getLast? with
  | some (.obj members) => some members
  | _ => none

theorem options?_cons
    {item : Json} {rest : List Json}
    (hlast : ∀ members, item = .obj members → rest = [] → False) :
    options? (item :: rest) = options? rest := by
  by_cases hrest : rest = []
  · subst hrest
    rw [options?, List.getLast?_singleton]
    split
    · next members hitem =>
      exact (hlast members (Option.some.inj hitem) rfl).elim
    · rfl
  · obtain ⟨next, rest, rfl⟩ := List.exists_cons_of_ne_nil hrest
    rw [options?, options?, List.getLast?_cons_cons]

end Json

namespace Scope

variable {scope : Scope}

/-- The arguments are the operands, each understood by itself. -/
theorem classifyArgs_eq_some_iff
    {items : List Json} {args : List Expression} {options : Option Members} :
    scope.classifyArgs items = some (args, options) ↔
      List.Forall₂ (fun item x => scope.classify item = some x) (Json.operands items) args ∧
        options = Json.options? items := by
  fun_induction Json.operands items generalizing args options with
  | case1 =>
      rw [classifyArgs, List.forall₂_nil_left_iff]
      simp [Json.options?, eq_comm]
  | case2 members =>
      rw [classifyArgs, List.forall₂_nil_left_iff]
      simp [Json.options?, eq_comm]
  | case3 item rest hlast ih =>
      rw [classifyArgs.eq_3 scope item rest hlast, List.forall₂_cons_left_iff,
        Json.options?_cons hlast]
      simp only [Option.bind_eq_bind, Option.bind_eq_some_iff, Option.pure_def, Option.some.injEq,
        Prod.mk.injEq, Prod.exists]
      constructor
      · rintro ⟨x, hx, xs, options, hrest, rfl, rfl⟩
        obtain ⟨hxs, hoptions⟩ := ih.mp hrest
        exact ⟨⟨x, xs, hx, hxs, rfl⟩, hoptions⟩
      · rintro ⟨⟨x, xs, hx, hxs, rfl⟩, hoptions⟩
        exact ⟨x, hx, xs, options, ih.mpr ⟨hxs, hoptions⟩, rfl, rfl⟩

/-- Items can be applied to when all operands among them are expressions. -/
theorem classifyArgs_isSome_iff
    {items : List Json} :
    (scope.classifyArgs items).isSome = true ↔
      ∀ item ∈ Json.operands items, scope.isExpression item = true := by
  simp only [isExpression, Option.isSome_iff_exists]
  rw [← exists_forall₂_iff]
  constructor
  · rintro ⟨⟨args, options⟩, h⟩
    exact ⟨args, (classifyArgs_eq_some_iff.mp h).1⟩
  · rintro ⟨args, hargs⟩
    exact ⟨(args, Json.options? items), classifyArgs_eq_some_iff.mpr ⟨hargs, rfl⟩⟩

/-- An array under no name can only refer to a column. -/
theorem classify_of_not_named
    {items : List Json} (h : ∀ name rest, items ≠ .str name :: rest) :
    scope.classify (.arr items) =
      if scope.isDimension (.arr items) = true then some (.dimension (.arr items)) else none := by
  have hother : scope.classify (.arr items) = scope.classifyOther (.arr items) := by
    rw [classify]
    · intro s hs
      contradiction
    · intro n hn
      contradiction
    · intro name rest hitems
      exact h name rest (Json.arr.inj hitems)
  rw [hother, classifyOther]
  · intro b hb
    contradiction
  · intro id hitems
    exact h _ _ (Json.arr.inj hitems)
  · intro id hitems
    exact h _ _ (Json.arr.inj hitems)
  · intro rest hitems
    exact h _ _ (Json.arr.inj hitems)

/-- A clause under a known name is an application whenever it can be one. -/
theorem classify_of_role
    {name : String} {role : Role} (hrole : scope.role? name = some role) (rest : List Json) :
    scope.classify (.arr (.str name :: rest)) =
      match scope.classifyArgs rest with
      | some (args, options) => some (.application role name args options)
      | none => scope.classifyOther (.arr (.str name :: rest)) := by
  rw [classify, hrole]
  cases scope.classifyArgs rest with
  | none =>
      rfl
  | some result =>
      rfl

theorem classifyOther_ne_application
    {clause : Json} {role : Role} {name : String} {args : List Expression}
    {options : Option Members} :
    scope.classifyOther clause ≠ some (.application role name args options) := by
  intro h
  unfold classifyOther at h
  split at h
  · simp only [Option.some.injEq, reduceCtorEq] at h
  · split at h <;> simp only [Option.some.injEq, reduceCtorEq] at h

/-- An application stands under a name with a role, and its items can be applied to. -/
theorem classify_eq_application_iff
    {clause : Json} {role : Role} {name : String} {args : List Expression}
    {options : Option Members} :
    scope.classify clause = some (.application role name args options) ↔
      ∃ rest, clause = .arr (.str name :: rest) ∧ scope.role? name = some role ∧
        scope.classifyArgs rest = some (args, options) := by
  constructor
  · intro h
    unfold classify at h
    split at h
    · simp only [Option.some.injEq, reduceCtorEq] at h
    · simp only [Option.some.injEq, reduceCtorEq] at h
    · next name' rest =>
      split at h
      · next hrole hargs =>
        cases h
        exact ⟨rest, rfl, hrole, hargs⟩
      · exact absurd h classifyOther_ne_application
    · exact absurd h classifyOther_ne_application
  · rintro ⟨rest, rfl, hrole, hargs⟩
    rw [classify_of_role hrole, hargs]

/-- Any other clause under the name of conditionals is a conditional, unless it is
a column. -/
theorem classifyOther_case (rest : List Json) :
    scope.classifyOther (.arr (.str "case" :: rest)) =
      if scope.isDimension (.arr (.str "case" :: rest)) = true then
        some (.dimension (.arr (.str "case" :: rest)))
      else some (.conditional rest) := by
  rw [classifyOther]

end Scope
end QueryFormula
