import QueryFormula.Proofs.Expression.Extension

/-!
# Kinds of clauses

Classification tries the kinds of clauses in a fixed order and takes the first one
that a clause has the form of.  Where the names of a dialect stay clear of the names
that head references and conditionals, no clause has the form of two kinds, so the
order decides nothing; a function by the name of conditionals makes the one exception.
-/

namespace QueryFormula

/-- The kinds of expressions. -/
inductive Kind where
  | text
  | number
  | operator
  | function
  | dimension
  | boolean
  | metric
  | segment
  | conditional
deriving Repr, DecidableEq

namespace Kind

/-- The kinds in the order in which they are tried. -/
def order : List Kind :=
  [.text, .number, .operator, .function, .dimension, .boolean, .metric, .segment, .conditional]

theorem mem_order (kind : Kind) :
    kind ∈ order := by
  cases kind <;> decide

/-- The kind of the clauses that a name heads when it is no name of the dialect. -/
def ofHead? (name : String) : Option Kind :=
  match name with
  | "field" | "expression" | "aggregation" => some .dimension
  | "metric" => some .metric
  | "segment" => some .segment
  | "case" => some .conditional
  | _ => none

end Kind

/-- The kind of the applications in which a name has a role. -/
def Role.kind : Role → Kind
  | .operator => .operator
  | .function => .function

/-- The kind of an expression. -/
def Expression.kind : Expression → Kind
  | .text _ => .text
  | .number _ => .number
  | .boolean _ => .boolean
  | .application role _ _ _ => role.kind
  | .dimension _ => .dimension
  | .metric _ => .metric
  | .segment _ => .segment
  | .conditional _ => .conditional

/-- Where at most one element has a property, it is the first one found in any list
that leaves no element out. -/
theorem find?_eq_some_iff_of_unique
    {α : Type} {p : α → Bool} (hunique : ∀ a b, p a = true → p b = true → a = b)
    {xs : List α} (hall : ∀ a, a ∈ xs) {a : α} :
    xs.find? p = some a ↔ p a = true := by
  constructor
  · exact List.find?_some
  · intro ha
    have hsome : (xs.find? p).isSome = true := List.find?_isSome.mpr ⟨a, hall a, ha⟩
    obtain ⟨b, hb⟩ := Option.isSome_iff_exists.mp hsome
    rw [hb, hunique b a (List.find?_some hb) ha]

namespace Scope

variable {scope : Scope}

/-- Whether a clause has the form of a kind, whatever the kinds tried before it. -/
def hasKind (scope : Scope) (clause : Json) : Kind → Bool
  | .text => clause.isText
  | .number => clause.isNumber
  | .operator => scope.isOperator clause
  | .function => scope.isFunction clause
  | .dimension => scope.isDimension clause
  | .boolean => clause.isBoolean
  | .metric => clause.isMetric
  | .segment => clause.isSegment
  | .conditional => clause.isConditional

/-! ## The first kind that fits -/

theorem hasKind_operator_iff
    {name : String} {rest : List Json} :
    scope.hasKind (.arr (.str name :: rest)) .operator = true ↔
      scope.registry.isOperator name = true ∧ (scope.classifyArgs rest).isSome = true := by
  rw [hasKind, isOperator, Bool.and_eq_true]

theorem hasKind_function_iff
    {name : String} {rest : List Json} :
    scope.hasKind (.arr (.str name :: rest)) .function = true ↔
      scope.registry.isFunction name = true ∧ (scope.classifyArgs rest).isSome = true := by
  rw [hasKind, isFunction, Bool.and_eq_true]

/-- The kinds tried after the applications. -/
theorem map_kind_classifyOther (clause : Json) :
    (scope.classifyOther clause).map Expression.kind =
      [Kind.dimension, .boolean, .metric, .segment, .conditional].find?
        (scope.hasKind clause) := by
  unfold classifyOther
  by_cases hcolumn : scope.isDimension clause = true
  · have hkind : scope.hasKind clause .dimension = true := hcolumn
    rw [if_pos hcolumn, List.find?_cons_of_pos hkind]
    rfl
  · have hkind : ¬ scope.hasKind clause .dimension = true := hcolumn
    rw [if_neg hcolumn, List.find?_cons_of_neg hkind]
    split
    case h_5 hboolean hmetric hsegment hconditional =>
      rw [Option.map_none, eq_comm, List.find?_eq_none]
      simp [hasKind, Json.isBoolean.eq_2 clause hboolean, Json.isMetric.eq_2 clause hmetric,
        Json.isSegment.eq_2 clause hsegment, Json.isConditional.eq_2 clause hconditional]
    all_goals rfl

/-- An application has the kind of its role, of which the operators come first. -/
theorem find?_of_role
    {name : String} {role : Role} (hrole : scope.role? name = some role) {rest : List Json}
    (hargs : (scope.classifyArgs rest).isSome = true) (kinds : List Kind) :
    (Kind.operator :: .function :: kinds).find? (scope.hasKind (.arr (.str name :: rest))) =
      some role.kind := by
  unfold role? at hrole
  by_cases hoperator : scope.registry.isOperator name = true
  · rw [if_pos hoperator] at hrole
    obtain rfl := Option.some.inj hrole
    exact List.find?_cons_of_pos (hasKind_operator_iff.mpr ⟨hoperator, hargs⟩)
  · rw [if_neg hoperator] at hrole
    by_cases hfunction : scope.registry.isFunction name = true
    · rw [if_pos hfunction] at hrole
      obtain rfl := Option.some.inj hrole
      rw [List.find?_cons_of_neg fun h => hoperator (hasKind_operator_iff.mp h).1]
      exact List.find?_cons_of_pos (hasKind_function_iff.mpr ⟨hfunction, hargs⟩)
    · rw [if_neg hfunction] at hrole
      contradiction

/-- Without a role, or with an operand that is no expression, there is no application. -/
theorem find?_of_not_applied
    {name : String} {rest : List Json}
    (hnone : ¬ (scope.registry.isReserved name = true ∧
      (scope.classifyArgs rest).isSome = true)) (kinds : List Kind) :
    (Kind.operator :: .function :: kinds).find? (scope.hasKind (.arr (.str name :: rest))) =
      kinds.find? (scope.hasKind (.arr (.str name :: rest))) := by
  rw [List.find?_cons_of_neg, List.find?_cons_of_neg]
  · intro h
    obtain ⟨hname, hargs⟩ := hasKind_function_iff.mp h
    exact hnone ⟨by rw [Registry.isReserved, hname, Bool.or_true], hargs⟩
  · intro h
    obtain ⟨hname, hargs⟩ := hasKind_operator_iff.mp h
    exact hnone ⟨by rw [Registry.isReserved, hname, Bool.true_or], hargs⟩

/-- A clause is classified as the first kind that it has the form of. -/
theorem map_kind_classify (clause : Json) :
    (scope.classify clause).map Expression.kind = Kind.order.find? (scope.hasKind clause) := by
  fun_cases scope.classify clause with
  | case1 s =>
      rfl
  | case2 n =>
      rfl
  | case3 name rest role args options hargs hrole =>
      have hsome : (scope.classifyArgs rest).isSome = true := by
        rw [hargs, Option.isSome_some]
      exact (find?_of_role hrole hsome _).symm
  | case4 name rest hnone =>
      have hnot : ¬ (scope.registry.isReserved name = true ∧
          (scope.classifyArgs rest).isSome = true) := by
        rintro ⟨hreserved, hsome⟩
        rw [← role?_isSome] at hreserved
        obtain ⟨role, hrole⟩ := Option.isSome_iff_exists.mp hreserved
        obtain ⟨⟨args, options⟩, hargs⟩ := Option.isSome_iff_exists.mp hsome
        exact hnone role args options hrole hargs
      rw [map_kind_classifyOther]
      exact (find?_of_not_applied hnot _).symm
  | case5 clause htext hnumber hnamed =>
      have hnone :
          [Kind.text, .number, .operator, .function].find? (scope.hasKind clause) = none := by
        rw [List.find?_eq_none]
        simp [hasKind, Json.isText.eq_2 clause htext, Json.isNumber.eq_2 clause hnumber,
          isOperator.eq_2 scope clause hnamed, isFunction.eq_2 scope clause hnamed]
      have horder : Kind.order = [.text, .number, .operator, .function] ++
          [.dimension, .boolean, .metric, .segment, .conditional] := rfl
      rw [map_kind_classifyOther, horder, List.find?_append, hnone, Option.none_or]

end Scope

/-! ## The only kind that fits -/

namespace Registry

variable {registry registry' : Registry}

/-- No name of the dialect has two roles, and none heads references or conditionals. -/
structure Separate (registry : Registry) : Prop where
  disjoint : ∀ name, registry.isOperator name = true → registry.isFunction name = false
  free : ∀ name ∈ ["field", "expression", "aggregation", "metric", "segment", "case"],
    registry.isReserved name = false

/-- No name of the dialect has two roles, and none heads references. -/
structure SeparateBesideCase (registry : Registry) : Prop where
  disjoint : ∀ name, registry.isOperator name = true → registry.isFunction name = false
  free : ∀ name ∈ ["field", "expression", "aggregation", "metric", "segment"],
    registry.isReserved name = false

/-- The second dialect is the first with the name of conditionals as one more function. -/
structure AddsCase (registry registry' : Registry) : Prop where
  operators : ∀ name, registry'.isOperator name = registry.isOperator name
  functions : ∀ name, registry'.isFunction name = (registry.isFunction name || name == "case")

/-- The dialect without a function by the name of conditionals. -/
def withoutCase (registry : Registry) : Registry :=
  { registry with
    functions := ⟨registry.functions.names.filter (· != "case"),
      registry.functions.ascending.filter _⟩ }

/-- The kind that a clause has by the name that heads it, if it has one. -/
def nameKind? (registry : Registry) (name : String) : Option Kind :=
  if registry.isOperator name then some .operator
  else if registry.isFunction name then some .function
  else Kind.ofHead? name

/-- The only kind that a clause can have, conditionals aside. -/
def formKind? (registry : Registry) : Json → Option Kind
  | .str _ => some .text
  | .num _ => some .number
  | .bool _ => some .boolean
  | .arr (.str name :: _) => registry.nameKind? name
  | _ => none

theorem nameKind?_of_free
    {name : String} (h : registry.isReserved name = false) :
    registry.nameKind? name = Kind.ofHead? name := by
  obtain ⟨hoperator, hfunction⟩ := Bool.or_eq_false_iff.mp h
  rw [nameKind?, hoperator, hfunction]
  rfl

theorem Separate.besideCase
    (h : registry.Separate) :
    registry.SeparateBesideCase where
  disjoint := h.disjoint
  free := by
    intro name hname
    apply h.free
    exact List.mem_append_left ["case"] hname

theorem AddsCase.besideCase
    (hadds : registry.AddsCase registry') (h : registry.Separate) :
    registry'.SeparateBesideCase where
  disjoint := by
    intro name hoperator
    rw [hadds.operators] at hoperator
    have hname : name ≠ "case" := by
      rintro rfl
      have hfree := (Bool.or_eq_false_iff.mp (h.free "case" (by decide))).1
      rw [hoperator] at hfree
      contradiction
    rw [hadds.functions, h.disjoint name hoperator, Bool.false_or, beq_eq_false_iff_ne]
    exact hname
  free := by
    intro name hname
    have hcase : name ≠ "case" := by
      rintro rfl
      exact absurd hname (by decide)
    rw [isReserved, hadds.operators, hadds.functions, beq_eq_false_iff_ne.mpr hcase,
      Bool.or_false]
    exact h.besideCase.free name hname

theorem addsCase_withoutCase
    (h : registry.isFunction "case" = true) :
    registry.withoutCase.AddsCase registry where
  operators := fun _ => rfl
  functions := by
    intro name
    rw [isFunction, NameSet.contains, List.contains_iff_mem] at h
    rw [Bool.eq_iff_iff, Bool.or_eq_true, beq_iff_eq, isFunction, isFunction, NameSet.contains,
      NameSet.contains, List.contains_iff_mem, List.contains_iff_mem, withoutCase,
      List.mem_filter, bne_iff_ne]
    by_cases hname : name = "case"
    · subst hname
      exact iff_of_true h (.inr rfl)
    · simp [hname]

theorem AddsCase.nameKind?_case
    (hadds : registry.AddsCase registry') (h : registry.Separate) :
    registry'.nameKind? "case" = some .function := by
  have hfree := (Bool.or_eq_false_iff.mp (h.free "case" (by decide))).1
  rw [nameKind?, hadds.operators, hadds.functions, hfree, beq_self_eq_true, Bool.or_true]
  rfl

/-- In the standard dialect only the function `case` heads clauses of another kind. -/
theorem separate_withoutCase_standard :
    standard.withoutCase.Separate := by
  have hnames :
      (∀ name ∈ standard.operators.names, standard.withoutCase.isFunction name = false) ∧
        ∀ name ∈ ["field", "expression", "aggregation", "metric", "segment", "case"],
          standard.withoutCase.isReserved name = false := by
    decide +kernel
  exact ⟨fun name hname => hnames.1 name (List.contains_iff_mem.mp hname), hnames.2⟩

end Registry

namespace Scope

variable {registry registry' : Registry} {metadata : Metadata} {clause : Json} {kind : Kind}

/-- A clause of any kind but the last has no other kind by its form. -/
theorem formKind?_of_hasKind
    (hseparate : registry.SeparateBesideCase) (hkind : kind ≠ .conditional)
    (h : Scope.hasKind ⟨registry, metadata.toQuery.isDimension⟩ clause kind = true) :
    registry.formKind? clause = some kind := by
  have hfree : ∀ name rest, name ∈ ["field", "expression", "aggregation", "metric", "segment"] →
      registry.formKind? (.arr (.str name :: rest)) = Kind.ofHead? name := by
    intro name rest hname
    exact Registry.nameKind?_of_free (hseparate.free name hname)
  cases kind with
  | text =>
      rw [hasKind] at h
      unfold Json.isText at h
      split at h
      · rfl
      · contradiction
  | number =>
      rw [hasKind] at h
      unfold Json.isNumber at h
      split at h
      · rfl
      · contradiction
  | boolean =>
      rw [hasKind] at h
      unfold Json.isBoolean at h
      split at h
      · rfl
      · contradiction
  | operator =>
      rw [hasKind] at h
      unfold isOperator at h
      split at h
      · next name rest =>
        have hname := (Bool.and_eq_true_iff.mp h).1
        exact if_pos hname
      · contradiction
  | function =>
      rw [hasKind] at h
      unfold isFunction at h
      split at h
      · next name rest =>
        have hname := (Bool.and_eq_true_iff.mp h).1
        have hoperator : ¬ registry.isOperator name = true := by
          intro hoperator
          have hfunction := hseparate.disjoint name hoperator
          rw [hname] at hfunction
          contradiction
        rw [Registry.formKind?, Registry.nameKind?, if_neg hoperator, if_pos hname]
      · contradiction
  | dimension =>
      have hcolumn : isColumnReference clause = true := h
      unfold isColumnReference at hcolumn
      split at hcolumn
      case h_5 =>
        contradiction
      all_goals exact hfree _ _ (by decide)
  | metric =>
      rw [hasKind] at h
      unfold Json.isMetric at h
      split at h
      · exact hfree _ _ (by decide)
      · contradiction
  | segment =>
      rw [hasKind] at h
      unfold Json.isSegment at h
      split at h
      · exact hfree _ _ (by decide)
      · contradiction
  | conditional =>
      contradiction

theorem formKind?_of_conditional
    (h : clause.isConditional = true) :
    registry.formKind? clause = registry.nameKind? "case" := by
  unfold Json.isConditional at h
  split at h
  · rfl
  · contradiction

/-- Without functions by the name of conditionals no clause has the form of two kinds. -/
theorem hasKind_unique
    (hseparate : registry.Separate) {kind' : Kind}
    (h : Scope.hasKind ⟨registry, metadata.toQuery.isDimension⟩ clause kind = true)
    (h' : Scope.hasKind ⟨registry, metadata.toQuery.isDimension⟩ clause kind' = true) :
    kind = kind' := by
  have hform : ∀ kind,
      Scope.hasKind ⟨registry, metadata.toQuery.isDimension⟩ clause kind = true →
        registry.formKind? clause = some kind := by
    intro kind h
    by_cases hkind : kind = .conditional
    · subst hkind
      rw [formKind?_of_conditional h, Registry.nameKind?_of_free (hseparate.free _ (by decide))]
      rfl
    · exact formKind?_of_hasKind hseparate.besideCase hkind h
  have hsame := hform kind h
  rw [hform kind' h'] at hsame
  exact (Option.some.inj hsame).symm

/-- A function by the name of conditionals shares clauses with them and with nothing
else. -/
theorem hasKind_overlap
    (hseparate : registry.Separate) (hadds : registry.AddsCase registry') {kind' : Kind}
    (h : Scope.hasKind ⟨registry', metadata.toQuery.isDimension⟩ clause kind = true)
    (h' : Scope.hasKind ⟨registry', metadata.toQuery.isDimension⟩ clause kind' = true) :
    kind = kind' ∨ (kind = .function ∧ kind' = .conditional) ∨
      (kind = .conditional ∧ kind' = .function) := by
  have hform : ∀ {kind},
      Scope.hasKind ⟨registry', metadata.toQuery.isDimension⟩ clause kind = true →
        kind ≠ .conditional → registry'.formKind? clause = some kind := fun h hkind =>
    formKind?_of_hasKind (hadds.besideCase hseparate) hkind h
  have hcase : ∀ {kind},
      Scope.hasKind ⟨registry', metadata.toQuery.isDimension⟩ clause kind = true →
        kind = .conditional → registry'.formKind? clause = some .function := by
    rintro _ h rfl
    rw [formKind?_of_conditional h, hadds.nameKind?_case hseparate]
  by_cases hkind : kind = .conditional
  · by_cases hkind' : kind' = .conditional
    · exact .inl (hkind.trans hkind'.symm)
    · have hsame := hform h' hkind'
      rw [hcase h hkind] at hsame
      exact .inr (.inr ⟨hkind, (Option.some.inj hsame).symm⟩)
  · have hsame := hform h hkind
    by_cases hkind' : kind' = .conditional
    · rw [hcase h' hkind'] at hsame
      exact .inr (.inl ⟨(Option.some.inj hsame).symm, hkind'⟩)
    · rw [hform h' hkind'] at hsame
      exact .inl (Option.some.inj hsame).symm

/-- A clause is an expression exactly when it has the form of some kind, and then of
the first such kind.  Under a separate dialect and a described query it has the form of
one kind at most, and the order in which the kinds are tried does not matter; a function
by the name of conditionals is the only thing that a conditional can be besides. -/
theorem classify_kinds :
    (∀ (scope : Scope) (clause : Json),
      (scope.classify clause = none ↔ ∀ kind, scope.hasKind clause kind = false) ∧
        (scope.classify clause).map Expression.kind =
          Kind.order.find? (scope.hasKind clause)) ∧
    (∀ (registry : Registry) (metadata : Metadata), registry.Separate → ∀ clause,
      let scope : Scope := ⟨registry, metadata.toQuery.isDimension⟩
      (∀ kind kind', scope.hasKind clause kind = true → scope.hasKind clause kind' = true →
        kind = kind') ∧
      ∀ kinds : List Kind, (∀ kind, kind ∈ kinds) →
        (scope.classify clause).map Expression.kind = kinds.find? (scope.hasKind clause)) ∧
    ∀ (registry registry' : Registry) (metadata : Metadata), registry.Separate →
      registry.AddsCase registry' → ∀ clause,
        let scope : Scope := ⟨registry', metadata.toQuery.isDimension⟩
        ∀ kind kind', scope.hasKind clause kind = true → scope.hasKind clause kind' = true →
          kind = kind' ∨ (kind = .function ∧ kind' = .conditional) ∨
            (kind = .conditional ∧ kind' = .function) := by
  refine ⟨?_, ?_, ?_⟩
  · intro scope clause
    refine ⟨?_, map_kind_classify clause⟩
    rw [← Option.map_eq_none_iff, map_kind_classify, List.find?_eq_none]
    simp [Kind.mem_order]
  · intro registry metadata hseparate clause scope
    have hunique : ∀ kind kind', scope.hasKind clause kind = true →
        scope.hasKind clause kind' = true → kind = kind' := fun kind kind' =>
      hasKind_unique hseparate
    refine ⟨hunique, ?_⟩
    intro kinds hall
    rw [map_kind_classify]
    apply Option.ext
    intro kind
    rw [find?_eq_some_iff_of_unique hunique Kind.mem_order,
      find?_eq_some_iff_of_unique hunique hall]
  · intro registry registry' metadata hseparate hadds clause scope kind kind'
    exact hasKind_overlap hseparate hadds

/-- In the standard dialect a lone `case` is a function and a conditional and nothing
else; without that function it is a conditional, in whatever order the kinds are
tried. -/
theorem classify_kinds_case :
    let own : Registry := Registry.standard.withoutCase
    let isDimension : Json → Bool := Metadata.empty.toQuery.isDimension
    let clause : Json := .arr [.str "case"]
    own.Separate ∧ own.AddsCase .standard ∧ (∀ kind, kind ∈ Kind.order.reverse) ∧
      Kind.order.reverse.find? (Scope.hasKind ⟨own, isDimension⟩ clause) = some .conditional ∧
      ∀ kind, Scope.hasKind ⟨.standard, isDimension⟩ clause kind = true ↔
        kind = .function ∨ kind = .conditional := by
  intro own isDimension clause
  have hseparate : own.Separate := Registry.separate_withoutCase_standard
  have hcase : Registry.standard.isFunction "case" = true := by
    decide +kernel
  have hadds : own.AddsCase .standard := Registry.addsCase_withoutCase hcase
  have hall : ∀ kind, kind ∈ Kind.order.reverse := by
    intro kind
    exact List.mem_reverse.mpr kind.mem_order
  have hfunction : Scope.hasKind ⟨.standard, isDimension⟩ clause .function = true :=
    hasKind_function_iff.mpr ⟨hcase, rfl⟩
  obtain ⟨-, hsingle, hoverlap⟩ := classify_kinds
  obtain ⟨hunique, horder⟩ := hsingle own Metadata.empty hseparate clause
  refine ⟨hseparate, hadds, hall, ?_, ?_⟩
  · rw [← horder _ hall, map_kind_classify, find?_eq_some_iff_of_unique hunique Kind.mem_order]
    rfl
  intro kind
  constructor
  · intro hkind
    rcases hoverlap own .standard Metadata.empty hseparate hadds clause kind .function hkind
      hfunction with hsame | ⟨-, hother⟩ | ⟨hconditional, -⟩
    · exact .inl hsame
    · exact Kind.noConfusion hother
    · exact .inr hconditional
  · rintro (rfl | rfl)
    · exact hfunction
    · rfl

end Scope
end QueryFormula
