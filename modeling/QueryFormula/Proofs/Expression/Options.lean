import QueryFormula.Proofs.Expression.Extension

/-!
# Changes of options

The options of an application can be exchanged, added or taken away without a change
to anything else that a clause is understood as: options are told by their place and
their form alone, and neither the name nor the arguments of an application are told by
its options.  Only the columns could tell: a conditional around the application would be
something else if a list in it became a column by the change.
-/

namespace QueryFormula
namespace Json

/-- A name applied to items, with options after them. -/
def applied (name : String) (items : List Json) (options : Option Members) : Json :=
  .arr (.str name :: (items ++ (options.map Json.obj).toList))

/-- A place for a clause among the parts of a conditional: the condition or the value of
a branch, or the default. -/
inductive PartPlace where
  | condition (before after rest : List Json) (value : Json)
  | value (before after rest : List Json) (condition : Json)
  | default (branches : Json) (before after : Members)
      (hbefore : ∀ member ∈ before, member.1 ≠ "default")

namespace PartPlace

/-- The parts of the conditional, by the clause at the place. -/
def parts : PartPlace → Json → List Json
  | .condition before after rest other, clause =>
    .arr (before ++ .arr [clause, other] :: after) :: rest
  | .value before after rest other, clause =>
    .arr (before ++ .arr [other, clause] :: after) :: rest
  | .default branches before after _, clause =>
    [branches, .obj (before ++ ("default", clause) :: after)]

/-- The conditional, by the clause at the place. -/
def form (place : PartPlace) (clause : Json) : Json :=
  .arr (.str "case" :: place.parts clause)

/-- The lists of the conditional that the place is in, from within: the branch, the list
of the branches and the conditional itself. -/
def around (place : PartPlace) : List (Json → Json) :=
  match place with
  | .condition before after _ other =>
    [fun clause => .arr [clause, other],
      fun clause => .arr (before ++ .arr [clause, other] :: after), place.form]
  | .value before after _ other =>
    [fun clause => .arr [other, clause],
      fun clause => .arr (before ++ .arr [other, clause] :: after), place.form]
  | .default .. => [place.form]

end PartPlace
end Json

namespace Scope

/-- The first clause becomes the second when the options of one application in it, `old`,
are made to be `new`.  The lists of the conditionals around the application are listed,
each as it was and as it becomes. -/
inductive ChangesOptions (scope : Scope) (old new : Option Members) :
    List (Json × Json) → Json → Json → Prop
  | here {role : Role} {name : String} {items : List Json} {args : List Expression}
      (h : scope.classify (.applied name items old) = some (.application role name args old)) :
      ChangesOptions scope old new [] (.applied name items old) (.applied name items new)
  | argument (before after : List Json) {role : Role} {name : String} {args : List Expression}
      {options : Option Members} {lists : List (Json × Json)} {clause clause' : Json}
      (h : scope.classify (.arr (.str name :: (before ++ clause :: after))) =
        some (.application role name args options))
      (hclause : ChangesOptions scope old new lists clause clause') :
      ChangesOptions scope old new lists (.arr (.str name :: (before ++ clause :: after)))
        (.arr (.str name :: (before ++ clause' :: after)))
  | part (place : Json.PartPlace) {lists : List (Json × Json)} {clause clause' : Json}
      (h : scope.classify (place.form clause) = some (.conditional (place.parts clause)))
      (hclause : ChangesOptions scope old new lists clause clause') :
      ChangesOptions scope old new
        (lists ++ place.around.map fun list => (list clause, list clause'))
        (place.form clause) (place.form clause')

/-- No list becomes a column: one that is recognised as it becomes was recognised as it
was. -/
def Overlooks (scope : Scope) (lists : List (Json × Json)) : Prop :=
  ∀ list ∈ lists, scope.isDimension list.2 = true → scope.isDimension list.1 = true

/-- The first expression becomes the second when the options field of one application in
it, `old`, is made to be `new`.  The parts of a conditional are clauses. -/
inductive DiffersInOptions (scope : Scope) (old new : Option Members) :
    Expression → Expression → Prop
  | here (role : Role) (name : String) (args : List Expression) :
      DiffersInOptions scope old new (.application role name args old)
        (.application role name args new)
  | argument (role : Role) (name : String) (before after : List Expression)
      (options : Option Members) {x x' : Expression} (hx : DiffersInOptions scope old new x x') :
      DiffersInOptions scope old new (.application role name (before ++ x :: after) options)
        (.application role name (before ++ x' :: after) options)
  | part (place : Json.PartPlace) {lists : List (Json × Json)} {clause clause' : Json}
      (hclause : scope.ChangesOptions old new lists clause clause') :
      DiffersInOptions scope old new (.conditional (place.parts clause))
        (.conditional (place.parts clause'))

end Scope

/-! ## Operands and options of items -/

namespace Json

/-- The outermost of the lists around a place is the conditional itself. -/
theorem PartPlace.form_mem_around (place : PartPlace) :
    place.form ∈ place.around := by
  cases place <;> simp [around]

theorem arr_ne_obj (items : List Json) (members : Members) :
    Json.arr items ≠ .obj members := by
  intro h
  contradiction

theorem operands_append_obj (items : List Json) (members : Members) :
    operands (items ++ [.obj members]) = items := by
  fun_induction operands items with
  | case1 =>
      rfl
  | case2 others =>
      rfl
  | case3 item rest _ ih =>
      rw [List.cons_append, operands.eq_3 _ _ (by simp), ih]

theorem options?_append_obj (items : List Json) (members : Members) :
    options? (items ++ [.obj members]) = some members := by
  rw [options?, List.getLast?_concat]

/-- Items without an object at the end are all operands. -/
theorem operands_eq_self
    {items : List Json} (h : options? items = none) :
    operands items = items := by
  fun_induction operands items with
  | case1 =>
      rfl
  | case2 members =>
      contradiction
  | case3 item rest hlast ih =>
      rw [options?_cons hlast] at h
      rw [ih h]

theorem mem_of_options?
    {items : List Json} {members : Members} (h : options? items = some members) :
    .obj members ∈ items := by
  unfold options? at h
  split at h
  · next hlast =>
    cases h
    exact List.mem_of_getLast? hlast
  · contradiction

theorem operands_append_cons
    {item : Json} (hitem : ∀ members, item ≠ .obj members) (before after : List Json) :
    operands (before ++ item :: after) = before ++ item :: operands after := by
  induction before with
  | nil =>
      rw [List.nil_append, List.nil_append, operands.eq_3]
      intro members hobj _
      exact hitem members hobj
  | cons first before ih =>
      rw [List.cons_append, operands.eq_3, ih, List.cons_append]
      intro members _ hnil
      exact List.append_ne_nil_of_right_ne_nil before (List.cons_ne_nil item after) hnil

theorem options?_append_cons
    {item : Json} (hitem : ∀ members, item ≠ .obj members) (before after : List Json) :
    options? (before ++ item :: after) = options? after := by
  induction before with
  | nil =>
      rw [List.nil_append, options?_cons]
      intro members hobj _
      exact hitem members hobj
  | cons first before ih =>
      rw [List.cons_append, options?_cons, ih]
      intro members _ hnil
      exact List.append_ne_nil_of_right_ne_nil before (List.cons_ne_nil item after) hnil

end Json

namespace Scope

variable {scope : Scope}

theorem classify_obj
    {members : Members} (h : scope.isDimension (.obj members) = false) :
    scope.classify (.obj members) = none := by
  rw [classify, classifyOther, h]
  · rfl
  all_goals
    intros
    contradiction

/-- A name applied to items with options after them is an application with these options
when it has a role, the items are expressions, and no object among them can be taken for
options. -/
theorem classify_applied_iff
    {role : Role} {name : String} {items : List Json} {args : List Expression}
    {options : Option Members} :
    scope.classify (.applied name items options) = some (.application role name args options) ↔
      scope.role? name = some role ∧
        List.Forall₂ (fun item x => scope.classify item = some x) items args ∧
          (options = none → Json.options? items = none) := by
  have hrest :
      scope.classify (.applied name items options) =
          some (.application role name args options) ↔
        scope.role? name = some role ∧ scope.classifyArgs
          (items ++ (options.map Json.obj).toList) = some (args, options) := by
    rw [classify_eq_application_iff]
    constructor
    · rintro ⟨rest, hclause, hrole, hargs⟩
      cases hclause
      exact ⟨hrole, hargs⟩
    · rintro ⟨hrole, hargs⟩
      exact ⟨_, rfl, hrole, hargs⟩
  rw [hrest, classifyArgs_eq_some_iff]
  cases options with
  | some members =>
      rw [Option.map_some, Option.toList_some, Json.operands_append_obj,
        Json.options?_append_obj]
      simp
  | none =>
      rw [Option.map_none, Option.toList_none, List.append_nil]
      constructor
      · rintro ⟨hrole, hargs, hoptions⟩
        rw [Json.operands_eq_self hoptions.symm] at hargs
        exact ⟨hrole, hargs, fun _ => hoptions.symm⟩
      · rintro ⟨hrole, hargs, hoptions⟩
        rw [Json.operands_eq_self (hoptions rfl)]
        exact ⟨hrole, hargs, (hoptions rfl).symm⟩

/-- Where objects are no columns, no expression is an object. -/
theorem options?_eq_none_of_forall₂
    {items : List Json} {args : List Expression}
    (hobject : ∀ members, scope.isDimension (.obj members) = false)
    (h : List.Forall₂ (fun item x => scope.classify item = some x) items args) :
    Json.options? items = none := by
  cases hlast : Json.options? items with
  | none =>
      rfl
  | some members =>
      have hmem : .obj members ∈ items := Json.mem_of_options? hlast
      obtain ⟨x, hx⟩ := exists_forall₂_iff.mp ⟨args, h⟩ _ hmem
      rw [classify_obj (hobject members)] at hx
      contradiction

/-- Options of an application can become others, or none where objects are no columns. -/
theorem classify_applied_of_classify
    {role : Role} {name : String} {items : List Json} {args : List Expression}
    {old new : Option Members}
    (h : scope.classify (.applied name items old) = some (.application role name args old))
    (hremoved : new = none → ∀ members, scope.isDimension (.obj members) = false) :
    scope.classify (.applied name items new) = some (.application role name args new) := by
  obtain ⟨hrole, hargs, -⟩ := classify_applied_iff.mp h
  rw [classify_applied_iff]
  refine ⟨hrole, hargs, ?_⟩
  intro hnew
  exact options?_eq_none_of_forall₂ (hremoved hnew) hargs

variable {old new : Option Members} {lists : List (Json × Json)} {clause clause' : Json}

/-- A change within a conditional is overlooked where it is within the part and where it
is in each list around that. -/
theorem overlooks_append_around_iff
    {place : Json.PartPlace} :
    scope.Overlooks
        (lists ++ place.around.map fun list => (list clause, list clause')) ↔
      scope.Overlooks lists ∧ ∀ list ∈ place.around,
        scope.isDimension (list clause') = true → scope.isDimension (list clause) = true := by
  rw [Overlooks, List.forall_mem_append, List.forall_mem_map]
  rfl

theorem ChangesOptions.isList
    (h : scope.ChangesOptions old new lists clause clause') :
    (∃ items, clause = .arr items) ∧ ∃ items', clause' = .arr items' := by
  cases h with
  | here =>
      exact ⟨⟨_, rfl⟩, _, rfl⟩
  | argument =>
      exact ⟨⟨_, rfl⟩, _, rfl⟩
  | part =>
      exact ⟨⟨_, rfl⟩, _, rfl⟩

theorem ChangesOptions.isExpression
    (h : scope.ChangesOptions old new lists clause clause') :
    scope.isExpression clause = true := by
  rw [Scope.isExpression, Option.isSome_iff_exists]
  cases h with
  | here h =>
      exact ⟨_, h⟩
  | argument before after h _ =>
      exact ⟨_, h⟩
  | part place h _ =>
      exact ⟨_, h⟩

/-- An argument of an application that is a list can be exchanged for another. -/
theorem exists_classify_argument
    {role : Role} {name : String} {args : List Expression} {options : Option Members}
    {before after items : List Json}
    (h : scope.classify (.arr (.str name :: (before ++ .arr items :: after))) =
      some (.application role name args options)) :
    ∃ xs x ys, args = xs ++ x :: ys ∧ scope.classify (.arr items) = some x ∧
      ∀ items' x', scope.classify (.arr items') = some x' →
        scope.classify (.arr (.str name :: (before ++ .arr items' :: after))) =
          some (.application role name (xs ++ x' :: ys) options) := by
  obtain ⟨rest, hrest, hrole, hargs⟩ := classify_eq_application_iff.mp h
  cases hrest
  obtain ⟨hoperands, hoptions⟩ := classifyArgs_eq_some_iff.mp hargs
  rw [Json.operands_append_cons (Json.arr_ne_obj items)] at hoperands
  rw [Json.options?_append_cons (Json.arr_ne_obj items)] at hoptions
  obtain ⟨xs, zs, hxs, hzs, rfl⟩ := forall₂_append_left_iff.mp hoperands
  obtain ⟨x, ys, hx, hys, rfl⟩ := List.forall₂_cons_left_iff.mp hzs
  refine ⟨xs, x, ys, rfl, hx, ?_⟩
  intro items' x' hx'
  rw [classify_eq_application_iff]
  refine ⟨_, rfl, hrole, ?_⟩
  rw [classifyArgs_eq_some_iff, Json.operands_append_cons (Json.arr_ne_obj items'),
    Json.options?_append_cons (Json.arr_ne_obj items')]
  exact ⟨List.rel_append hxs (.cons hx' hys), hoptions⟩

/-! ## Conditionals around a change -/

/-- Where it is no application, a list under a name that holds another list is a column or
has the name of conditionals. -/
theorem classifyOther_isSome_iff
    {name : String} {rest inner : List Json} (h : .arr inner ∈ rest) :
    (scope.classifyOther (.arr (.str name :: rest))).isSome = true ↔
      scope.isDimension (.arr (.str name :: rest)) = true ∨ name = "case" := by
  by_cases hcolumn : scope.isDimension (.arr (.str name :: rest)) = true
  · unfold classifyOther
    rw [if_pos hcolumn]
    exact iff_of_true rfl (.inl hcolumn)
  · by_cases hname : name = "case"
    · subst hname
      rw [classifyOther_case, if_neg hcolumn]
      exact iff_of_true rfl (.inr rfl)
    · rw [classifyOther, if_neg hcolumn]
      · exact iff_of_false Bool.noConfusion (not_or_intro hcolumn hname)
      · intro b hb
        contradiction
      · intro id hmetric
        cases hmetric
        exact Json.noConfusion (List.mem_singleton.mp h)
      · intro id hsegment
        cases hsegment
        exact Json.noConfusion (List.mem_singleton.mp h)
      · intro parts hparts
        cases hparts
        exact hname rfl

/-- A list that holds another is an expression as a column, an application or a
conditional. -/
theorem isExpression_iff_of_mem
    {items inner : List Json} (h : .arr inner ∈ items) :
    scope.isExpression (.arr items) = true ↔
      scope.isDimension (.arr items) = true ∨
        ∃ name rest, items = .str name :: rest ∧
          ((scope.registry.isReserved name = true ∧
            ∀ item ∈ Json.operands rest, scope.isExpression item = true) ∨ name = "case") := by
  by_cases hnamed : ∃ name rest, items = .str name :: rest
  · obtain ⟨name, rest, rfl⟩ := hnamed
    have hrest : .arr inner ∈ rest := (List.mem_cons.mp h).resolve_left Json.noConfusion
    rw [isExpression_named_iff, classifyOther_isSome_iff hrest]
    constructor
    · rintro (happlied | hcolumn | hname)
      · exact .inr ⟨name, rest, rfl, .inl happlied⟩
      · exact .inl hcolumn
      · exact .inr ⟨name, rest, rfl, .inr hname⟩
    · rintro (hcolumn | ⟨name', rest', heq, hform⟩)
      · exact .inr (.inl hcolumn)
      · cases heq
        exact hform.imp_right .inr
  · have hnot : ∀ name rest, items ≠ .str name :: rest := fun name rest heq =>
      hnamed ⟨name, rest, heq⟩
    rw [isExpression, classify_of_not_named hnot]
    by_cases hcolumn : scope.isDimension (.arr items) = true
    · rw [if_pos hcolumn]
      exact iff_of_true rfl (.inl hcolumn)
    · rw [if_neg hcolumn]
      apply iff_of_false Bool.noConfusion
      rintro (hdimension | ⟨name, rest, heq, -⟩)
      · exact hcolumn hdimension
      · exact hnot name rest heq

/-- A list stays an expression when a list in it becomes another, unless that ceases to
be one or the whole ceases to be a column. -/
theorem isExpression_replace
    (before after : List Json) {items items' : List Json}
    (h : scope.isExpression (.arr items) = true → scope.isExpression (.arr items') = true)
    (hcolumn : scope.isDimension (.arr (before ++ .arr items :: after)) = true →
      scope.isDimension (.arr (before ++ .arr items' :: after)) = true)
    (hwhole : scope.isExpression (.arr (before ++ .arr items :: after)) = true) :
    scope.isExpression (.arr (before ++ .arr items' :: after)) = true := by
  have hmem : ∀ inner, .arr inner ∈ before ++ .arr inner :: after := fun inner =>
    List.mem_append_right before List.mem_cons_self
  rw [isExpression_iff_of_mem (hmem items)] at hwhole
  rw [isExpression_iff_of_mem (hmem items')]
  apply hwhole.imp hcolumn
  rintro ⟨name, rest, heq, hform⟩
  cases before with
  | nil =>
      exact Json.noConfusion (List.cons.inj heq).1
  | cons first before =>
      rw [List.cons_append] at heq
      obtain ⟨rfl, rfl⟩ := List.cons.inj heq
      refine ⟨name, before ++ .arr items' :: after, rfl, hform.imp_left ?_⟩
      rintro ⟨hreserved, hoperands⟩
      rw [Json.operands_append_cons (Json.arr_ne_obj items), List.forall_mem_append,
        List.forall_mem_cons] at hoperands
      rw [Json.operands_append_cons (Json.arr_ne_obj items'), List.forall_mem_append,
        List.forall_mem_cons]
      exact ⟨hreserved, hoperands.1, h hoperands.2.1, hoperands.2.2⟩

theorem classify_eq_conditional_iff
    {rest : List Json} :
    scope.classify (.arr (.str "case" :: rest)) = some (.conditional rest) ↔
      ¬ scope.isDimension (.arr (.str "case" :: rest)) = true ∧
        ¬ (scope.registry.isReserved "case" = true ∧
          ∀ item ∈ Json.operands rest, scope.isExpression item = true) := by
  rw [← role?_isSome, ← classifyArgs_isSome_iff, classify, classifyOther_case]
  cases scope.role? "case" with
  | none =>
      simp
  | some role =>
      cases scope.classifyArgs rest <;> simp

/-- The operands of a conditional were expressions if they are after a change in one of
its parts, unless a list around that part becomes a column. -/
theorem ChangesOptions.forall_operands
    (hclause : scope.ChangesOptions old new lists clause clause') (place : Json.PartPlace)
    (hcolumn : ∀ list ∈ place.around,
      scope.isDimension (list clause') = true → scope.isDimension (list clause) = true)
    (h : ∀ item ∈ Json.operands (place.parts clause'), scope.isExpression item = true) :
    ∀ item ∈ Json.operands (place.parts clause), scope.isExpression item = true := by
  obtain ⟨⟨items, rfl⟩, items', rfl⟩ := hclause.isList
  have hback : scope.isExpression (.arr items') = true → scope.isExpression (.arr items) = true :=
    fun _ => hclause.isExpression
  have hoperands : ∀ inner rest, Json.operands (.arr inner :: rest) =
      .arr inner :: Json.operands rest := fun inner rest =>
    Json.operands_append_cons (Json.arr_ne_obj inner) [] rest
  cases place with
  | condition before after rest value =>
      simp only [Json.PartPlace.around, List.forall_mem_cons] at hcolumn
      simp only [Json.PartPlace.parts, hoperands, List.forall_mem_cons] at h ⊢
      refine ⟨isExpression_replace before after ?_ hcolumn.2.1 h.1, h.2⟩
      exact isExpression_replace [] [value] hback hcolumn.1
  | value before after rest condition =>
      simp only [Json.PartPlace.around, List.forall_mem_cons] at hcolumn
      simp only [Json.PartPlace.parts, hoperands, List.forall_mem_cons] at h ⊢
      refine ⟨isExpression_replace before after ?_ hcolumn.2.1 h.1, h.2⟩
      exact isExpression_replace [condition] [] hback hcolumn.1
  | default branches before after hbefore =>
      have hbranches : ∀ options, Json.operands [branches, .obj options] = [branches] := by
        intro options
        rw [Json.operands.eq_3, Json.operands]
        intro members _ hnil
        contradiction
      rw [Json.PartPlace.parts, hbranches] at h ⊢
      exact h

/-- A conditional stays one when options in one of its parts change, unless a list around
that part becomes a column. -/
theorem ChangesOptions.classify_part
    (hclause : scope.ChangesOptions old new lists clause clause') (place : Json.PartPlace)
    (hcolumn : ∀ list ∈ place.around,
      scope.isDimension (list clause') = true → scope.isDimension (list clause) = true)
    (h : scope.classify (place.form clause) = some (.conditional (place.parts clause))) :
    scope.classify (place.form clause') = some (.conditional (place.parts clause')) := by
  rw [Json.PartPlace.form, classify_eq_conditional_iff] at h ⊢
  refine ⟨fun hform => h.1 (hcolumn _ place.form_mem_around hform), ?_⟩
  rintro ⟨hreserved, hoperands⟩
  exact h.2 ⟨hreserved, hclause.forall_operands place hcolumn hoperands⟩

/-- What a clause is understood as changes in the options field of the one application.
Where options are taken away, the arguments before them must not be taken for options;
where the application is within conditionals, no list of them must become a column. -/
theorem ChangesOptions.exists_classify
    (h : scope.ChangesOptions old new lists clause clause')
    (hremoved : new = none → ∀ members, scope.isDimension (.obj members) = false)
    (hlists : scope.Overlooks lists) :
    ∃ x x', scope.classify clause = some x ∧ scope.classify clause' = some x' ∧
      scope.DiffersInOptions old new x x' := by
  induction h with
  | @here role name items args h =>
      exact ⟨_, _, h, classify_applied_of_classify h hremoved, .here role name args⟩
  | @argument before after role name args options lists clause clause' h hclause ih =>
      obtain ⟨x, x', hx, hx', hdiffers⟩ := ih hlists
      obtain ⟨⟨items, rfl⟩, items', rfl⟩ := hclause.isList
      obtain ⟨xs, y, ys, rfl, hy, hreplaced⟩ := exists_classify_argument h
      obtain rfl := Option.some.inj (hx.symm.trans hy)
      exact ⟨_, _, h, hreplaced items' x' hx', .argument role name xs ys options hdiffers⟩
  | part place h hclause _ =>
      obtain ⟨-, haround⟩ := overlooks_append_around_iff.mp hlists
      exact ⟨_, _, h, hclause.classify_part place haround h, .part place hclause⟩

end Scope

theorem exists_of_isColumnReference
    {items : List Json} (h : isColumnReference (.arr items) = true) :
    ∃ name key rest, items = .str name :: key :: rest ∧ (∀ inner, key ≠ .arr inner) ∧
      endsReference rest = true := by
  unfold isColumnReference at h
  split at h
  · next heq =>
    cases heq
    exact ⟨_, _, _, rfl, fun _ => Json.noConfusion, (Bool.and_eq_true_iff.mp h).2⟩
  · next heq =>
    cases heq
    exact ⟨_, _, _, rfl, fun _ => Json.noConfusion, (Bool.and_eq_true_iff.mp h).2⟩
  · next heq =>
    cases heq
    exact ⟨_, _, _, rfl, fun _ => Json.noConfusion, h⟩
  · next heq =>
    cases heq
    exact ⟨_, _, _, rfl, fun _ => Json.noConfusion, h⟩
  · contradiction

theorem not_mem_of_endsReference
    {rest : List Json} (h : endsReference rest = true) (inner : List Json) :
    .arr inner ∉ rest := by
  unfold endsReference at h
  split at h
  · exact List.not_mem_nil
  · simp
  · simp
  · contradiction

/-- A reference to a column holds no list. -/
theorem isColumnReference_eq_false_of_mem
    {items inner : List Json} (h : .arr inner ∈ items) :
    isColumnReference (.arr items) = false := by
  rw [← Bool.not_eq_true]
  intro hcolumn
  obtain ⟨name, key, rest, rfl, hkey, hrest⟩ := exists_of_isColumnReference hcolumn
  rcases List.mem_cons.mp h with hname | hmem
  · contradiction
  · rcases List.mem_cons.mp hmem with rfl | hmem
    · exact hkey inner rfl
    · exact not_mem_of_endsReference hrest inner hmem

/-- No list of a conditional around a list is a reference to a column. -/
theorem Json.PartPlace.isColumnReference_around
    (place : PartPlace) (items : List Json) :
    ∀ list ∈ place.around, isColumnReference (list (.arr items)) = false := by
  have hform : isColumnReference (place.form (.arr items)) = false :=
    rfl
  cases place with
  | condition before after rest value =>
      simp only [around, List.forall_mem_cons]
      refine ⟨isColumnReference_eq_false_of_mem List.mem_cons_self, ?_, hform,
        fun list hlist => absurd hlist List.not_mem_nil⟩
      exact isColumnReference_eq_false_of_mem (List.mem_append_right before List.mem_cons_self)
  | value before after rest condition =>
      simp only [around, List.forall_mem_cons]
      refine ⟨isColumnReference_eq_false_of_mem (List.mem_cons_of_mem _ List.mem_cons_self), ?_,
        hform, fun list hlist => absurd hlist List.not_mem_nil⟩
      exact isColumnReference_eq_false_of_mem (List.mem_append_right before List.mem_cons_self)
  | default branches before after hbefore =>
      exact List.forall_mem_singleton.mpr hform

theorem Scope.ChangesOptions.isColumnReference_eq_false
    {scope : Scope} {old new : Option Members} {lists : List (Json × Json)}
    {clause clause' : Json} (h : scope.ChangesOptions old new lists clause clause') :
    ∀ list ∈ lists, isColumnReference list.2 = false := by
  induction h with
  | here _ =>
      intro list hlist
      exact absurd hlist List.not_mem_nil
  | argument _ _ _ _ ih =>
      exact ih
  | part place _ hclause ih =>
      obtain ⟨-, items', rfl⟩ := hclause.isList
      rw [List.forall_mem_append, List.forall_mem_map]
      exact ⟨ih, place.isColumnReference_around items'⟩

end QueryFormula
