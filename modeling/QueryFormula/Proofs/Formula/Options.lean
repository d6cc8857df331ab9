import QueryFormula.Proofs.Expression.Options
import QueryFormula.Proofs.Formula.Application

/-!
# Options are not shown

What a clause is shown as does not depend on the options of the applications in it,
also where they stand in the conditions, values and defaults of conditionals, unless a
list around them becomes a column by a change.  That takes a query whose columns are told
by such options; those of a described query are not.
-/

namespace QueryFormula

/-- An element with fewer results among others. -/
theorem forall₂_replace
    {α β : Type} {r : α → β → Prop} {xs ys : List α} {x x' : α} {zs : List β}
    (hx : ∀ z, r x z → r x' z) (h : List.Forall₂ r (xs ++ x :: ys) zs) :
    List.Forall₂ r (xs ++ x' :: ys) zs := by
  obtain ⟨us, vs, hus, hvs, rfl⟩ := forall₂_append_left_iff.mp h
  obtain ⟨z, vs, hz, hrest, rfl⟩ := List.forall₂_cons_left_iff.mp hvs
  exact List.rel_append hus (.cons (hx z hz) hrest)

namespace Json

theorem Branched.exists_branches
    {clauses rest parts : List Json} (h : Branched (.arr clauses :: rest) parts) :
    ∃ branches tail, clauses = branchClauses branches ∧ parts = branchParts branches ++ tail ∧
      ∀ branches', Branched (.arr (branchClauses branches') :: rest)
        (branchParts branches' ++ tail) := by
  cases h with
  | plain branches =>
      refine ⟨branches, [], rfl, (List.append_nil _).symm, ?_⟩
      intro branches'
      rw [List.append_nil]
      exact .plain branches'
  | options branches options =>
      exact ⟨branches, defaults options, rfl, rfl, fun branches' => .options branches' options⟩

theorem exists_of_branchClauses_eq
    {branches : List (Json × Json)} {before after : List Json} {condition value : Json}
    (h : before ++ .arr [condition, value] :: after = branchClauses branches) :
    ∃ earlier later, branches = earlier ++ (condition, value) :: later ∧
      before = branchClauses earlier ∧ after = branchClauses later := by
  obtain ⟨earlier, others, rfl, hearlier, hothers⟩ := List.map_eq_append_iff.mp h.symm
  obtain ⟨branch, later, rfl, hbranch, hlater⟩ := List.map_eq_cons_iff.mp hothers
  cases hbranch
  exact ⟨earlier, later, rfl, hearlier.symm, hlater.symm⟩

theorem branchParts_append_cons
    (earlier later : List (Json × Json)) (condition value : Json) :
    branchParts (earlier ++ (condition, value) :: later) =
      branchParts earlier ++ condition :: value :: branchParts later := by
  simp only [branchParts, List.flatMap_append, List.flatMap_cons, List.cons_append,
    List.nil_append]

theorem branchClauses_append_cons
    (earlier later : List (Json × Json)) (condition value : Json) :
    branchClauses (earlier ++ (condition, value) :: later) =
      branchClauses earlier ++ .arr [condition, value] :: branchClauses later := by
  simp only [branchClauses, List.map_append, List.map_cons]

theorem defaults_append_cons
    {before : Members} (h : ∀ member ∈ before, member.1 ≠ "default") (clause : Json)
    (after : Members) :
    defaults (before ++ ("default", clause) :: after) = [clause] := by
  have hnone : before.find? (fun member => member.1 == "default") = none := by
    rw [List.find?_eq_none]
    intro member hmember
    simpa using h member hmember
  rw [defaults, List.find?_append, hnone]
  rfl

end Json

/-- The parts of a well-formed conditional hold the clause at each of its places, and stay
those of a well-formed conditional when it becomes another. -/
theorem Json.PartPlace.exists_branched
    (place : PartPlace) {clause : Json} {parts : List Json}
    (h : Branched (place.parts clause) parts) :
    ∃ before after, parts = before ++ clause :: after ∧
      ∀ clause', Branched (place.parts clause') (before ++ clause' :: after) := by
  cases place with
  | condition before after rest value =>
      obtain ⟨branches, tail, hbranches, rfl, hbranched⟩ := h.exists_branches
      obtain ⟨earlier, later, rfl, rfl, rfl⟩ := exists_of_branchClauses_eq hbranches
      refine ⟨branchParts earlier, value :: branchParts later ++ tail, ?_, ?_⟩
      · rw [branchParts_append_cons, List.append_assoc, List.cons_append]
      · intro clause'
        have hthere := hbranched (earlier ++ (clause', value) :: later)
        rw [branchClauses_append_cons, branchParts_append_cons, List.append_assoc,
          List.cons_append] at hthere
        exact hthere
  | value before after rest condition =>
      obtain ⟨branches, tail, hbranches, rfl, hbranched⟩ := h.exists_branches
      obtain ⟨earlier, later, rfl, rfl, rfl⟩ := exists_of_branchClauses_eq hbranches
      refine ⟨branchParts earlier ++ [condition], branchParts later ++ tail, ?_, ?_⟩
      · simp only [branchParts_append_cons, List.append_assoc, List.cons_append, List.nil_append]
      · intro clause'
        have hthere := hbranched (earlier ++ (condition, clause') :: later)
        simp only [branchClauses_append_cons, branchParts_append_cons, List.append_assoc,
          List.cons_append, List.nil_append] at hthere ⊢
        exact hthere
  | default branches before after hbefore =>
      cases h with
      | options branches options =>
          refine ⟨branchParts branches, [], by rw [defaults_append_cons hbefore], ?_⟩
          intro clause'
          have hthere := Branched.options branches (before ++ ("default", clause') :: after)
          rw [defaults_append_cons hbefore] at hthere
          exact hthere

namespace Editor

variable {editor : Editor} {old new : Option Members}

theorem ofExpression_argument
    {role : Role} {name : String} {xs ys : List Expression} {options : Option Members}
    {x x' : Expression} {f : Formula}
    (hx : ∀ f, editor.ofExpression x = .ok f → editor.ofExpression x' = .ok f)
    (h : editor.ofExpression (.application role name (xs ++ x :: ys) options) = .ok f) :
    editor.ofExpression (.application role name (xs ++ x' :: ys) options) = .ok f := by
  rw [ofExpression_application_eq_ok_iff] at h ⊢
  obtain ⟨harity, fs, hfs, happlied⟩ := h
  refine ⟨?_, fs, forall₂_replace hx hfs, happlied⟩
  rw [← harity]
  simp only [List.length_append, List.length_cons]

theorem ofExpression_part
    (place : Json.PartPlace) {clause clause' : Json} {f : Formula}
    (hclause : ∀ f, editor.formulaOf clause = .ok f → editor.formulaOf clause' = .ok f)
    (h : editor.ofExpression (.conditional (place.parts clause)) = .ok f) :
    editor.ofExpression (.conditional (place.parts clause')) = .ok f := by
  rw [ofExpression_conditional_iff] at h ⊢
  obtain ⟨parts, fs, hbranched, hparts, rfl⟩ := h
  obtain ⟨before, after, rfl, hplaced⟩ := place.exists_branched hbranched
  exact ⟨_, fs, hplaced clause', forall₂_replace hclause hparts, rfl⟩

theorem ofExpression_options
    (role : Role) (name : String) (args : List Expression) (options options' : Option Members) :
    editor.ofExpression (.application role name args options) =
      editor.ofExpression (.application role name args options') := by
  rw [ofExpression_application, ofExpression_application]

/-- The formula of a clause is the formula after a change of options, and back. -/
theorem formulaOf_of_changesOptions
    {lists : List (Json × Json)} {clause clause' : Json}
    (h : editor.scope.ChangesOptions old new lists clause clause')
    (hremoved : new = none → ∀ members, editor.query.isDimension (.obj members) = false)
    (hlists : editor.scope.Overlooks lists) (f : Formula) :
    editor.formulaOf clause = .ok f ↔ editor.formulaOf clause' = .ok f := by
  induction h generalizing f with
  | here h =>
      have h' := Scope.classify_applied_of_classify h hremoved
      rw [formulaOf_of_classify h, formulaOf_of_classify h', ofExpression_options]
  | argument before after h hclause ih =>
      have hargument := ih hlists
      obtain ⟨x, x', hx, hx', -⟩ := hclause.exists_classify hremoved hlists
      obtain ⟨⟨items, rfl⟩, items', rfl⟩ := hclause.isList
      obtain ⟨xs, y, ys, rfl, hy, hreplaced⟩ := Scope.exists_classify_argument h
      obtain rfl : x = y := Option.some.inj (hx.symm.trans hy)
      rw [formulaOf_of_classify h, formulaOf_of_classify (hreplaced items' x' hx')]
      simp only [formulaOf_of_classify hx, formulaOf_of_classify hx'] at hargument
      constructor
      · exact ofExpression_argument fun g => (hargument g).mp
      · exact ofExpression_argument fun g => (hargument g).mpr
  | part place h hclause ih =>
      obtain ⟨hwithin, haround⟩ := Scope.overlooks_append_around_iff.mp hlists
      rw [formulaOf_of_classify h, formulaOf_of_classify (hclause.classify_part place haround h)]
      constructor
      · exact ofExpression_part place fun g => (ih hwithin g).mp
      · exact ofExpression_part place fun g => (ih hwithin g).mpr

/-- A change of the options of one application, somewhere in a clause, changes what the
clause is understood as in that options field only, and does not change what it is shown
as, unless a list of a conditional around the application becomes a column.  Options can
become others or be added whatever else the columns are; that they can be taken away
needs that no object is a column.  In a described query no object and no such list is
one. -/
theorem format_of_changesOptions
    {lists : List (Json × Json)} {clause clause' : Json}
    (h : editor.scope.ChangesOptions old new lists clause clause') :
    ((new = none → ∀ members, editor.query.isDimension (.obj members) = false) →
      editor.scope.Overlooks lists →
        (∃ x x', editor.scope.classify clause = some x ∧ editor.scope.classify clause' = some x' ∧
          editor.scope.DiffersInOptions old new x x') ∧
        ∀ text, editor.format clause = .ok text ↔ editor.format clause' = .ok text) ∧
    ∀ metadata : Metadata, editor.query = metadata.toQuery →
      (∀ members, editor.query.isDimension (.obj members) = false) ∧
        editor.scope.Overlooks lists := by
  constructor
  · intro hremoved hlists
    refine ⟨h.exists_classify hremoved hlists, ?_⟩
    intro text
    simp only [format_eq_ok_iff, formulaOf_of_changesOptions h hremoved hlists]
  · intro metadata hquery
    have hcolumns : editor.query.isDimension = isColumnReference := by
      rw [hquery]
      rfl
    constructor
    · intro members
      rw [hcolumns]
      rfl
    · intro list hlist hcolumn
      have hreference : isColumnReference list.2 = true := by
        rw [← hcolumns]
        exact hcolumn
      rw [h.isColumnReference_eq_false list hlist] at hreference
      contradiction

/-! ## Branches with a count -/

/-- Functions of the standard dialect, and how they are shown. -/
theorem functions_of_standard
    (h : editor.dialect = .standard) :
    (∀ name ∈ ["abs", "case", "count", "max"], editor.scope.role? name = some .function) ∧
      editor.dialect.registry.displayName "case" = "case" ∧
      editor.dialect.registry.displayName "count" = "Count" ∧
      editor.dialect.registry.displayName "max" = "Max" := by
  have hscope : editor.scope.registry = .standard := by
    rw [scope, h]
    rfl
  have hregistry : editor.dialect.registry = .standard := by
    rw [h]
    rfl
  have hroles :
      ∀ name ∈ ["abs", "case", "count", "max"], Registry.standard.isOperator name = false ∧
        Registry.standard.isFunction name = true := by
    decide +kernel
  have hshown :
      Registry.standard.displayName "case" = "case" ∧
        Registry.standard.displayName "count" = "Count" ∧
        Registry.standard.displayName "max" = "Max" := by
    decide +kernel
  rw [hregistry]
  refine ⟨?_, hshown⟩
  intro name hname
  obtain ⟨hoperator, hfunction⟩ := hroles name hname
  rw [Scope.role?, hscope, hoperator, hfunction]
  rfl

/-- The parts of a conditional with one branch: a count, under a condition that holds. -/
def countedParts (options : Option Members) : List Json :=
  [.arr [.arr [.bool true, .applied "count" [] options]]]

theorem classify_count
    (h : editor.dialect = .standard) (options : Option Members) :
    editor.scope.classify (.applied "count" [] options) =
      some (.application .function "count" [] options) := by
  obtain ⟨hroles, -⟩ := functions_of_standard h
  exact Scope.classify_applied_iff.mpr ⟨hroles _ (by decide), .nil, fun _ => rfl⟩

theorem ofExpression_countedParts
    (h : editor.dialect = .standard) (hcolumn : editor.scope.isDimension (.bool true) = false)
    (options : Option Members) :
    editor.ofExpression (.conditional (countedParts options)) =
      .ok (.conditional "case" [.boolean true, .call "Count" []]) := by
  obtain ⟨-, hcaseShown, hcountShown, -⟩ := functions_of_standard h
  have htrue : editor.scope.classify (.bool true) = some (.boolean true) := by
    have hother : editor.scope.classify (.bool true) = editor.scope.classifyOther (.bool true) :=
      rfl
    rw [hother, Scope.classifyOther, hcolumn]
    rfl
  have hcondition : editor.formulaOf (.bool true) = .ok (.boolean true) := by
    rw [formulaOf_of_classify htrue, ofExpression]
  have hvalue : editor.formulaOf (.applied "count" [] options) = .ok (.call "Count" []) := by
    rw [formulaOf_of_classify (classify_count h options), ofExpression, ofExpressions, hcountShown]
    rfl
  rw [ofExpression_conditional_iff, hcaseShown]
  exact ⟨_, _, .plain [(.bool true, .applied "count" [] options)],
    .cons hcondition (.cons hvalue .nil), rfl⟩

/-- The branches of a conditional with one count, unless that has options which are
empty. -/
def countedColumn : Json → Bool
  | .arr [.arr [.bool true, .arr [.str "count"]]] => true
  | .arr [.arr [.bool true, .arr [.str "count", .obj (_ :: _)]]] => true
  | _ => false

/-- An editor of the standard dialect on a query in which such branches are a column. -/
def branchReader : Editor where
  dialect := .standard
  query := ⟨none, [], countedColumn, fun _ => some ⟨"Total", false⟩⟩

/-- Where branches can be a column, other options in a branch, or none, make a conditional
a call.  And a branch is a pair, also when it has the form of an application: with options
added to it the conditional is not well formed. -/
theorem format_options_seen :
    ((∀ members, branchReader.query.isDimension (.obj members) = false) ∧
      branchReader.scope.classify (.applied "count" [] (some [])) =
        some (.application .function "count" [] (some [])) ∧
      branchReader.scope.classify (.arr (.str "case" :: countedParts (some []))) =
        some (.conditional (countedParts (some []))) ∧
      branchReader.format (.arr (.str "case" :: countedParts (some []))) =
        .ok "case(True, Count)" ∧
      ∀ options ∈ [none, some [("distinct", Json.null)]],
        branchReader.scope.classify (.arr (.str "case" :: countedParts options)) =
            some (.application .function "case" ((countedParts options).map .dimension) none) ∧
          branchReader.format (.arr (.str "case" :: countedParts options)) =
            .ok "case([Total])") ∧
    standard.scope.classify (.applied "abs" [.num (.int (.ofInt64 5))] none) =
        some (.application .function "abs" [.number (.int (.ofInt64 5))] none) ∧
      standard.format (.arr [.str "case",
        .arr [.applied "abs" [.num (.int (.ofInt64 5))] none]]) = .ok "case(\"abs\", 5)" ∧
      standard.format (.arr [.str "case",
        .arr [.applied "abs" [.num (.int (.ofInt64 5))] (some [])]]) =
          .error (.malformedConditional
            [.arr [.applied "abs" [.num (.int (.ofInt64 5))] (some [])]]) := by
  have hdialect : branchReader.dialect = .standard := rfl
  obtain ⟨hroles, hcaseShown, -, -⟩ := functions_of_standard hdialect
  have hcase := hroles "case" (by decide)
  have hconditional :
      branchReader.scope.classify (.arr (.str "case" :: countedParts (some []))) =
        some (.conditional (countedParts (some []))) := by
    rw [Scope.classify, hcase]
    rfl
  have hconditionalText :
      branchReader.format (.arr (.str "case" :: countedParts (some []))) =
        .ok "case(True, Count)" := by
    rw [format_of_classify hconditional, ofExpression_countedParts hdialect rfl]
    exact ⟨_, rfl, by rfl⟩
  refine ⟨⟨fun _ => rfl, classify_count hdialect _, hconditional, hconditionalText, ?_⟩, ?_⟩
  · intro options hoptions
    have hcolumn : countedColumn (.arr [.arr [.bool true, .applied "count" [] options]]) = true := by
      simp only [List.mem_cons, List.not_mem_nil, or_false] at hoptions
      rcases hoptions with rfl | rfl <;> rfl
    have hcall : branchReader.scope.classify (.arr (.str "case" :: countedParts options)) =
        some (.application .function "case" ((countedParts options).map .dimension) none) := by
      rw [Scope.classify_eq_application_iff]
      refine ⟨_, rfl, hcase, ?_⟩
      rw [Scope.classifyArgs_eq_some_iff]
      refine ⟨.cons ?_ .nil, rfl⟩
      rw [Scope.classify_of_not_named fun name rest => by simp]
      exact if_pos hcolumn
    refine ⟨hcall, ?_⟩
    rw [format_of_classify hcall, ofExpression, countedParts, List.map_cons, List.map_nil,
      ofExpressions, ofExpressions, ofExpression, hcaseShown]
    exact ⟨_, rfl, by rfl⟩
  · have hnumber : ∀ n, standard.scope.classify (.num n) = some (.number n) := by
      intro n
      rw [Scope.classify]
    have hpair : ∀ options,
        standard.scope.classify (.arr [.str "case",
          .arr [.applied "abs" [.num (.int (.ofInt64 5))] options]]) =
            some (.conditional [.arr [.applied "abs" [.num (.int (.ofInt64 5))] options]]) := by
      intro options
      have hcase' : standard.scope.role? "case" = some .function := hcase
      rw [Scope.classify, hcase']
      rfl
    have hfive : standard.format (.num (.int (.ofInt64 5))) = .ok "5" := by
      rw [format_of_classify (hnumber _), ofExpression]
      exact ⟨_, rfl, by rfl⟩
    refine ⟨?_, ?_, ?_⟩
    · rw [Scope.classify_applied_iff]
      exact ⟨hroles "abs" (by decide), .cons (hnumber _) .nil, fun _ => rfl⟩
    · rw [format_eq_ok_iff_showsConditional (hpair _)]
      exact ⟨_, _, .plain [(.str "abs", .num (.int (.ofInt64 5)))],
        .cons (format_text "abs") (.cons hfive .nil), by decide⟩
    · rw [format, formulaOf_of_classify (hpair _), ofExpression, Json.applied, ofBranches]
      · rfl
      · intro condition value hbranch
        simp at hbranch

/-- Options taken away from an application that is the value of a branch, in a conditional
that is itself an argument. -/
theorem format_of_changesOptions_branch :
    let clause (options : Option Members) : Json :=
      .arr [.str "max", .arr (.str "case" :: countedParts options), .bool false]
    (∃ lists, standard.scope.ChangesOptions (some [("distinct", .null)]) none lists
        (clause (some [("distinct", .null)])) (clause none) ∧ standard.scope.Overlooks lists) ∧
      (∀ members, standard.query.isDimension (.obj members) = false) ∧
      standard.format (clause (some [("distinct", .null)])) =
        .ok "Max(case(True, Count), False)" ∧
      standard.format (clause none) = .ok "Max(case(True, Count), False)" := by
  intro clause
  have hdialect : standard.dialect = .standard := rfl
  obtain ⟨hroles, -, -, hmaxShown⟩ := functions_of_standard hdialect
  have hconditional : ∀ options,
      standard.scope.classify (.arr (.str "case" :: countedParts options)) =
        some (.conditional (countedParts options)) := by
    intro options
    rw [Scope.classify, hroles "case" (by decide)]
    rfl
  have hclause : ∀ options, standard.scope.classify (clause options) =
      some (.application .function "max" [.conditional (countedParts options), .boolean false]
        none) := by
    intro options
    rw [Scope.classify_eq_application_iff]
    refine ⟨_, rfl, hroles "max" (by decide), ?_⟩
    rw [Scope.classifyArgs_eq_some_iff]
    exact ⟨.cons (hconditional options) (.cons rfl .nil), rfl⟩
  have hhere : standard.scope.ChangesOptions (some [("distinct", .null)]) none []
      (.applied "count" [] (some [("distinct", .null)])) (.applied "count" [] none) :=
    .here (classify_count hdialect _)
  have hpart := hhere.part (.value [] [] [] (.bool true)) (hconditional _)
  have hchanges : standard.scope.ChangesOptions (some [("distinct", .null)]) none _
      (clause (some [("distinct", .null)])) (clause none) :=
    .argument [] [.bool false] (hclause _) hpart
  have hformat : standard.format (clause none) = .ok "Max(case(True, Count), False)" := by
    rw [format_of_classify (hclause none), ofExpression, ofExpressions, ofExpressions,
      ofExpressions, ofExpression_countedParts hdialect rfl, ofExpression, hmaxShown]
    exact ⟨_, rfl, by rfl⟩
  obtain ⟨hinert, hdescribed⟩ := format_of_changesOptions hchanges
  obtain ⟨hobject, hlists⟩ := hdescribed Metadata.empty rfl
  obtain ⟨-, hsame⟩ := hinert (fun _ => hobject) hlists
  exact ⟨⟨_, hchanges, hlists⟩, hobject, (hsame _).mpr hformat, hformat⟩

end Editor
end QueryFormula
