import QueryFormula.Proofs.Formula.Application

/-!
# The first defect

A clause is shown unless something in it has a defect: a clause that is no expression,
an operator with a number of operands that it cannot be written with, a reference to
something unknown, a conditional that is not well formed.  Each of these can be told
of one node by itself.  Nodes come before their children and children from left to
right, and the error that is reported is the defect that comes first.
-/

namespace QueryFormula

/-- What is checked by itself when a clause is shown. -/
inductive Node where
  | clause (value : Json)
  | expression (x : Expression)
  /-- A branch of the conditional with the given parts. -/
  | branch (parts : List Json) (value : Json)

namespace Json

/-- The branches and the options of a conditional, if its parts are a list and
perhaps an object after it. -/
def outline? : List Json → Option (List Json × Members)
  | [.arr branches] => some (branches, [])
  | [.arr branches, .obj options] => some (branches, options)
  | _ => none

/-- The condition and the value of a branch, if it is a list of two. -/
def pair? : Json → Option (Json × Json)
  | .arr [condition, value] => some (condition, value)
  | _ => none

end Json

/-- The first element without a property is found in one way only. -/
theorem eq_of_append_cons_eq_append_cons
    {α : Type} {p : α → Prop} {xs ys xs' ys' : List α} {x x' : α}
    (h : xs ++ x :: ys = xs' ++ x' :: ys') (hxs : ∀ a ∈ xs, p a) (hxs' : ∀ a ∈ xs', p a)
    (hx : ¬ p x) (hx' : ¬ p x') : x = x' := by
  induction xs generalizing xs' with
  | nil =>
      cases xs' with
      | nil =>
          exact (List.cons.inj h).1
      | cons a rest =>
          rw [(List.cons.inj h).1] at hx
          exact absurd (hxs' a List.mem_cons_self) hx
  | cons a rest ih =>
      rw [List.forall_mem_cons] at hxs
      cases xs' with
      | nil =>
          rw [← (List.cons.inj h).1] at hx'
          exact absurd hxs.1 hx'
      | cons a' rest' =>
          rw [List.forall_mem_cons] at hxs'
          exact ih (List.cons.inj h).2 hxs.2 hxs'.2

theorem Json.defaults_cons_of_ne
    {key : String} {value : Json} {rest : Members} (h : key ≠ "default") :
    Json.defaults ((key, value) :: rest) = Json.defaults rest := by
  rw [Json.defaults, List.find?_cons_of_neg, Json.defaults]
  simpa using h

namespace Editor

/-- The defect of a reference to a metric or a segment: there must be a table in which it
is known. -/
def missing? (editor : Editor) {α : Type} (found : Table → Option α) (unknown : FormatError) :
    Option FormatError :=
  match editor.query.table with
  | some table => if (found table).isSome then none else some unknown
  | none => some (.query .missingTable)

/-- The defect of a node that can be told without looking into its children. -/
def defect? (editor : Editor) : Node → Option FormatError
  | .clause clause =>
    if (editor.scope.classify clause).isSome then none else some (.notAnExpression clause)
  | .expression (.application role name args _) => FormatError.ofArity? role name args.length
  | .expression (.dimension reference) =>
    if (editor.query.dimensionFor reference).isSome then none
    else some (.unknownDimension reference)
  | .expression (.metric id) =>
    editor.missing? (·.metrics.find? fun metric => id.toInt64? == some metric.id)
      (.unknownMetric id)
  | .expression (.segment id) =>
    editor.missing? (·.segments.find? fun segment => id.toInt64? == some segment.id)
      (.unknownSegment id)
  | .expression (.conditional parts) =>
    if (Json.outline? parts).isSome then none else some (.malformedConditional parts)
  | .expression (.text _) => none
  | .expression (.number _) => none
  | .expression (.boolean _) => none
  | .branch parts branch =>
    if (Json.pair? branch).isSome then none else some (.malformedConditional parts)

/-- The children of a node, in the order in which they are looked at. -/
def children (editor : Editor) : Node → List Node
  | .clause clause => (editor.scope.classify clause).toList.map .expression
  | .expression (.application _ _ args _) => args.map .expression
  | .expression (.conditional parts) =>
    match Json.outline? parts with
    | some (branches, options) =>
      branches.map (.branch parts) ++ (Json.defaults options).map .clause
    | none => []
  | .expression _ => []
  | .branch _ branch =>
    match Json.pair? branch with
    | some (condition, value) => [.clause condition, .clause value]
    | none => []

/-- Neither a node nor anything in it has a defect. -/
inductive Sound (editor : Editor) : Node → Prop
  | intro {node : Node} (hdefect : editor.defect? node = none)
      (hchildren : ∀ child ∈ editor.children node, Sound editor child) : Sound editor node

/-- The first defect of a node: its own, or else the first defect of a child before
which all children are sound. -/
inductive FirstDefect (editor : Editor) : Node → FormatError → Prop
  | own {node : Node} {e : FormatError} (h : editor.defect? node = some e) :
      FirstDefect editor node e
  | child {node child : Node} {before after : List Node} {e : FormatError}
      (hdefect : editor.defect? node = none)
      (hchildren : editor.children node = before ++ child :: after)
      (hbefore : ∀ sibling ∈ before, editor.Sound sibling)
      (hchild : FirstDefect editor child e) : FirstDefect editor node e

variable {editor : Editor} {node : Node} {e e' : FormatError}

/-! ## A node is sound or has one first defect -/

theorem Sound.not_firstDefect
    (h : editor.Sound node) : ¬ editor.FirstDefect node e := by
  induction h with
  | intro hdefect hchildren ih =>
      intro hfirst
      cases hfirst with
      | own hown =>
          rw [hdefect] at hown
          contradiction
      | child _ hsplit _ hchild =>
          refine ih _ ?_ hchild
          rw [hsplit]
          exact List.mem_append_right _ List.mem_cons_self

theorem FirstDefect.unique
    (h : editor.FirstDefect node e) (h' : editor.FirstDefect node e') : e = e' := by
  induction h with
  | own hown =>
      cases h' with
      | own hown' =>
          rw [hown] at hown'
          exact Option.some.inj hown'
      | child hdefect' =>
          rw [hown] at hdefect'
          contradiction
  | child hdefect hsplit hbefore hchild ih =>
      cases h' with
      | own hown' =>
          rw [hdefect] at hown'
          contradiction
      | child _ hsplit' hbefore' hchild' =>
          apply ih
          rw [hsplit] at hsplit'
          have hsame := eq_of_append_cons_eq_append_cons hsplit' hbefore hbefore'
            (fun h => h.not_firstDefect hchild) (fun h => h.not_firstDefect hchild')
          rw [hsame]
          exact hchild'

/-! ## What a search for a formula settles -/

/-- A node is sound if there is a result, and has the error as its first defect if not. -/
def Settles (editor : Editor) (node : Node) {α : Type} : Except FormatError α → Prop
  | .ok _ => editor.Sound node
  | .error e => editor.FirstDefect node e

/-- Nodes are all sound if there is a result, and the first that is not has the error as its
first defect if there is none. -/
def SettlesAll (editor : Editor) (nodes : List Node) {α : Type} : Except FormatError α → Prop
  | .ok _ => ∀ node ∈ nodes, editor.Sound node
  | .error e => ∃ before node after, nodes = before ++ node :: after ∧
      (∀ sibling ∈ before, editor.Sound sibling) ∧ editor.FirstDefect node e

section

variable {α β : Type} {nodes : List Node} {result : Except FormatError α}

theorem settles_of_children
    (hdefect : editor.defect? node = none)
    (h : editor.SettlesAll (editor.children node) result) : editor.Settles node result := by
  cases result with
  | ok a =>
      exact .intro hdefect h
  | error e =>
      obtain ⟨before, child, after, hsplit, hbefore, hchild⟩ := h
      exact .child hdefect hsplit hbefore hchild

theorem settlesAll_nil {a : α} : editor.SettlesAll [] (.ok a) :=
  List.forall_mem_nil _

theorem settlesAll_of_firstDefect
    (others : List Node) (h : editor.FirstDefect node e) :
    editor.SettlesAll (node :: others) (.error e : Except FormatError α) :=
  ⟨[], node, others, rfl, List.forall_mem_nil _, h⟩

theorem Settles.singleton
    (h : editor.Settles node result) : editor.SettlesAll [node] result := by
  cases result with
  | ok a =>
      rintro _ (_ | ⟨_, ⟨⟩⟩)
      exact h
  | error e =>
      exact settlesAll_of_firstDefect [] h

theorem SettlesAll.map
    (f : α → β) (h : editor.SettlesAll nodes result) :
    editor.SettlesAll nodes (result.map f) := by
  cases result <;> exact h

/-- Nodes are looked at only when those before them are sound. -/
theorem SettlesAll.bind
    {others : List Node} {next : α → Except FormatError β}
    (h : editor.SettlesAll nodes result)
    (hnext : ∀ a, editor.SettlesAll others (next a)) :
    editor.SettlesAll (nodes ++ others) (result >>= next) := by
  cases result with
  | error e =>
      obtain ⟨before, node, after, rfl, hbefore, hnode⟩ := h
      refine ⟨before, node, after ++ others, ?_, hbefore, hnode⟩
      rw [List.append_assoc, List.cons_append]
  | ok a =>
      have hothers := hnext a
      show editor.SettlesAll (nodes ++ others) (next a)
      cases hresult : next a with
      | ok b =>
          rw [hresult] at hothers
          intro node hnode
          rcases List.mem_append.mp hnode with hnode | hnode
          · exact h node hnode
          · exact hothers node hnode
      | error e =>
          rw [hresult] at hothers
          obtain ⟨before, node, after, rfl, hbefore, hnode⟩ := hothers
          refine ⟨nodes ++ before, node, after, by rw [List.append_assoc], ?_, hnode⟩
          intro sibling hsibling
          rcases List.mem_append.mp hsibling with hsibling | hsibling
          · exact h sibling hsibling
          · exact hbefore sibling hsibling

theorem SettlesAll.last
    (f : α → β) (h : editor.SettlesAll nodes result) :
    editor.SettlesAll nodes (result >>= fun a => pure (f a)) := by
  cases result <;> exact h

theorem Settles.cons
    {others : List Node} {next : α → Except FormatError β}
    (h : editor.Settles node result) (hnext : ∀ a, editor.SettlesAll others (next a)) :
    editor.SettlesAll (node :: others) (result >>= next) :=
  h.singleton.bind hnext

theorem Settles.map
    (f : α → β) (h : editor.Settles node result) : editor.Settles node (result.map f) := by
  cases result <;> exact h

theorem Settles.ok_iff
    (h : editor.Settles node result) : (∃ a, result = .ok a) ↔ editor.Sound node := by
  cases result with
  | ok a =>
      exact ⟨fun _ => h, fun _ => ⟨a, rfl⟩⟩
  | error e =>
      constructor
      · rintro ⟨a, ha⟩
        contradiction
      · intro hsound
        exact absurd h hsound.not_firstDefect

theorem Settles.error_iff
    (h : editor.Settles node result) (e : FormatError) :
    result = .error e ↔ editor.FirstDefect node e := by
  cases result with
  | ok a =>
      constructor
      · intro he
        contradiction
      · intro hfirst
        exact absurd hfirst (Sound.not_firstDefect h)
  | error e' =>
      constructor
      · intro he
        rw [← Except.error.inj he]
        exact h
      · intro hfirst
        rw [FirstDefect.unique h hfirst]

theorem Settles.of_leaf
    {a : α} (hdefect : editor.defect? node = none) (hchildren : editor.children node = []) :
    editor.Settles node (.ok a) :=
  settles_of_children hdefect (hchildren ▸ settlesAll_nil)

end

/-! ## Nodes of each kind -/

theorem settles_dimension (reference : Json) :
    editor.Settles (.expression (.dimension reference)) (editor.dimensionFormula reference) := by
  unfold dimensionFormula
  cases hdimension : editor.query.dimensionFor reference with
  | none =>
      exact FirstDefect.own (by rw [defect?, hdimension]; rfl)
  | some dimension =>
      exact .of_leaf (by rw [defect?, hdimension]; rfl) rfl

/-- A reference to what must be found in the source table. -/
theorem settles_found
    {α : Type} {found : Table → Option α} {unknown : FormatError} (name : α → String)
    (hdefect : editor.defect? node = editor.missing? found unknown)
    (hchildren : editor.children node = []) :
    editor.Settles node (editor.foundFormula found name unknown) := by
  unfold foundFormula
  cases htable : editor.query.table with
  | none =>
      apply FirstDefect.own
      rw [hdefect, missing?, htable]
  | some table =>
      cases hfound : found table with
      | none =>
          simp only [hfound]
          apply FirstDefect.own
          simp [hdefect, missing?, htable, hfound]
      | some entry =>
          simp only [hfound]
          apply Settles.of_leaf _ hchildren
          simp [hdefect, missing?, htable, hfound]

/-- A branch that is a list of two, before other parts. -/
theorem settles_branch
    {α : Type} {condition value : Json} {first second : Except FormatError α}
    (parts : List Json) (hfirst : editor.Settles (.clause condition) first)
    (hsecond : editor.Settles (.clause value) second) :
    editor.Settles (.branch parts (.arr [condition, value])) (do
      let a ← first
      let b ← second
      return (a, b)) :=
  settles_of_children rfl (hfirst.cons fun a => hsecond.singleton.last (Prod.mk a))

/-- The search for the formula of an application, by its arguments. -/
theorem settles_application
    {role : Role} {name : String} {args : List Expression} (options : Option Members)
    (h : FormatError.ofArity? role name args.length = none →
      editor.SettlesAll (args.map .expression) (editor.ofExpressions args)) :
    editor.Settles (.expression (.application role name args options))
      (editor.ofExpression (.application role name args options)) := by
  rw [ofExpression_application]
  cases harity : FormatError.ofArity? role name args.length with
  | some e =>
      exact FirstDefect.own harity
  | none =>
      exact settles_of_children harity ((h harity).map _)

theorem formulaOf_of_not_classify
    {clause : Json} (h : editor.scope.classify clause = none) :
    editor.formulaOf clause = .error (.notAnExpression clause) := by
  rw [formulaOf]
  split
  · rfl
  · next hsome =>
    rw [h] at hsome
    contradiction

/-- The search settles every node that it looks at, by induction on the search. -/
theorem settles_formulas (editor : Editor) :
    (∀ clause, editor.Settles (.clause clause) (editor.formulaOf clause)) ∧
    (∀ x, editor.Settles (.expression x) (editor.ofExpression x)) ∧
    (∀ options, editor.SettlesAll ((Json.defaults options).map .clause)
      (editor.ofDefault options)) ∧
    (∀ parts branches, editor.SettlesAll (branches.map (.branch parts))
      (editor.ofBranches parts branches)) ∧
    (∀ xs, editor.SettlesAll (xs.map .expression) (editor.ofExpressions xs)) := by
  apply formulaOf.mutual_induct editor
  case case1 => -- a clause that is no expression
    intro clause hclassify
    rw [formulaOf_of_not_classify hclassify]
    exact FirstDefect.own (by rw [defect?, hclassify]; rfl)
  case case2 => -- a clause that is an expression
    intro clause x hclassify ih
    rw [formulaOf_of_classify hclassify]
    refine settles_of_children (by rw [defect?, hclassify]; rfl) ?_
    rw [children, hclassify]
    exact ih.singleton
  case case3 => -- literals
    intro s
    rw [ofExpression]
    exact .of_leaf rfl rfl
  case case4 =>
    intro n
    rw [ofExpression]
    exact .of_leaf rfl rfl
  case case5 =>
    intro b
    rw [ofExpression]
    exact .of_leaf rfl rfl
  case case6 => -- references
    intro reference
    rw [ofExpression]
    exact settles_dimension reference
  case case7 =>
    intro id
    rw [ofExpression]
    exact settles_found Metric.name rfl rfl
  case case8 =>
    intro id
    rw [ofExpression]
    exact settles_found Segment.name rfl rfl
  case case9 => -- functions
    intro name args options ih
    exact settles_application options fun _ => ih
  case case10 => -- operators that formulas do not write
    intro name options args _ ih
    exact settles_application options fun _ => ih
  case case11 => -- an operator without operands
    intro name options op hname
    apply settles_application
    intro harity
    have htakes := FormatError.ofArity?_eq_none_iff.mp harity rfl op hname
    rw [List.length_nil, Operator.takes_zero] at htakes
    contradiction
  case case12 => -- an operator before its operand
    intro name options op operand _ sign _ ih
    apply settles_application
    intro _
    rw [ofExpressions, ofExpressions]
    exact ih.singleton.last _
  case case13 =>
    intro name options op operand hname hsign
    apply settles_application
    intro harity
    have htakes := FormatError.ofArity?_eq_none_iff.mp harity rfl op hname
    rw [List.length_singleton, Operator.takes_one hname, hsign] at htakes
    contradiction
  case case14 =>
    intro name options args hnil hsingle hname
    apply settles_application
    intro harity
    have htakes := FormatError.ofArity?_eq_none_iff.mp harity rfl .not hname
    rcases args with - | ⟨first, - | ⟨second, others⟩⟩
    · exact absurd rfl hnil
    · exact absurd rfl (hsingle first)
    · rw [List.length_cons, List.length_cons, Operator.takes_not] at htakes
      contradiction
  case case15 => -- an operator between its operands
    intro name options op first others _ _ ihFirst ihOthers
    apply settles_application
    intro _
    rw [ofExpressions]
    exact ihFirst.cons fun f => ihOthers.last _
  case case16 => -- a conditional without options
    intro branches ih
    rw [ofExpression]
    refine settles_of_children rfl ?_
    have hchildren : editor.children (.expression (.conditional [.arr branches])) =
        branches.map (.branch [.arr branches]) := List.append_nil _
    rw [hchildren]
    exact ih.map _
  case case17 => -- a conditional with options
    intro branches options ih ihDefault
    rw [ofExpression]
    refine settles_of_children rfl ?_
    exact ih.bind fun fs => ihDefault.last _
  case case18 =>
    intro parts hshort hlong
    have houtline : Json.outline? parts = none :=
      Json.outline?.eq_3 parts hshort hlong
    rw [ofExpression]
    · exact FirstDefect.own (by rw [defect?, houtline]; rfl)
    · exact hshort
    · exact hlong
  case case19 => -- options
    rw [ofDefault]
    exact settlesAll_nil
  case case20 =>
    intro value rest ih
    rw [ofDefault, if_pos rfl]
    exact ih.singleton.map _
  case case21 =>
    intro key value rest hkey ih
    rw [ofDefault, if_neg hkey, Json.defaults_cons_of_ne hkey]
    exact ih
  case case22 => -- branches
    intro parts
    rw [ofBranches]
    exact settlesAll_nil
  case case23 =>
    intro parts condition value rest ihCondition ihValue ihRest
    have hresult : editor.ofBranches parts (.arr [condition, value] :: rest) =
        (do
          let a ← editor.formulaOf condition
          let b ← editor.formulaOf value
          return (a, b)) >>= fun pair => do
            let others ← editor.ofBranches parts rest
            return pair.1 :: pair.2 :: others := by
      rw [ofBranches]
      simp only [bind_assoc, pure_bind]
    rw [hresult]
    exact (settles_branch parts ihCondition ihValue).cons fun pair => ihRest.last _
  case case24 =>
    intro parts clause rest hclause
    have hdefect : editor.defect? (.branch parts clause) =
        some (.malformedConditional parts) := by
      rw [defect?, Json.pair?.eq_2 clause hclause]
      rfl
    rw [ofBranches]
    · exact settlesAll_of_firstDefect _ (.own hdefect)
    · exact hclause
  case case25 => -- arguments
    rw [ofExpressions]
    exact settlesAll_nil
  case case26 =>
    intro x rest ih ihRest
    rw [ofExpressions]
    exact ih.cons fun f => ihRest.last _

/-- A clause is shown exactly when neither it nor anything in it has a defect, and if not
the error is its first defect. -/
theorem format_outcome (editor : Editor) (clause : Json) :
    ((∃ text, editor.format clause = .ok text) ↔ editor.Sound (.clause clause)) ∧
      ∀ e, editor.format clause = .error e ↔ editor.FirstDefect (.clause clause) e := by
  have hsettles : editor.Settles (.clause clause) (editor.format clause) :=
    ((settles_formulas editor).1 clause).map editor.dialect.print
  exact ⟨hsettles.ok_iff, hsettles.error_iff⟩

end Editor
end QueryFormula
