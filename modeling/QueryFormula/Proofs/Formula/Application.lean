import QueryFormula.Proofs.Formula.Conditional

/-!
# How applications are shown

An operator that formulas write is shown with the operands that it can take: before
a single one, or between several.  Any other name is shown as a call.  What an
application is shown as is put together from the formulas of its arguments; its
options have no part in it.
-/

namespace QueryFormula

/-- Whether an operator can be written with a number of operands. -/
def Operator.takes : Operator → Nat → Bool
  | .not, arity => arity == 1
  | .binary .plus, arity => 1 ≤ arity
  | .binary .minus, arity => 1 ≤ arity
  | .binary _, arity => 2 ≤ arity

/-- The defect of an application by the number of its arguments, if it has one. -/
def FormatError.ofArity? (role : Role) (name : String) (arity : Nat) : Option FormatError :=
  match role, Operator.ofName? name with
  | .operator, some op => if op.takes arity then none else some (.operatorArity op arity)
  | _, _ => none

namespace Dialect

/-- A name applied to formulas. -/
def applied (dialect : Dialect) (role : Role) (name : String) (args : List Formula) : Formula :=
  match role, args, UnaryOperator.ofName? name, BinaryOperator.ofName? name with
  | .operator, [operand], some op, _ => .unary op operand
  | .operator, first :: second :: others, _, some op => .chain op first (second :: others)
  | _, args, _, _ => .call (dialect.registry.displayName name) args

end Dialect

/-! ## Operators by their names -/

theorem BinaryOperator.eq_name_of_ofName?
    {name : String} {op : BinaryOperator} (h : BinaryOperator.ofName? name = some op) :
    name = op.name := by
  unfold BinaryOperator.ofName? at h
  split at h
  case h_13 =>
    contradiction
  all_goals
    cases h
    rfl

theorem Operator.eq_name_of_ofName?
    {name : String} {op : Operator} (h : Operator.ofName? name = some op) :
    name = op.name := by
  rw [Operator.ofName?] at h
  split at h
  · next hname =>
    cases h
    exact hname
  · obtain ⟨binary, hbinary, rfl⟩ := Option.map_eq_some_iff.mp h
    exact BinaryOperator.eq_name_of_ofName? hbinary

/-- The operators that take a single operand are those that are written before it. -/
theorem Operator.takes_one
    {name : String} {op : Operator} (h : Operator.ofName? name = some op) :
    op.takes 1 = (UnaryOperator.ofName? name).isSome := by
  rw [Operator.eq_name_of_ofName? h]
  cases op with
  | not =>
      rfl
  | binary op =>
      cases op <;> rfl

theorem Operator.takes_zero (op : Operator) :
    op.takes 0 = false := by
  cases op with
  | not =>
      rfl
  | binary op =>
      cases op <;> rfl

theorem Operator.takes_binary (op : BinaryOperator) (arity : Nat) :
    Operator.takes (.binary op) (arity + 2) = true := by
  cases op <;> simp [Operator.takes]

theorem Operator.takes_not (arity : Nat) :
    Operator.takes .not (arity + 2) = false := by
  rw [Operator.takes, beq_eq_false_iff_ne]
  omega

theorem Operator.ofName?_eq_none
    {name : String} (h : Operator.ofName? name = none) :
    UnaryOperator.ofName? name = none ∧ BinaryOperator.ofName? name = none := by
  constructor
  · rw [Option.eq_none_iff_forall_ne_some]
    intro sign hsign
    obtain ⟨op, hop⟩ := Editor.ofName?_of_unary hsign
    rw [h] at hop
    contradiction
  · rw [Option.eq_none_iff_forall_ne_some]
    intro op hop
    rw [Editor.ofName?_eq_some_binary_iff.mpr hop] at h
    contradiction

theorem FormatError.ofArity?_eq_none_iff
    {role : Role} {name : String} {arity : Nat} :
    FormatError.ofArity? role name arity = none ↔
      (role = .operator → ∀ op, Operator.ofName? name = some op → op.takes arity = true) := by
  unfold FormatError.ofArity?
  cases role with
  | function =>
      simp
  | operator =>
      cases Operator.ofName? name <;> simp

namespace Dialect

variable {dialect : Dialect} {name : String}

theorem applied_of_unary
    {op : UnaryOperator} (h : UnaryOperator.ofName? name = some op) (operand : Formula) :
    dialect.applied .operator name [operand] = .unary op operand := by
  simp only [applied, h]

theorem applied_of_binary
    {op : BinaryOperator} (h : BinaryOperator.ofName? name = some op)
    (first second : Formula) (others : List Formula) :
    dialect.applied .operator name (first :: second :: others) =
      .chain op first (second :: others) := by
  simp only [applied, h]

theorem applied_of_unknown
    (h : Operator.ofName? name = none) (args : List Formula) :
    dialect.applied .operator name args = .call (dialect.registry.displayName name) args := by
  obtain ⟨hunary, hbinary⟩ := Operator.ofName?_eq_none h
  simp only [applied, hunary, hbinary]

end Dialect

namespace Editor

variable {editor : Editor}

/-- An operator with a number of operands that it does not take has no formula,
whatever its operands are. -/
theorem ofExpression_operator_of_not_takes
    {name : String} {op : Operator} {args : List Expression} {options : Option Members}
    (hname : Operator.ofName? name = some op) (h : op.takes args.length = false) :
    editor.ofExpression (.application .operator name args options) =
      .error (.operatorArity op args.length) := by
  match op, args with
  | op, [] =>
      simp only [ofExpression.eq_def, hname]
      rfl
  | op, [operand] =>
      have hunary : UnaryOperator.ofName? name = none := by
        rw [← Option.not_isSome_iff_eq_none, ← Operator.takes_one hname]
        exact Bool.eq_false_iff.mp h
      simp only [ofExpression.eq_def, hname, hunary]
      rfl
  | .not, first :: second :: others =>
      simp only [ofExpression.eq_def, hname]
  | .binary op, first :: second :: others =>
      rw [List.length_cons, List.length_cons, Operator.takes_binary] at h
      contradiction

theorem ofExpression_operator_of_takes
    {name : String} {op : Operator} {args : List Expression} {options : Option Members}
    (hname : Operator.ofName? name = some op) (h : op.takes args.length = true) :
    editor.ofExpression (.application .operator name args options) =
      (editor.ofExpressions args).map (editor.dialect.applied .operator name) := by
  match op, args with
  | op, [] =>
      rw [List.length_nil, Operator.takes_zero] at h
      contradiction
  | op, [operand] =>
      rw [List.length_singleton, Operator.takes_one hname] at h
      obtain ⟨sign, hsign⟩ := Option.isSome_iff_exists.mp h
      rw [ofExpression_of_unary hsign, ofExpressions, ofExpressions]
      cases editor.ofExpression operand with
      | error e =>
          rfl
      | ok f =>
          exact congrArg Except.ok (Dialect.applied_of_unary hsign f).symm
  | .not, first :: second :: others =>
      rw [List.length_cons, List.length_cons, Operator.takes_not] at h
      contradiction
  | .binary op, first :: second :: others =>
      have hbinary := ofName?_eq_some_binary_iff.mp hname
      rw [ofExpression_of_binary hbinary, ofExpressions.eq_2 editor first]
      cases editor.ofExpression first with
      | error e =>
          rfl
      | ok f =>
          cases hfs : editor.ofExpressions (second :: others) with
          | error e =>
              rfl
          | ok fs =>
              have hforall := ofExpressions_eq_ok_iff.mp hfs
              obtain ⟨f', fs', -, -, rfl⟩ := List.forall₂_cons_left_iff.mp hforall
              exact congrArg Except.ok (Dialect.applied_of_binary hbinary f f' fs').symm

/-- An application is shown by its name and the formulas of its arguments, unless it
is an operator with a number of arguments that it does not take. -/
theorem ofExpression_application
    (role : Role) (name : String) (args : List Expression) (options : Option Members) :
    editor.ofExpression (.application role name args options) =
      match FormatError.ofArity? role name args.length with
      | some e => .error e
      | none => (editor.ofExpressions args).map (editor.dialect.applied role name) := by
  cases role with
  | function =>
      rw [ofExpression]
      rfl
  | operator =>
      cases hname : Operator.ofName? name with
      | none =>
          have happlied : editor.dialect.applied .operator name =
              .call (editor.dialect.registry.displayName name) :=
            funext fun fs => Dialect.applied_of_unknown hname fs
          rw [ofExpression_of_unknown hname, happlied]
          simp only [FormatError.ofArity?, hname]
      | some op =>
          simp only [FormatError.ofArity?, hname]
          cases h : op.takes args.length with
          | false =>
              exact ofExpression_operator_of_not_takes hname h
          | true =>
              exact ofExpression_operator_of_takes hname h

/-- An application has a formula when it has no defect by the number of its arguments,
and its arguments have formulas. -/
theorem ofExpression_application_eq_ok_iff
    {role : Role} {name : String} {args : List Expression} {options : Option Members}
    {f : Formula} :
    editor.ofExpression (.application role name args options) = .ok f ↔
      FormatError.ofArity? role name args.length = none ∧
        ∃ fs, List.Forall₂ (fun x f => editor.ofExpression x = .ok f) args fs ∧
          editor.dialect.applied role name fs = f := by
  rw [ofExpression_application]
  cases FormatError.ofArity? role name args.length with
  | some e =>
      simp
  | none =>
      simp only [map_eq_ok_iff, ofExpressions_eq_ok_iff, true_and]

end Editor
end QueryFormula
