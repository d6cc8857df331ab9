import Mathlib.Data.List.Chain
import QueryFormula.Formula.Layout

/-!
# Neighbouring pieces

Whether all neighbours in a layout fit together comes down to the operands that
stand right after an operator without parentheses: everywhere else an operand
meets a parenthesis, a comma or an operator that follows it.
-/

namespace QueryFormula

namespace Piece

/-- Whether an operand can end with the piece. -/
def endsOperand : Piece → Bool
  | .between _ | .before _ | .leftParen | .comma => false
  | _ => true

/-- Whether the piece goes on after an operand, other than by calling it. -/
def followsOperand : Piece → Bool
  | .between _ | .rightParen | .comma => true
  | _ => false

/-- A relation between neighbours that no parenthesis, comma or operator after
an operand can break. -/
structure Admits (R : Piece → Piece → Prop) : Prop where
  opening : ∀ q, R .leftParen q
  comma : ∀ q, R .comma q
  negative : ∀ ds, R (.before .minus) (.digits ds)
  call : ∀ head, R (.head head) .leftParen
  between : ∀ op, R (.between op) .leftParen
  before : ∀ op, R (.before op) .leftParen
  operand : ∀ p q, p.endsOperand = true → q.followsOperand = true → R p q

end Piece

namespace Formula

mutual

/-- The formula and all formulas in it. -/
def subformulas : Formula → List Formula
  | .text s => [.text s]
  | .number n => [.number n]
  | .boolean b => [.boolean b]
  | .name s => [.name s]
  | .call head args => .call head args :: subformulasOf args
  | .conditional head parts => .conditional head parts :: subformulasOf parts
  | .unary op operand => .unary op operand :: subformulas operand
  | .binary op left right => .binary op left right :: (subformulas left ++ subformulas right)

/-- All formulas in several formulas. -/
def subformulasOf : List Formula → List Formula
  | [] => []
  | x :: rest => subformulas x ++ subformulasOf rest

end

/-- The operand that stands right after the outermost operator fits to it. -/
def Fits (R : Piece → Piece → Prop) : Formula → Prop
  | .unary op operand =>
    operand.needsParensAfter = false → ∀ q ∈ operand.layout.head?, R (.before op) q
  | .binary op _ right =>
    right.needsParensRight op.strength = false →
      ∀ q ∈ right.layout.head?, R (.between op) q
  | _ => True

end Formula

/-! ## Ends of layouts -/

theorem enclose_ne_nil
    {needed : Bool} {pieces : List Piece} (h : pieces ≠ []) :
    enclose needed pieces ≠ [] := by
  cases needed with
  | true =>
      exact List.cons_ne_nil _ _
  | false =>
      exact h

theorem endsOperand_of_mem_getLast?_enclose
    {needed : Bool} {pieces : List Piece}
    (h : ∀ p ∈ pieces.getLast?, p.endsOperand = true) :
    ∀ p ∈ (enclose needed pieces).getLast?, p.endsOperand = true := by
  intro p hp
  cases needed with
  | true =>
      rw [enclose, if_pos rfl, List.getLast?_concat] at hp
      cases Option.mem_some.mp hp
      rfl
  | false =>
      exact h p hp

namespace Formula

theorem layout_ne_nil (f : Formula) :
    f.layout ≠ [] := by
  cases f with
  | number n =>
      rw [layout]
      split <;> exact List.cons_ne_nil _ _
  | call head args =>
      cases args <;> rw [layout] <;> exact List.cons_ne_nil _ _
  | binary op left right =>
      rw [layout]
      exact List.append_ne_nil_of_right_ne_nil _ (List.cons_ne_nil _ _)
  | _ =>
      rw [layout]
      exact List.cons_ne_nil _ _

/-- Every layout ends with the end of an operand. -/
theorem endsOperand_of_mem_getLast?_layout :
    ∀ (f : Formula), ∀ p ∈ f.layout.getLast?, p.endsOperand = true
  | .text s, p, hp => by
      cases Option.mem_some.mp hp
      rfl
  | .number n, p, hp => by
      rw [layout] at hp
      split at hp <;> cases Option.mem_some.mp hp <;> rfl
  | .boolean b, p, hp => by
      cases Option.mem_some.mp hp
      rfl
  | .name s, p, hp => by
      cases Option.mem_some.mp hp
      rfl
  | .call head [], p, hp => by
      cases Option.mem_some.mp hp
      rfl
  | .call head (arg :: rest), p, hp => by
      rw [layout, enclose, if_pos rfl, ← List.cons_append, List.getLast?_concat] at hp
      cases Option.mem_some.mp hp
      rfl
  | .conditional head parts, p, hp => by
      rw [layout, enclose, if_pos rfl, ← List.cons_append, List.getLast?_concat] at hp
      cases Option.mem_some.mp hp
      rfl
  | .unary op operand, p, hp => by
      rw [layout, List.getLast?_cons_of_ne_nil (enclose_ne_nil operand.layout_ne_nil)] at hp
      exact endsOperand_of_mem_getLast?_enclose
        (endsOperand_of_mem_getLast?_layout operand) p hp
  | .binary op left right, p, hp => by
      rw [layout, List.getLast?_append_of_ne_nil _ (List.cons_ne_nil _ _),
        List.getLast?_cons_of_ne_nil (enclose_ne_nil right.layout_ne_nil)] at hp
      exact endsOperand_of_mem_getLast?_enclose
        (endsOperand_of_mem_getLast?_layout right) p hp

theorem eq_comma_of_mem_head?_layoutMore
    {xs : List Formula} {q : Piece} (hq : q ∈ (layoutMore xs).head?) :
    q = .comma := by
  cases xs with
  | nil =>
      exact absurd hq (Option.not_mem_none q)
  | cons x rest =>
      exact (Option.mem_some.mp hq).symm

theorem endsOperand_of_mem_getLast?_layout_append_layoutMore
    (x : Formula) (rest : List Formula) :
    ∀ p ∈ (layout x ++ layoutMore rest).getLast?, p.endsOperand = true := by
  induction rest generalizing x with
  | nil =>
      rw [layoutMore, List.append_nil]
      exact endsOperand_of_mem_getLast?_layout x
  | cons y rest ih =>
      rw [layoutMore, List.cons_append, List.getLast?_append_of_ne_nil _ (List.cons_ne_nil _ _),
        List.getLast?_cons_of_ne_nil (List.append_ne_nil_of_left_ne_nil y.layout_ne_nil _)]
      exact ih y

/-! ## Chains of pieces -/

section

variable {R : Piece → Piece → Prop}

theorem isChain_enclose_iff
    (hR : Piece.Admits R) {needed : Bool} {pieces : List Piece}
    (hlast : ∀ p ∈ pieces.getLast?, p.endsOperand = true) :
    (enclose needed pieces).IsChain R ↔ pieces.IsChain R := by
  cases needed with
  | false =>
      rfl
  | true =>
      rw [enclose, if_pos rfl, List.isChain_append, List.isChain_cons]
      constructor
      · intro h
        exact h.1.2
      · intro h
        refine ⟨⟨fun q _ => hR.opening q, h⟩, List.isChain_singleton _, ?_⟩
        intro p hp q hq
        cases Option.mem_some.mp hq
        cases pieces with
        | nil =>
            cases Option.mem_some.mp hp
            exact hR.opening _
        | cons first rest =>
            rw [List.getLast?_cons_cons] at hp
            exact hR.operand p .rightParen (hlast p hp) rfl

theorem forall_mem_head?_enclose_iff
    {needed : Bool} {pieces : List Piece} {p : Piece} (hparen : R p .leftParen) :
    (∀ q ∈ (enclose needed pieces).head?, R p q) ↔
      (needed = false → ∀ q ∈ pieces.head?, R p q) := by
  cases needed with
  | false =>
      simp [enclose]
  | true =>
      simp [enclose, hparen]

theorem isChain_head_iff
    (hR : Piece.Admits R) (head : String) (parts : List Formula) :
    (.head head :: enclose true (layoutParts parts)).IsChain R ↔
      (layoutMore parts).IsChain R := by
  cases parts with
  | nil =>
      simp [layoutParts, layoutMore, enclose, hR.call, hR.opening]
  | cons x rest =>
      have hlast := endsOperand_of_mem_getLast?_layout_append_layoutMore x rest
      rw [layoutParts, layoutMore, List.cons_append, List.isChain_cons, List.isChain_cons,
        isChain_enclose_iff hR hlast]
      simp [enclose, hR.call, hR.comma]

mutual

/-- The neighbours in a layout fit together exactly when the operand right after
each operator fits to it. -/
theorem isChain_layout_iff
    (hR : Piece.Admits R) :
    ∀ (f : Formula), f.layout.IsChain R ↔ ∀ g ∈ f.subformulas, g.Fits R
  | .text s => by
      simp [layout, subformulas, Fits]
  | .number n => by
      simp only [layout, subformulas, List.mem_singleton, forall_eq, Fits, iff_true]
      split
      · rw [List.isChain_pair]
        exact hR.negative _
      · exact List.isChain_singleton _
  | .boolean b => by
      simp [layout, subformulas, Fits]
  | .name s => by
      simp [layout, subformulas, Fits]
  | .call head [] => by
      simp [layout, subformulas, subformulasOf, Fits]
  | .call head (arg :: rest) => by
      rw [layout, ← layoutParts, isChain_head_iff hR, isChain_layoutMore_iff hR, subformulas,
        List.forall_mem_cons]
      simp [Fits]
  | .conditional head parts => by
      rw [layout, isChain_head_iff hR, isChain_layoutMore_iff hR, subformulas,
        List.forall_mem_cons]
      simp [Fits]
  | .unary op operand => by
      rw [layout, subformulas, List.forall_mem_cons, ← isChain_layout_iff hR operand,
        List.isChain_cons, isChain_enclose_iff hR (endsOperand_of_mem_getLast?_layout operand),
        forall_mem_head?_enclose_iff (hR.before op), Fits]
  | .binary op left right => by
      have hleft := endsOperand_of_mem_getLast?_layout left
      have hright := endsOperand_of_mem_getLast?_layout right
      rw [layout, subformulas, List.forall_mem_cons, List.forall_mem_append,
        ← isChain_layout_iff hR left, ← isChain_layout_iff hR right, List.isChain_append,
        List.isChain_cons, isChain_enclose_iff hR hleft, isChain_enclose_iff hR hright,
        forall_mem_head?_enclose_iff (hR.between op), Fits]
      have hjunction :
          ∀ p ∈ (enclose (left.needsParensLeft op.strength) left.layout).getLast?,
            ∀ q ∈ (.between op :: enclose (right.needsParensRight op.strength)
              right.layout).head?, R p q := by
        intro p hp q hq
        cases Option.mem_some.mp hq
        exact hR.operand p _ (endsOperand_of_mem_getLast?_enclose hleft p hp) rfl
      constructor
      · intro h
        exact ⟨h.2.1.1, h.1, h.2.1.2⟩
      · intro h
        exact ⟨h.2.1, ⟨h.1, h.2.2⟩, hjunction⟩

theorem isChain_layoutMore_iff
    (hR : Piece.Admits R) :
    ∀ (xs : List Formula),
      (layoutMore xs).IsChain R ↔ ∀ g ∈ subformulasOf xs, g.Fits R
  | [] => by
      simp [layoutMore, subformulasOf]
  | x :: rest => by
      have hjunction :
          ∀ p ∈ x.layout.getLast?, ∀ q ∈ (layoutMore rest).head?, R p q := by
        intro p hp q hq
        rw [eq_comma_of_mem_head?_layoutMore hq]
        exact hR.operand p .comma (endsOperand_of_mem_getLast?_layout x p hp) rfl
      rw [layoutMore, subformulasOf, List.forall_mem_append, ← isChain_layout_iff hR x,
        ← isChain_layoutMore_iff hR rest, List.cons_append, List.isChain_cons,
        List.isChain_append]
      constructor
      · intro h
        exact ⟨h.2.1, h.2.2.1⟩
      · intro h
        exact ⟨fun q _ => hR.comma q, h.1, h.2, hjunction⟩

end

end

end Formula
end QueryFormula
