import QueryFormula.Proofs.Formula.Junction
import QueryFormula.Proofs.Formula.Meaning

/-!
# Signs after operators

Parentheses keep a sign from standing right after an operator where the operand
itself is a signed number or a sign before an operand.  They do not look into
the operand any further: an operator that binds more strongly than the one
before it needs no parentheses, and a sign at its left end is then exposed.
-/

namespace QueryFormula

namespace Piece

/-- Whether the piece is a sign before an operand. -/
def isSign : Piece → Bool
  | .before .minus | .before .plus => true
  | _ => false

/-- Whether the piece is an operator, between operands or before one. -/
def isOperator : Piece → Bool
  | .between _ | .before _ => true
  | _ => false

/-- A sign stands right after an operator. -/
def SignAfterOperator (pieces : List Piece) : Prop :=
  ∃ (before after : List Piece) (operator sign : Piece),
    pieces = before ++ operator :: sign :: after ∧
      operator.isOperator = true ∧ sign.isSign = true

/-- The piece is no sign if it comes after an operator. -/
def Apart (operator sign : Piece) : Prop :=
  operator.isOperator = true → sign.isSign = false

theorem signAfterOperator_iff
    {pieces : List Piece} :
    SignAfterOperator pieces ↔ ¬ pieces.IsChain Apart := by
  rw [List.isChain_iff_forall_rel_of_append_cons_cons]
  constructor
  · rintro ⟨before, after, operator, sign, hpieces, hoperator, hsign⟩ hchain
    have hapart := hchain hpieces hoperator
    rw [hsign] at hapart
    contradiction
  · intro hchain
    push Not at hchain
    obtain ⟨operator, sign, before, after, hpieces, hapart⟩ := hchain
    rw [Apart, Classical.not_imp, Bool.not_eq_false] at hapart
    exact ⟨before, after, operator, sign, hpieces, hapart⟩

theorem admits_apart :
    Admits Apart where
  opening := fun q h => by cases h
  comma := fun q h => by cases h
  negative := fun ds _ => rfl
  call := fun head _ => rfl
  between := fun op _ => rfl
  before := fun op _ => rfl
  operand := by
    intro p q hp hq h
    cases q <;> first | rfl | cases hq

end Piece

namespace Formula

/-- Whether the text of the formula begins with a sign. -/
def leadsWithSign (f : Formula) : Bool :=
  f.layout.head?.any Piece.isSign

/-- Whether the formula, to the right of an operator, begins with a sign and
stands there without parentheses. -/
def exposesSign (op : BinaryOperator) : Formula → Bool
  | .binary inner left right =>
    op.strength < inner.strength && (Formula.binary inner left right).leadsWithSign
  | _ => false

theorem leadsWithSign_eq_false_iff
    {f : Formula} :
    f.leadsWithSign = false ↔ ∀ q ∈ f.layout.head?, q.isSign = false := by
  rw [leadsWithSign]
  cases f.layout.head? with
  | none =>
      simp
  | some q =>
      simp

/-! ## Where a leading sign comes from -/

theorem leadsWithSign_number (n : Number) :
    (Formula.number n).leadsWithSign = n.negative := by
  rw [leadsWithSign, layout]
  cases n.negative <;> rfl

theorem leadsWithSign_unary (op : UnaryOperator) (operand : Formula) :
    (Formula.unary op operand).leadsWithSign = (op != .not) := by
  rw [leadsWithSign, layout]
  cases op <;> rfl

theorem leadsWithSign_call (head : String) (args : List Formula) :
    (Formula.call head args).leadsWithSign = false := by
  cases args <;> rfl

/-- The text of a formula that leads with a sign begins with it. -/
theorem exists_piecesText_eq_cons_of_leadsWithSign
    {f : Formula} (h : f.leadsWithSign = true) (dialect : Dialect) :
    ∃ (c : Char) (rest : List Char),
      dialect.piecesText f.layout = c :: rest ∧ (c = '-' ∨ c = '+') := by
  rw [leadsWithSign] at h
  cases hlayout : f.layout with
  | nil =>
      exact absurd hlayout f.layout_ne_nil
  | cons q rest =>
      rw [hlayout, List.head?_cons, Option.any_some] at h
      cases q with
      | before op =>
          cases op with
          | not =>
              contradiction
          | minus =>
              exact ⟨'-', dialect.piecesText rest, rfl, .inl rfl⟩
          | plus =>
              exact ⟨'+', dialect.piecesText rest, rfl, .inr rfl⟩
      | _ =>
          contradiction

/-! ## Parentheses around a leading sign -/

theorem signed_of_negative
    {n : Number} (h : n.negative = true) :
    n.signed = true := by
  cases n with
  | int value =>
      exact h
  | float value =>
      rw [Number.negative, Bool.and_eq_true] at h
      exact h.1

theorem needsParensAfter_of_leadsWithSign
    {f : Formula} (h : f.leadsWithSign = true) :
    f.needsParensAfter = true := by
  cases f with
  | number n =>
      rw [leadsWithSign_number] at h
      rw [needsParensAfter, isSigned, signed_of_negative h, Bool.true_or]
  | unary op operand =>
      rw [needsParensAfter, strength?, Option.isSome_some, Bool.or_true]
  | binary op left right =>
      rw [needsParensAfter, strength?, Option.isSome_some, Bool.or_true]
  | call head args =>
      rw [leadsWithSign_call] at h
      contradiction
  | _ =>
      contradiction

/-- To the right of an operator a leading sign is enclosed, unless it is one
that is exposed. -/
theorem needsParensRight_of_leadsWithSign
    {f : Formula} (h : f.leadsWithSign = true) (op : BinaryOperator) :
    f.needsParensRight op.strength = !f.exposesSign op := by
  cases f with
  | number n =>
      rw [leadsWithSign_number] at h
      rw [needsParensRight, isSigned, signed_of_negative h, Bool.true_or]
      rfl
  | unary sign operand =>
      rw [leadsWithSign_unary] at h
      cases sign with
      | not =>
          contradiction
      | minus =>
          rfl
      | plus =>
          rfl
  | binary inner left right =>
      have hsigned : (binary inner left right).isSigned = false := rfl
      rw [needsParensRight, hsigned, strength?, Option.any_some, Bool.false_or,
        exposesSign, h, Bool.and_true, ← decide_not]
      exact decide_eq_decide.mpr Nat.not_lt.symm
  | call head args =>
      rw [leadsWithSign_call] at h
      contradiction
  | _ =>
      contradiction

theorem leadsWithSign_of_exposesSign
    {f : Formula} {op : BinaryOperator} (h : f.exposesSign op = true) :
    f.leadsWithSign = true := by
  cases f with
  | binary inner left right =>
      rw [exposesSign, Bool.and_eq_true] at h
      exact h.2
  | _ =>
      contradiction

theorem fits_apart_iff (f : Formula) :
    f.Fits Piece.Apart ↔
      ∀ op left right, f = .binary op left right → right.exposesSign op = false := by
  cases f with
  | unary op operand =>
      simp only [Fits, reduceCtorEq, false_implies, implies_true, iff_true]
      intro hbare
      have hleads : operand.leadsWithSign = false := by
        rw [← Bool.not_eq_true]
        intro h
        rw [needsParensAfter_of_leadsWithSign h] at hbare
        contradiction
      intro q hq _
      exact leadsWithSign_eq_false_iff.mp hleads q hq
  | binary op left right =>
      rw [Fits]
      constructor
      · intro hfits op' left' right' heq
        cases heq
        rw [← Bool.not_eq_true]
        intro hexposes
        have hleads := leadsWithSign_of_exposesSign hexposes
        have hbare : right.needsParensRight op.strength = false := by
          rw [needsParensRight_of_leadsWithSign hleads, hexposes, Bool.not_true]
        have hnot := leadsWithSign_eq_false_iff.mpr fun q hq => hfits hbare q hq rfl
        rw [hleads] at hnot
        contradiction
      · intro hexposes hbare q hq _
        have hleads : right.leadsWithSign = false := by
          rw [← Bool.not_eq_true]
          intro h
          rw [needsParensRight_of_leadsWithSign h, hexposes op left right rfl] at hbare
          contradiction
        exact leadsWithSign_eq_false_iff.mp hleads q hq
  | _ =>
      simp [Fits]

/-- A sign stands right after an operator exactly where a right operand exposes
one. -/
theorem signAfterOperator_layout_iff (f : Formula) :
    Piece.SignAfterOperator f.layout ↔
      ∃ op left right,
        Formula.binary op left right ∈ f.subformulas ∧ right.exposesSign op = true := by
  rw [Piece.signAfterOperator_iff, isChain_layout_iff Piece.admits_apart]
  constructor
  · intro h
    push Not at h
    obtain ⟨g, hg, hfits⟩ := h
    rw [fits_apart_iff] at hfits
    push Not at hfits
    obtain ⟨op, left, right, rfl, hexposes⟩ := hfits
    exact ⟨op, left, right, hg, Bool.not_eq_false _ ▸ hexposes⟩
  · rintro ⟨op, left, right, hmem, hexposes⟩ h
    have hnot := (fits_apart_iff _).mp (h _ hmem) op left right rfl
    rw [hexposes] at hnot
    contradiction

end Formula

namespace Editor

variable {editor : Editor}

/-- In the text of a clause a sign stands right after an operator exactly where a
right operand is an operation that binds more strongly and has the sign at its
left end; every other operand that begins with a sign is enclosed.  The text
of what begins with a sign begins with its symbol. -/
theorem format_sign_after_operator_iff
    {clause : Json} {text : String} (h : editor.format clause = .ok text) :
    ∃ f, editor.formulaOf clause = .ok f ∧
      text = String.ofList (editor.dialect.piecesText f.layout) ∧
      (∀ g ∈ f.subformulas, g.leadsWithSign = true →
        ∃ (c : Char) (rest : List Char),
          editor.dialect.piecesText g.layout = c :: rest ∧ (c = '-' ∨ c = '+')) ∧
      (Piece.SignAfterOperator f.layout ↔
        ∃ op left right, Formula.binary op left right ∈ f.subformulas ∧
          right.exposesSign op = true) ∧
      (∀ op operand, Formula.unary op operand ∈ f.subformulas →
        operand.leadsWithSign = true →
          (Formula.unary op operand).layout = .before op :: enclose true operand.layout) ∧
      ∀ op left right, Formula.binary op left right ∈ f.subformulas →
        right.leadsWithSign = true →
          (Formula.binary op left right).layout =
            enclose (left.needsParensLeft op.strength) left.layout ++
              .between op :: enclose (!right.exposesSign op) right.layout := by
  obtain ⟨f, hf, rfl⟩ := format_eq_ok_iff.mp h
  refine ⟨f, hf, rfl, ?_, f.signAfterOperator_layout_iff, ?_, ?_⟩
  · intro g _ hleads
    exact Formula.exists_piecesText_eq_cons_of_leadsWithSign hleads editor.dialect
  · intro op operand _ hleads
    rw [Formula.layout, Formula.needsParensAfter_of_leadsWithSign hleads]
  · intro op left right _ hleads
    rw [Formula.layout, Formula.needsParensRight_of_leadsWithSign hleads]

/-- A product with a negative number in front, as the right operand of a sum. -/
def signedProduct : Json :=
  .arr [.str "+", .num (.int (.ofInt64 1)),
    .arr [.str "*", .num (.int (.ofInt64 (-2))), .num (.int (.ofInt64 3))]]

theorem formulaOf_signedProduct :
    bare.formulaOf signedProduct =
      .ok (.binary .plus (.number (.int (.ofInt64 1)))
        (.binary .times (.number (.int (.ofInt64 (-2)))) (.number (.int (.ofInt64 3))))) := by
  have hclassify :
      bare.scope.classify signedProduct =
        some (.application .operator "+"
          [.number (.int (.ofInt64 1)),
            .application .operator "*"
              [.number (.int (.ofInt64 (-2))), .number (.int (.ofInt64 3))] none] none) := by
    rfl
  rw [formulaOf_of_classify hclassify]
  simp [ofExpression, ofExpressions, Operator.ofName?, BinaryOperator.ofName?]
  rfl

theorem format_signedProduct :
    bare.format signedProduct = .ok "1 + -2 * 3" := by
  rw [format, formulaOf_signedProduct]
  rfl

/-- Not every sign after an operator is enclosed. -/
theorem signAfterOperator_signedProduct :
    ∃ pieces, bare.pieces signedProduct = .ok pieces ∧
      String.ofList (bare.dialect.piecesText pieces) = "1 + -2 * 3" ∧
        Piece.SignAfterOperator pieces := by
  refine ⟨_, by rw [pieces, formulaOf_signedProduct]; rfl, by rfl, ?_⟩
  exact ⟨[.digits ['1']], [.digits ['2'], .between .times, .digits ['3']],
    .between .plus, .before .minus, rfl, rfl, rfl⟩

theorem format_sign_after_operator_signedProduct :
    bare.format signedProduct = .ok "1 + -2 * 3" ∧
      ∃ f, bare.formulaOf signedProduct = .ok f ∧
        ∃ op left right, Formula.binary op left right ∈ f.subformulas ∧
          right.exposesSign op = true := by
  obtain ⟨f, hf, -, -, hiff, -, -⟩ := format_sign_after_operator_iff format_signedProduct
  refine ⟨format_signedProduct, f, hf, hiff.mp ?_⟩
  rw [formulaOf_signedProduct] at hf
  cases Except.ok.inj hf
  exact ⟨[.digits ['1']], [.digits ['2'], .between .times, .digits ['3']],
    .between .plus, .before .minus, rfl, rfl, rfl⟩

end Editor
end QueryFormula
