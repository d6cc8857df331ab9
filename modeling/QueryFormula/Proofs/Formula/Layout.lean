import QueryFormula.Proofs.Formula.Reading

/-!
# Layouts and their readings

The parentheses of a layout are decided operand by operand, from two strengths
and a sign.  They are enough: a layout reads back as the formula that it was
made from, and in no other way.
-/

namespace QueryFormula

/-- A number as its pieces show it. -/
def Reading.ofNumber (n : Number) : Reading :=
  if n.negative then .unary .minus (.digits n.plainMagnitude)
  else .digits n.plainMagnitude

namespace Formula

mutual

/-- The formula as its pieces show it. -/
def reading : Formula → Reading
  | .text s => .text s
  | .number n => .ofNumber n
  | .boolean b => .boolean b
  | .name s => .name s
  | .call head args => .call head (readings args)
  | .conditional head parts => .call head (readings parts)
  | .unary op operand => .unary op (reading operand)
  | .binary op left right => .binary op (reading left) (reading right)

/-- The readings of several formulas. -/
def readings : List Formula → List Reading
  | [] => []
  | x :: rest => reading x :: readings rest

end

theorem readings_eq_map (xs : List Formula) :
    readings xs = xs.map reading := by
  induction xs with
  | nil =>
      rfl
  | cons x rest ih =>
      rw [readings, ih, List.map_cons]

theorem layoutMore_eq_flatMap (xs : List Formula) :
    layoutMore xs = (xs.map layout).flatMap (.comma :: ·) := by
  induction xs with
  | nil =>
      rfl
  | cons x rest ih =>
      rw [layoutMore, ih, List.map_cons, List.flatMap_cons]

theorem layoutParts_eq_joined (xs : List Formula) :
    layoutParts xs = Piece.joined (xs.map layout) := by
  cases xs with
  | nil =>
      rfl
  | cons x rest =>
      rw [layoutParts, layoutMore_eq_flatMap]
      rfl

/-- A call is laid out like a conditional, unless it has no arguments. -/
theorem layout_call_of_ne_nil
    (head : String) {args : List Formula} (h : args ≠ []) :
    layout (.call head args) = layout (.conditional head args) := by
  cases args with
  | nil =>
      exact absurd rfl h
  | cons arg rest =>
      rw [layout, layout, layoutParts]

/-- The strengths of the outermost operators of a formula are at least the
given one. -/
def BindsAtLeast (level : Nat) (f : Formula) : Prop :=
  ∀ strength ∈ f.strength?, level ≤ strength

theorem bindsAtLeast_of_needsParensLeft
    {strength : Nat} {f : Formula} (h : f.needsParensLeft strength = false) :
    f.BindsAtLeast strength := by
  intro inner hinner
  simp only [needsParensLeft, Option.mem_def.mp hinner, Option.any_some,
    decide_eq_false_iff_not] at h
  omega

theorem bindsAtLeast_of_needsParensRight
    {strength : Nat} {f : Formula} (h : f.needsParensRight strength = false) :
    f.BindsAtLeast (strength + 1) := by
  intro inner hinner
  simp only [needsParensRight, Option.mem_def.mp hinner, Option.any_some,
    Bool.or_eq_false_iff, decide_eq_false_iff_not] at h
  omega

theorem bindsAtLeast_of_needsParensAfter
    {level : Nat} {f : Formula} (h : f.needsParensAfter = false) :
    f.BindsAtLeast level := by
  intro inner hinner
  simp only [needsParensAfter, Option.mem_def.mp hinner, Option.isSome_some,
    Bool.or_true, Bool.true_eq_false] at h

/-- Every operator binds at least at the outermost level. -/
theorem bindsAtLeast_one (f : Formula) :
    f.BindsAtLeast 1 := by
  intro strength hstrength
  cases f with
  | unary op operand =>
      cases Option.mem_some.mp hstrength
      cases op <;> decide
  | binary op left right =>
      cases Option.mem_some.mp hstrength
      cases op <;> decide
  | _ =>
      exact absurd hstrength (Option.not_mem_none strength)

end Formula

/-! ## Layouts can be read -/

theorem reads_ofNumber
    {level : Nat} (hlevel : level ≤ 7) (n : Number) :
    Reads level (Formula.layout (.number n)) (.ofNumber n) := by
  rw [Formula.layout, Reading.ofNumber]
  by_cases hn : n.negative = true
  · rw [if_pos hn, if_pos hn]
    exact .unary rfl hlevel (.digits _)
  · rw [if_neg hn, if_neg hn]
    exact .digits _

example : Reading.ofNumber (.float ⟨true, .zero⟩) = .digits ['0'] := by
  rfl

theorem reads_enclose
    {level : Nat} {needed : Bool} {pieces : List Piece} {tree : Reading}
    (hinner : Reads 1 pieces tree) (hbare : needed = false → Reads level pieces tree) :
    Reads level (enclose needed pieces) tree := by
  cases needed with
  | true =>
      exact .parens hinner
  | false =>
      exact hbare rfl

theorem reads_conditional
    {level : Nat} (head : String) {parts : List Formula}
    (h : ∀ x ∈ parts, Reads 1 x.layout x.reading) :
    Reads level (Formula.layout (.conditional head parts))
      (.call head (Formula.readings parts)) := by
  have hcall := @Reads.call level head
    (parts.map fun x => (x.layout, x.reading)) (by
      intro arg harg
      obtain ⟨x, hx, rfl⟩ := List.mem_map.mp harg
      exact h x hx)
  rw [List.map_map, List.map_map] at hcall
  rw [Formula.layout, Formula.layoutParts_eq_joined, Formula.readings_eq_map]
  exact hcall

mutual

/-- A layout reads back as its formula wherever its outermost operator binds
strongly enough; a signed number needs a place that takes a sign. -/
theorem reads_layout :
    ∀ (f : Formula) {level : Nat}, level ≤ 7 → f.BindsAtLeast level →
      Reads level f.layout f.reading
  | .text s, level, _, _ => by
      rw [Formula.layout, Formula.reading]
      exact .text s
  | .number n, level, hlevel, _ => by
      rw [Formula.reading]
      exact reads_ofNumber hlevel n
  | .boolean b, level, _, _ => by
      rw [Formula.layout, Formula.reading]
      exact .boolean b
  | .name s, level, _, _ => by
      rw [Formula.layout, Formula.reading]
      exact .name s
  | .call head [], level, _, _ => by
      rw [Formula.layout, Formula.reading, Formula.readings]
      exact .head head
  | .call head (arg :: rest), level, _, _ => by
      rw [Formula.layout_call_of_ne_nil head (List.cons_ne_nil arg rest), Formula.reading]
      exact reads_conditional head (reads_layouts (arg :: rest))
  | .conditional head parts, level, _, _ => by
      rw [Formula.reading]
      exact reads_conditional head (reads_layouts parts)
  | .unary op operand, level, _, hbinds => by
      rw [Formula.layout, Formula.reading]
      have hop : op.strength ≤ 7 := by
        cases op <;> decide
      refine .unary ?_ (hbinds op.strength rfl) (reads_enclose ?_ ?_)
      · rfl
      · exact reads_layout operand (by decide) operand.bindsAtLeast_one
      · intro hbare
        exact reads_layout operand hop (Formula.bindsAtLeast_of_needsParensAfter hbare)
  | .binary op left right, level, _, hbinds => by
      rw [Formula.layout, Formula.reading]
      have hop : op.strength + 1 ≤ 7 := by
        cases op <;> decide
      refine .binary ?_ (hbinds op.strength rfl)
        (reads_enclose ?_ ?_) (reads_enclose ?_ ?_)
      · rfl
      · exact reads_layout left (by decide) left.bindsAtLeast_one
      · intro hbare
        exact reads_layout left (Nat.le_of_succ_le hop)
          (Formula.bindsAtLeast_of_needsParensLeft hbare)
      · exact reads_layout right (by decide) right.bindsAtLeast_one
      · intro hbare
        exact reads_layout right hop (Formula.bindsAtLeast_of_needsParensRight hbare)

theorem reads_layouts :
    ∀ (xs : List Formula), ∀ x ∈ xs, Reads 1 x.layout x.reading
  | [], _, hx => absurd hx List.not_mem_nil
  | y :: rest, x, hx => by
      rcases List.mem_cons.mp hx with hxy | hrest
      · rw [hxy]
        exact reads_layout y (by decide) y.bindsAtLeast_one
      · exact reads_layouts rest x hrest

end

/-- A layout has the reading of its formula and no other. -/
theorem reads_layout_iff
    {f : Formula} {tree : Reading} :
    Reads 1 f.layout tree ↔ tree = f.reading := by
  constructor
  · intro h
    exact h.unique (reads_layout f (by decide) f.bindsAtLeast_one)
  · rintro rfl
    exact reads_layout f (by decide) f.bindsAtLeast_one

end QueryFormula
