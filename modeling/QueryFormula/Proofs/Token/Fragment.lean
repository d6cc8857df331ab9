import QueryFormula.Proofs.Token.Delimiter
import QueryFormula.Token.Fragment

/-!
# Fragments of known texts

A text literal or a bracketed name is one fragment when its content holds
together, whatever comes after its closing character.
-/

namespace QueryFormula

theorem Text.width_eq_zero_iff {text : List Char} :
    Text.width text = 0 ↔ text = [] := by
  cases text with
  | nil => simp
  | cons c rest =>
      have hpos := c.utf8Size_pos
      simp only [Text.width_cons, reduceCtorEq, iff_false]
      omega

/-- Widths are the sizes of strings. -/
theorem Text.width_toList (s : String) : Text.width s.toList = s.utf8ByteSize := by
  have hlist : ∀ l : List Char, Text.width l = (String.ofList l).utf8ByteSize := by
    intro l
    induction l with
    | nil => rfl
    | cons c l ih =>
        rw [Text.width_cons, ih, String.ofList_cons, String.utf8ByteSize_append]
        simp
  rw [hlist, String.ofList_toList]

theorem Lexeme.split_opening (d : Delimiter) (rest : List Char) :
    split d.opening rest =
      some (.delimited d (Delimiter.split d.closing rest).1
          (Delimiter.split d.closing rest).2.isSome,
        (Delimiter.split d.closing rest).2.getD []) := by
  rcases hcut : Delimiter.split d.closing rest with ⟨content, after⟩
  cases d <;> cases after <;>
    simp [split, Delimiter.opening, Delimiter.ofOpening?, hcut]

namespace Fragment

/-- A text behind an opening character begins with one delimited lexeme. -/
theorem split_opening (d : Delimiter) (rest : List Char) :
    split d.opening rest =
      (.lexeme (.delimited d (Delimiter.split d.closing rest).1
          (Delimiter.split d.closing rest).2.isSome),
        (Delimiter.split d.closing rest).2.getD []) := by
  have hblank : Text.isBlank d.opening = false := by
    cases d <;> decide
  simp [split, hblank, Lexeme.split_opening]

/-- A delimited text whose content holds together is one fragment. -/
theorem ofText_delimited
    (d : Delimiter) {content : List Char}
    (hopen : Delimiter.staysOpen d.closing false content = true)
    (rest : List Char) :
    ofText (d.opening :: content ++ d.closing :: rest) =
      .lexeme (.delimited d content true) :: ofText rest := by
  have hcut : Delimiter.split d.closing (content ++ d.closing :: rest) =
      (content, some rest) :=
    (Delimiter.split_eq_some_iff d.closing_ne_backslash).mpr ⟨rfl, hopen⟩
  rw [List.cons_append, ofText_cons, split_opening, hcut]
  rfl

end Fragment

end QueryFormula
