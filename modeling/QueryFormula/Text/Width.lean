/-!
# Widths

Positions in a text count the bytes of its UTF-8 form.
-/

namespace QueryFormula.Text

/-- The number of bytes of a text. -/
def width (text : List Char) : Nat :=
  text.foldr (fun c n => c.utf8Size + n) 0

@[simp]
theorem width_nil : width [] = 0 :=
  rfl

@[simp]
theorem width_cons (c : Char) (text : List Char) : width (c :: text) = c.utf8Size + width text :=
  rfl

@[simp]
theorem width_append (a b : List Char) : width (a ++ b) = width a + width b := by
  induction a with
  | nil => simp
  | cons c a ih => simp [ih, Nat.add_assoc]

/-- The text without its first `n` bytes. -/
def dropWidth (n : Nat) : List Char → List Char
  | [] => []
  | c :: rest => if n = 0 then c :: rest else dropWidth (n - c.utf8Size) rest

/-- The first `n` bytes of the text. -/
def takeWidth (n : Nat) : List Char → List Char
  | [] => []
  | c :: rest => if n = 0 then [] else c :: takeWidth (n - c.utf8Size) rest

/-- The part of a text between two positions. -/
def slice (text : List Char) (start stop : Nat) : List Char :=
  takeWidth (stop - start) (dropWidth start text)

end QueryFormula.Text
