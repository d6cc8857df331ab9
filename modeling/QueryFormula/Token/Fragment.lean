import QueryFormula.Text.Blank
import QueryFormula.Text.Width
import QueryFormula.Token.Lexeme

/-!
# Fragments

The text of a formula falls into fragments: blanks, lexemes, and stray characters that belong to
neither.  The fragments spell the text again, so the places of tokens and errors follow from the
widths of the fragments before them.
-/

namespace QueryFormula

/-- A part of the text of a formula. -/
inductive Fragment where
  | blank (c : Char)
  | stray (c : Char)
  | lexeme (lexeme : Lexeme)
deriving Repr, DecidableEq

namespace Fragment

/-- The fragment as it is written. -/
def text : Fragment → List Char
  | .blank c => [c]
  | .stray c => [c]
  | .lexeme l => l.text

/-- The fragment that begins with a character, and the text after it. -/
def split (c : Char) (rest : List Char) : Fragment × List Char :=
  if Text.isBlank c then (.blank c, rest)
  else match Lexeme.split c rest with
    | some (l, after) => (.lexeme l, after)
    | none => (.stray c, rest)

/-- What is cut off and what is left spell the text. -/
theorem text_split (c : Char) (rest : List Char) :
    (split c rest).1.text ++ (split c rest).2 = c :: rest := by
  unfold split
  split
  · rfl
  · split
    · next h => exact Lexeme.text_split h
    · rfl

theorem text_split_ne_nil (c : Char) (rest : List Char) : (split c rest).1.text ≠ [] := by
  unfold split
  split
  · simp [text]
  · split
    · next h => exact Lexeme.text_ne_nil_of_split h
    · simp [text]

theorem length_split_lt (c : Char) (rest : List Char) :
    (split c rest).2.length < (c :: rest).length := by
  have hpos := List.length_pos_iff.2 (text_split_ne_nil c rest)
  have hlength := congrArg List.length (text_split c rest)
  rw [List.length_append] at hlength
  omega

/-- The fragments of a text. -/
def ofText : List Char → List Fragment
  | [] => []
  | c :: rest => (split c rest).1 :: ofText (split c rest).2
termination_by s => s.length
decreasing_by exact length_split_lt c rest

@[simp]
theorem ofText_nil : ofText [] = [] := by
  rw [ofText]

theorem ofText_cons (c : Char) (rest : List Char) :
    ofText (c :: rest) = (split c rest).1 :: ofText (split c rest).2 := by
  rw [ofText]

/-- The fragments spell the text. -/
theorem flatMap_text_ofText (s : List Char) : (ofText s).flatMap text = s := by
  fun_induction ofText s with
  | case1 => rfl
  | case2 c rest ih => rw [List.flatMap_cons, ih, text_split]

/-- The fragments with their places, the first one at `start`. -/
def locate (start : Nat) : List Fragment → List (Nat × Fragment)
  | [] => []
  | f :: rest => (start, f) :: locate (start + Text.width f.text) rest

/-- The token of a fragment at a place. -/
def token? : Nat × Fragment → Option Token
  | (start, .lexeme l) => some ⟨l.kind, start, start + Text.width l.text⟩
  | _ => none

/-- What is wrong with a fragment at a place. -/
def error? : Nat × Fragment → Option TokenError
  | (start, .stray c) => some ⟨.unexpected c, start⟩
  | (start, .lexeme l) => l.fault.map fun cause => ⟨cause, start⟩
  | (_, .blank _) => none

end Fragment

/-- The tokens of a formula's text and everything that is wrong with it. -/
def tokenizeText (source : List Char) : Tokenized :=
  let located := Fragment.locate 0 (Fragment.ofText source)
  ⟨located.filterMap Fragment.token?, located.filterMap Fragment.error?⟩

/-- The tokens of a formula and everything that is wrong with it. -/
def tokenize (source : String) : Tokenized :=
  tokenizeText source.toList

end QueryFormula
