import QueryFormula.Json.Fault
import QueryFormula.Result

/-!
# Blanks and words of JSON texts

Functions that read at the front of a text give what they read and the text that is left, or the
first fault.  What is only skipped is held to the same grammar as what is kept, but its strings and
numbers need not stand for a text or a number.
-/

namespace QueryFormula.Json

/-- Whether a value is read to be kept or only passed over. -/
inductive Purpose where
  | keep
  | skip
deriving Repr, DecidableEq

/-- Whether a character separates the parts of a document. -/
def isSpace (c : Char) : Bool :=
  c == ' ' || c == '\t' || c == '\n' || c == '\r'

/-- The text without the spaces at its front. -/
def skipSpace (s : List Char) : List Char :=
  s.dropWhile isSpace

theorem length_skipSpace_le (s : List Char) : (skipSpace s).length ≤ s.length :=
  (List.dropWhile_suffix isSpace).length_le

/-- The text after a word, of which the first letter has been seen. -/
def readWord : List Char → List Char → Except Fault (List Char)
  | [], s => .ok s
  | _ :: _, [] => .error .ended
  | w :: word, c :: s => if c = w then readWord word s else .error .malformed

theorem length_le_of_readWord {word s rest : List Char} (h : readWord word s = .ok rest) :
    rest.length ≤ s.length := by
  induction word generalizing s with
  | nil =>
    cases h
    exact Nat.le_refl _
  | cons w word ih =>
    cases s with
    | nil => contradiction
    | cons c s =>
      simp only [readWord] at h
      split at h
      · exact Nat.le_succ_of_le (ih h)
      · contradiction

end QueryFormula.Json
