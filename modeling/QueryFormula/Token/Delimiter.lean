import QueryFormula.Token.Basic

/-!
# Delimiters

Text literals stand between quotes and names between brackets.  The content goes on to the first
closing character that no backslash takes along, and its delimiter may be missing.
-/

namespace QueryFormula

/-- What a quoted literal or a bracketed name stands between. -/
inductive Delimiter where
  | double
  | single
  | bracket
deriving Repr, DecidableEq

namespace Delimiter

/-- The character before the content. -/
def opening : Delimiter → Char
  | .double => '"'
  | .single => '\''
  | .bracket => '['

/-- The character after the content. -/
def closing : Delimiter → Char
  | .double => '"'
  | .single => '\''
  | .bracket => ']'

/-- The delimiter that a character opens. -/
def ofOpening? (c : Char) : Option Delimiter :=
  match c with
  | '"' => some .double
  | '\'' => some .single
  | '[' => some .bracket
  | _ => none

theorem opening_of_ofOpening? {c : Char} {d : Delimiter} (h : ofOpening? c = some d) :
    d.opening = c := by
  unfold ofOpening? at h
  split at h <;> cases h <;> rfl

/-- What is wrong when the closing character does not come. -/
def missing : Delimiter → TokenError.Cause
  | .double | .single => .missingQuote
  | .bracket => .missingBracket

/-- The content up to the closing character and the text after it, none when it does not come.  A
backslash takes the character after it along. -/
def split (close : Char) : List Char → List Char × Option (List Char)
  | [] => ([], none)
  | [c] => if c = close then ([], some []) else ([c], none)
  | c :: d :: rest =>
    if c = close then ([], some (d :: rest))
    else if c = '\\' then
      let following := split close rest
      (c :: d :: following.1, following.2)
    else
      let following := split close (d :: rest)
      (c :: following.1, following.2)

/-- What is cut off and what is left spell the text. -/
theorem text_split (close : Char) (s : List Char) :
    (split close s).1 ++ ((split close s).2.map (close :: ·)).getD [] = s := by
  induction s using split.induct close with
  | case1 => simp [split]
  | case2 => simp [split]
  | case3 c hc => simp [split, hc]
  | case4 d rest => simp [split]
  | case5 d rest hne ih => simp [split, hne, ih]
  | case6 c d rest hne hback ih => simp [split, hne, hback, ih]

end Delimiter

end QueryFormula
