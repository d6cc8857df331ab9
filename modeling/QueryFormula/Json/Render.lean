import QueryFormula.Json.Basic

/-!
# The text of JSON values

A value is written in one line without blanks, or over several lines with an indent of two spaces
for each level.  Strings escape the quote, the backslash and the controls, and nothing else.
-/

namespace QueryFormula.Json

/-- A character as it stands in a string. -/
def charText (c : Char) : List Char :=
  match c with
  | '"' => ['\\', '"']
  | '\\' => ['\\', '\\']
  | '\x08' => ['\\', 'b']
  | '\t' => ['\\', 't']
  | '\n' => ['\\', 'n']
  | '\x0c' => ['\\', 'f']
  | '\r' => ['\\', 'r']
  | c =>
    if c.toNat < 32 then
      ['\\', 'u', '0', '0', Nat.digitChar (c.toNat / 16), Nat.digitChar (c.toNat % 16)]
    else [c]

/-- A text as a string of a document. -/
def stringText (s : String) : List Char :=
  '"' :: s.toList.flatMap charText ++ ['"']

/-- A truth value as a word. -/
def boolText (b : Bool) : List Char :=
  (if b then "true" else "false").toList

mutual

/-- A value in one line without blanks. -/
def compactText : Json → List Char
  | .null => "null".toList
  | .bool b => boolText b
  | .num n => n.jsonText
  | .str s => stringText s
  | .arr [] => "[]".toList
  | .arr (item :: rest) => '[' :: compactText item ++ compactItems rest ++ [']']
  | .obj [] => ['\x7b', '\x7d']
  | .obj ((key, value) :: rest) =>
    '\x7b' :: stringText key ++ ':' :: compactText value ++ compactMembers rest ++ ['\x7d']

/-- The further items of an array, each after a comma. -/
def compactItems : List Json → List Char
  | [] => []
  | item :: rest => ',' :: compactText item ++ compactItems rest

/-- The further members of an object, each after a comma. -/
def compactMembers : Members → List Char
  | [] => []
  | (key, value) :: rest => ',' :: stringText key ++ ':' :: compactText value ++ compactMembers rest

end

/-- A new line, indented to a level. -/
def newLine (level : Nat) : List Char :=
  '\n' :: List.replicate (2 * level) ' '

mutual

/-- A value over several lines, its first line at the given level; containers without content
stay in one line. -/
def prettyText (level : Nat) : Json → List Char
  | .arr [] => "[]".toList
  | .arr (item :: rest) =>
    '[' :: newLine (level + 1) ++ prettyText (level + 1) item ++ prettyItems (level + 1) rest ++
      newLine level ++ [']']
  | .obj [] => ['\x7b', '\x7d']
  | .obj ((key, value) :: rest) =>
    '\x7b' :: newLine (level + 1) ++ stringText key ++ ':' :: ' ' :: prettyText (level + 1) value ++
      prettyMembers (level + 1) rest ++ newLine level ++ ['\x7d']
  | .null => "null".toList
  | .bool b => boolText b
  | .num n => n.jsonText
  | .str s => stringText s

/-- The further items of an array, each on a line of its own. -/
def prettyItems (level : Nat) : List Json → List Char
  | [] => []
  | item :: rest => ',' :: newLine level ++ prettyText level item ++ prettyItems level rest

/-- The further members of an object, each on a line of its own. -/
def prettyMembers (level : Nat) : Members → List Char
  | [] => []
  | (key, value) :: rest =>
    ',' :: newLine level ++ stringText key ++ ':' :: ' ' :: prettyText level value ++
      prettyMembers level rest

end

/-- The document of a value in one line. -/
def compact (value : Json) : String :=
  String.ofList (compactText value)

/-- The document of a value over several lines. -/
def pretty (value : Json) : String :=
  String.ofList (prettyText 0 value)

end QueryFormula.Json
