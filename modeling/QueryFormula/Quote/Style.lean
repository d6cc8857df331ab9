import QueryFormula.Quote.Bracket
import QueryFormula.Text.Visible

/-!
# Quoting styles

A text is quoted between double quotes, between single quotes, between brackets, or not at all.
Between quotes, the quote is escaped unless a backslash is before it already, and five controls are
written as a backslash and a letter.
-/

namespace QueryFormula

/-- A way to delimit literals and names. -/
inductive Style where
  | double
  | single
  | bracket
  | none
deriving Repr, DecidableEq

namespace Quote

/-- The letter that stands for a control character after a backslash. -/
def controlLetter (c : Char) : Option Char :=
  match c with
  | '\x08' => some 'b'
  | '\t' => some 't'
  | '\n' => some 'n'
  | '\x0c' => some 'f'
  | '\r' => some 'r'
  | _ => none

/-- The control character that a letter stands for after a backslash. -/
def letterControl (c : Char) : Option Char :=
  match c with
  | 'b' => some '\x08'
  | 't' => some '\t'
  | 'n' => some '\n'
  | 'f' => some '\x0c'
  | 'r' => some '\r'
  | _ => none

/-- A text as it stands between quotes, after a backslash or not. -/
def quoteBody (quote : Char) (afterBackslash : Bool) : List Char → List Char
  | [] => []
  | c :: rest =>
    if c = quote ∧ afterBackslash = false then '\\' :: c :: quoteBody quote false rest
    else match controlLetter c with
      | some letter => '\\' :: letter :: quoteBody quote false rest
      | none => c :: quoteBody quote (c == '\\') rest

/-- The text between two quotes. -/
def quoteWith (quote : Char) (text : List Char) : List Char :=
  quote :: quoteBody quote false text ++ [quote]

/-- The character that a backslash and another one stand for between quotes. -/
def escapeMeaning (quote c : Char) : Option Char :=
  match letterControl c with
  | some control => some control
  | none => if c = quote then some quote else none

/-- The text that stands between quotes, its escapes resolved. -/
def unquoteBody (quote : Char) : List Char → List Char
  | [] => []
  | [c] => [c]
  | c :: d :: rest =>
    if c = '\\' then
      match escapeMeaning quote d with
      | some e => e :: unquoteBody quote rest
      | none => c :: unquoteBody quote (d :: rest)
    else c :: unquoteBody quote (d :: rest)

/-- What stands between the first and the last character. -/
def interior (text : List Char) : List Char :=
  (text.drop 1).dropLast

end Quote

/-- A text that names no quoting style. -/
structure UnknownStyle where
  text : String
deriving Repr, DecidableEq

/-- The message for a text that names no style. -/
def UnknownStyle.message (e : UnknownStyle) : String :=
  "Unknown quoting style: " ++ Text.visible e.text

namespace Style

open Quote

/-- The text that names a style, its opening delimiter. -/
def name : Style → String
  | .double => "\""
  | .single => "'"
  | .bracket => "["
  | .none => ""

/-- The style of a name. -/
def ofName (name : String) : Except UnknownStyle Style :=
  match name with
  | "\"" => .ok .double
  | "'" => .ok .single
  | "[" => .ok .bracket
  | "" => .ok .none
  | other => .error ⟨other⟩

/-- A text quoted in this style. -/
def quoteText : Style → List Char → List Char
  | .double, text => quoteWith '"' text
  | .single, text => quoteWith '\'' text
  | .bracket, text => '[' :: escape text ++ [']']
  | .none, text => text

/-- A text quoted in this style, as a string. -/
def quote (style : Style) (text : String) : String :=
  String.ofList (style.quoteText text.toList)

end Style

namespace Quote

/-- What a quoted text stands for, none when its first character opens no style.  The last
character counts as the closing delimiter. -/
def unquoteText (text : List Char) : Option (List Char) :=
  match text with
  | '"' :: _ => some (unquoteBody '"' (interior text))
  | '\'' :: _ => some (unquoteBody '\'' (interior text))
  | '[' :: _ => some (interior (unescape text))
  | _ => none

/-- What a quoted text stands for; a text whose first character opens no style is an error. -/
def unquote (text : String) : Except UnknownStyle String :=
  match unquoteText text.toList with
  | some result => .ok (String.ofList result)
  | none => .error ⟨String.ofList (text.toList.take 1)⟩

/-- A text quoted in the style of a name. -/
def quoteAs (text styleName : String) : Except UnknownStyle String :=
  (Style.ofName styleName).map (·.quote text)

end Quote
end QueryFormula
