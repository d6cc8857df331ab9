import QueryFormula.Json.Render
import QueryFormula.Text.Visible

/-!
# Faults of JSON documents

What can be wrong with a document that is read as a value of a given type: its text ends too
early, it is no JSON, or a well-formed part of it does not fit the type.  The first fault from left
to right is the one reported.
-/

namespace QueryFormula.Json

/-- What a document holds where something else is expected. -/
inductive Found where
  | null
  | boolean (value : Bool)
  | number (value : Number)
  | text (value : String)
  | sequence
  | map
deriving Repr, DecidableEq

/-- What is expected of a part of a document. -/
inductive Expected where
  | text
  | boolean
  | int64
  | sequence
  | map
  | record (name : String)
deriving Repr, DecidableEq

/-- How a well-formed part of a document fails to fit the type it is read as. -/
inductive Mismatch where
  /-- A value of another type. -/
  | type (found : Found) (expected : Expected)
  /-- An integer out of the range that is expected. -/
  | range (value : Integer) (expected : Expected)
  /-- A record without a field that it needs. -/
  | missing (field : String)
  /-- A record with a field given twice. -/
  | duplicate (field : String)
  /-- A record as an array that ends before a field that it needs. -/
  | short (length : Nat) (record : String) (fields : Nat)
  /-- A text that the type does not accept, with its reason. -/
  | refused (reason : String)
deriving Repr, DecidableEq

/-- The first fault of a document. -/
inductive Fault where
  /-- The text ends where more is needed. -/
  | ended
  /-- The text is not JSON. -/
  | malformed
  /-- The text does not fit the type. -/
  | mismatch (cause : Mismatch)
deriving Repr, DecidableEq

/-- A value of the wrong type in the words of a message. -/
def Found.description : Found → String
  | .null => "null"
  | .boolean b => "boolean `" ++ String.ofList (boolText b) ++ "`"
  | .number (.int n) => "integer `" ++ String.ofList n.text ++ "`"
  | .number (.float x) => "floating point `" ++ String.ofList x.jsonText ++ "`"
  | .text s => "string " ++ Text.visible s
  | .sequence => "sequence"
  | .map => "map"

/-- What is expected in the words of a message. -/
def Expected.description : Expected → String
  | .text => "a string"
  | .boolean => "a boolean"
  | .int64 => "i64"
  | .sequence => "a sequence"
  | .map => "a map"
  | .record name => "struct " ++ name

/-- The message of a mismatch. -/
def Mismatch.message : Mismatch → String
  | .type found expected =>
    "invalid type: " ++ found.description ++ ", expected " ++ expected.description
  | .range value expected =>
    "invalid value: " ++ Found.description (.number (.int value)) ++ ", expected " ++
      expected.description
  | .missing field => "missing field `" ++ field ++ "`"
  | .duplicate field => "duplicate field `" ++ field ++ "`"
  | .short length record fields =>
    "invalid length " ++ toString length ++ ", expected struct " ++ record ++ " with " ++
      toString fields ++ " elements"
  | .refused reason => reason

end QueryFormula.Json
