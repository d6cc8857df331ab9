import QueryFormula.Text.CaseTable

/-!
# Lower case

The full lower-case form of a text, which names are compared by when letter case is ignored.  Two
characters go beyond the simple mapping: `İ` becomes `i` with a dot above, and a capital sigma at
the end of a word becomes the final sigma.
-/

namespace QueryFormula.Text

/-- Whether a character is an upper-case, lower-case or title-case letter. -/
def isCased (c : Char) : Bool :=
  c.isAlpha || casedTable.contains c

/-- The simple lower-case form of a character. -/
def lowerChar (c : Char) : Char :=
  match lowerRuns.find? (·.covers c.toNat) with
  | some run => Char.ofNat (c.toNat + run.shift).toNat
  | none => c.toLower

/-- Whether a cased letter comes first once the characters that case ignores are skipped. -/
def meetsCased (text : List Char) : Bool :=
  match text.dropWhile caseIgnorableTable.contains with
  | [] => false
  | c :: _ => isCased c

/-- The lower-case form of a text after the characters `before`, nearest first.  A sigma is final
when a letter comes before it and none after it. -/
def lowerAfter (before : List Char) : List Char → List Char
  | [] => []
  | 'Σ' :: rest =>
    (if meetsCased before && !meetsCased rest then 'ς' else 'σ') :: lowerAfter ('Σ' :: before) rest
  | 'İ' :: rest => 'i' :: '\u0307' :: lowerAfter ('İ' :: before) rest
  | c :: rest => lowerChar c :: lowerAfter (c :: before) rest

/-- The full lower-case form of a text. -/
def lowerCase (text : List Char) : List Char :=
  lowerAfter [] text

/-- Whether two names differ at most in letter case. -/
def sameIgnoringCase (a b : String) : Bool :=
  lowerCase a.toList == lowerCase b.toList

end QueryFormula.Text
