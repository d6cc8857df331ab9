import QueryFormula.Json.Value

/-!
# Reading records

A record is an object with known fields, or an array with the values of its fields in order.
Fields that are not required keep the value they start with.  In an object other members are passed
over, no field may come twice, and the fields that are missing are noticed at its end.
-/

namespace QueryFormula.Json

/-- A field of a record of type `σ`: how it is read, and whether it must be there. -/
structure Field (σ : Type) where
  name : String
  required : Bool
  reader : Reader (σ → σ)

/-- The field that a function sets, which keeps its start value when it is absent. -/
def Field.optional {σ α : Type} (name : String) (reader : Reader α) (set : α → σ → σ) : Field σ :=
  ⟨name, false, reader.map set⟩

/-- The field that a function sets and that must be there. -/
def Field.needed {σ α : Type} (name : String) (reader : Reader α) (set : α → σ → σ) : Field σ :=
  ⟨name, true, reader.map set⟩

/-- A type of records: its name, the record before any field is read, and its fields in order. -/
structure Record (σ : Type) where
  name : String
  start : σ
  fields : List (Field σ)

namespace Record

open Reader

variable {σ : Type}

/-- How the member of a key changes a record of which some fields have been seen. -/
def member (record : Record σ) (state : σ × List String) (key : String) :
    Except Fault (Reader (σ × List String)) :=
  match record.fields.find? (·.name == key) with
  | none => .ok (skipped.map fun _ => state)
  | some field =>
    if state.2.contains key then .error (.mismatch (.duplicate key))
    else .ok (field.reader.map fun set => (set state.1, key :: state.2))

/-- A record as an object, after its opening brace. -/
def ofMembers (record : Record σ) (s : List Char) : Except Fault (σ × List Char) :=
  match members .keep record.member (record.start, []) s with
  | .error fault => .error fault
  | .ok ((value, seen), rest) =>
    match record.fields.find? fun field => field.required && !seen.contains field.name with
    | some field => .error (.mismatch (.missing field.name))
    | none => .ok (value, rest)

/-- Goes to the value at a position of an array: whether there is one, or the array closes. -/
def readNext (position : Nat) (s : List Char) : Except Fault (Bool × List Char) :=
  match skipSpace s with
  | [] => .error .ended
  | c :: rest =>
    if c = ']' then .ok (false, rest)
    else if position = 0 then .ok (true, c :: rest)
    else if c = ',' then .ok (true, rest)
    else .error .malformed

/-- The text after the closing bracket of an array. -/
def readClose (s : List Char) : Except Fault (List Char) :=
  match skipSpace s with
  | [] => .error .ended
  | c :: rest => if c = ']' then .ok rest else .error .malformed

/-- The fields of an array from a position on.  An array may end early when it lacks no field that
must be there. -/
def fieldsFrom (record : Record σ) :
    List (Field σ) → Nat → σ → List Char → Except Fault (σ × List Char)
  | [], _, value, s => (readClose s).map (value, ·)
  | field :: fields, position, value, s =>
    match readNext position s with
    | .error fault => .error fault
    | .ok (false, rest) =>
      match (field :: fields).findIdx? (·.required) with
      | some i => .error (.mismatch (.short (position + i) record.name record.fields.length))
      | none => .ok (value, rest)
    | .ok (true, s) =>
      match field.reader.run s with
      | .error fault => .error fault
      | .ok (set, s) => fieldsFrom record fields (position + 1) (set value) s

/-- A record as an array, after its opening bracket. -/
def ofItems (record : Record σ) (s : List Char) : Except Fault (σ × List Char) :=
  record.fieldsFrom record.fields 0 record.start s

theorem length_le_of_ofMembers {record : Record σ} {s rest : List Char} {value : σ}
    (h : record.ofMembers s = .ok (value, rest)) : rest.length ≤ s.length := by
  unfold ofMembers at h
  split at h
  · contradiction
  · next hm =>
    split at h
    · contradiction
    · cases h
      exact length_le_of_members hm

theorem length_le_of_readNext {position : Nat} {s rest : List Char} {more : Bool}
    (h : readNext position s = .ok (more, rest)) : rest.length ≤ s.length := by
  refine Nat.le_trans ?_ (length_skipSpace_le s)
  unfold readNext at h
  split at h
  · contradiction
  · next hs =>
    rw [hs]
    split at h
    · cases h
      exact Nat.le_succ _
    · split at h
      · cases h
        exact Nat.le_refl _
      · split at h
        · cases h
          exact Nat.le_succ _
        · contradiction

theorem length_le_of_readClose {s rest : List Char} (h : readClose s = .ok rest) :
    rest.length ≤ s.length := by
  refine Nat.le_trans ?_ (length_skipSpace_le s)
  unfold readClose at h
  split at h
  · contradiction
  · next hs =>
    rw [hs]
    split at h
    · cases h
      exact Nat.le_succ _
    · contradiction

theorem length_le_of_fieldsFrom {record : Record σ} {fields : List (Field σ)} {position : Nat}
    {value value' : σ} {s rest : List Char}
    (h : record.fieldsFrom fields position value s = .ok (value', rest)) :
    rest.length ≤ s.length := by
  induction fields generalizing position value s with
  | nil =>
    obtain ⟨r, hr, heq⟩ := map_eq_ok_iff.mp h
    cases heq
    exact length_le_of_readClose hr
  | cons field fields ih =>
    rw [fieldsFrom] at h
    split at h
    · contradiction
    · next hn =>
      split at h
      · contradiction
      · cases h
        exact length_le_of_readNext hn
    · next hn =>
      split at h
      · contradiction
      · next hf =>
        exact Nat.le_trans (ih h)
          (Nat.le_trans (Nat.le_of_lt (field.reader.shorter hf)) (length_le_of_readNext hn))

/-- A record after the bracket or brace that opens it; a scalar is no record. -/
def after (record : Record σ) (found : Found) (s : List Char) : Except Fault (σ × List Char) :=
  match found with
  | .sequence => record.ofItems s
  | .map => record.ofMembers s
  | found => .error (.mismatch (.type found (.record record.name)))

theorem length_le_of_after {record : Record σ} {found : Found} {s rest : List Char} {value : σ}
    (h : record.after found s = .ok (value, rest)) : rest.length ≤ s.length := by
  unfold after at h
  split at h
  · exact length_le_of_fieldsFrom h
  · exact length_le_of_ofMembers h
  · contradiction

/-- The reader of a record. -/
def reader (record : Record σ) : Reader σ :=
  branch .keep record.after length_le_of_after

/-- The reader of a record or of null in its place. -/
def orNull (record : Record σ) : Reader (Option σ) :=
  branch .keep
    (fun
      | .null, s => .ok (none, s)
      | found, s => (record.after found s).map fun (value, rest) => (some value, rest))
    (by
      intro found s rest a h
      split at h
      · cases h
        exact Nat.le_refl _
      · obtain ⟨pair, hr, heq⟩ := map_eq_ok_iff.mp h
        cases heq
        exact length_le_of_after hr)

end Record

/-- The reader of a set of names, given as an array. -/
def nameSet : Reader NameSet :=
  (Reader.sequence .text).map .ofList

/-- The reader of a map from names to texts, given as an object. -/
def nameMap : Reader NameMap :=
  (Reader.branch .keep
    (fun
      | .map, s => Reader.members .keep
          (fun (entries : List (String × String)) key =>
            .ok (Reader.text.map fun text => entries ++ [(key, text)])) [] s
      | found, _ => .error (.mismatch (.type found .map)))
    (by
      intro found s rest a h
      split at h
      · exact Reader.length_le_of_members h
      · contradiction)).map .ofList

end QueryFormula.Json
