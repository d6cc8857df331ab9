import QueryFormula.Json.Found

/-!
# Readers

A reader takes a value of one type from the front of a JSON text and leaves less text than it was
given.  That it leaves less is part of the reader, so the items of an array and the members of an
object can be read one after the other until the closing bracket.
-/

namespace QueryFormula.Json

/-- How to read a value of type `α` at the front of a text. -/
structure Reader (α : Type) where
  run : List Char → Except Fault (α × List Char)
  shorter : ∀ {s rest : List Char} {a : α}, run s = .ok (a, rest) → rest.length < s.length

namespace Reader

variable {α β σ : Type}

/-- The reader that goes on with each value by a function that may find a fault. -/
def checked (reader : Reader α) (f : α → Except Fault β) : Reader β where
  run s := match reader.run s with
    | .error fault => .error fault
    | .ok (a, rest) => (f a).map (·, rest)
  shorter {s rest b} h := by
    split at h
    · contradiction
    · next a r hr =>
      obtain ⟨c, -, heq⟩ := map_eq_ok_iff.mp h
      cases heq
      exact reader.shorter hr

/-- The reader that changes each value by a function. -/
def map (reader : Reader α) (f : α → β) : Reader β :=
  reader.checked fun a => .ok (f a)

/-- Goes on after an item of a container: whether another one follows or the container closes. -/
def readSeparator (close : Char) (s : List Char) : Except Fault (Bool × List Char) :=
  match skipSpace s with
  | [] => .error .ended
  | c :: rest =>
    if c = ',' then .ok (true, rest)
    else if c = close then .ok (false, rest)
    else .error .malformed

theorem length_lt_of_readSeparator {close : Char} {s rest : List Char} {more : Bool}
    (h : readSeparator close s = .ok (more, rest)) : rest.length < s.length := by
  refine Nat.lt_of_lt_of_le ?_ (length_skipSpace_le s)
  unfold readSeparator at h
  split at h
  · contradiction
  · next hs =>
    rw [hs]
    split at h
    · cases h
      exact Nat.lt_succ_self _
    · split at h
      · cases h
        exact Nat.lt_succ_self _
      · contradiction

/-- The items of an array up to its closing bracket; at least one is expected. -/
def itemsOf (item : Reader α) (s : List Char) : Except Fault (List α × List Char) :=
  match _h : item.run s with
  | .error fault => .error fault
  | .ok (a, rest) =>
    match _hsep : readSeparator ']' rest with
    | .error fault => .error fault
    | .ok (false, rest) => .ok ([a], rest)
    | .ok (true, rest) =>
      match itemsOf item rest with
      | .error fault => .error fault
      | .ok (as, rest) => .ok (a :: as, rest)
termination_by s.length
decreasing_by exact Nat.lt_trans (length_lt_of_readSeparator _hsep) (item.shorter _h)

/-- An array after its opening bracket. -/
def elements (item : Reader α) (s : List Char) : Except Fault (List α × List Char) :=
  match skipSpace s with
  | ']' :: rest => .ok ([], rest)
  | s => itemsOf item s

/-- The key of a member. -/
def readKey (purpose : Purpose) (s : List Char) : Except Fault (String × List Char) :=
  match skipSpace s with
  | [] => .error .ended
  | '"' :: rest => (readString purpose rest).map fun (text, rest) => (String.ofList text, rest)
  | _ :: _ => .error .malformed

/-- The text after the colon of a member. -/
def readColon (s : List Char) : Except Fault (List Char) :=
  match skipSpace s with
  | [] => .error .ended
  | ':' :: rest => .ok rest
  | _ :: _ => .error .malformed

/-- One member of an object.  The key decides how its value is read and what it does to the
state. -/
def memberOf (purpose : Purpose) (member : σ → String → Except Fault (Reader σ)) (state : σ)
    (s : List Char) : Except Fault (σ × List Char) := do
  let (key, s) ← readKey purpose s
  let value ← member state key
  let s ← readColon s
  value.run s

theorem length_lt_of_readKey {purpose : Purpose} {s rest : List Char} {key : String}
    (h : readKey purpose s = .ok (key, rest)) : rest.length < s.length := by
  refine Nat.lt_of_lt_of_le ?_ (length_skipSpace_le s)
  unfold readKey at h
  split at h
  · contradiction
  · next hs =>
    obtain ⟨pair, hr, heq⟩ := map_eq_ok_iff.mp h
    cases heq
    rw [hs]
    exact Nat.lt_succ_of_lt (length_lt_of_readString hr)
  · contradiction

theorem length_lt_of_readColon {s rest : List Char} (h : readColon s = .ok rest) :
    rest.length < s.length := by
  refine Nat.lt_of_lt_of_le ?_ (length_skipSpace_le s)
  unfold readColon at h
  split at h
  · contradiction
  · next hs =>
    cases h
    rw [hs]
    exact Nat.lt_succ_self _
  · contradiction

theorem length_lt_of_memberOf {purpose : Purpose} {member : σ → String → Except Fault (Reader σ)}
    {state state' : σ} {s rest : List Char}
    (h : memberOf purpose member state s = .ok (state', rest)) :
    rest.length < s.length := by
  obtain ⟨key, hk, h⟩ := bind_eq_ok_iff.mp h
  obtain ⟨value, hm, h⟩ := bind_eq_ok_iff.mp h
  obtain ⟨s', hc, h⟩ := bind_eq_ok_iff.mp h
  have h₁ := length_lt_of_readKey hk
  have h₂ := length_lt_of_readColon hc
  have h₃ := value.shorter h
  omega

/-- The members of an object up to its closing brace; at least one is expected. -/
def membersOf (purpose : Purpose) (member : σ → String → Except Fault (Reader σ)) (state : σ)
    (s : List Char) : Except Fault (σ × List Char) :=
  match _h : memberOf purpose member state s with
  | .error fault => .error fault
  | .ok (state, rest) =>
    match _hsep : readSeparator '\x7d' rest with
    | .error fault => .error fault
    | .ok (false, rest) => .ok (state, rest)
    | .ok (true, rest) => membersOf purpose member state rest
termination_by s.length
decreasing_by exact Nat.lt_trans (length_lt_of_readSeparator _hsep) (length_lt_of_memberOf _h)

/-- An object after its opening brace. -/
def members (purpose : Purpose) (member : σ → String → Except Fault (Reader σ)) (state : σ)
    (s : List Char) : Except Fault (σ × List Char) :=
  match skipSpace s with
  | '\x7d' :: rest => .ok (state, rest)
  | s => membersOf purpose member state s

theorem length_lt_of_itemsOf {item : Reader α} {s rest : List Char} {as : List α}
    (h : itemsOf item s = .ok (as, rest)) : rest.length < s.length := by
  fun_induction itemsOf item s generalizing as rest with
  | case1 => contradiction
  | case2 => contradiction
  | case3 s a r hr r' hsep =>
    cases h
    exact Nat.lt_trans (length_lt_of_readSeparator hsep) (item.shorter hr)
  | case4 => contradiction
  | case5 s a r hr r' hsep as' r'' htail ih =>
    cases h
    exact Nat.lt_trans (ih htail)
      (Nat.lt_trans (length_lt_of_readSeparator hsep) (item.shorter hr))

theorem length_le_of_elements {item : Reader α} {s rest : List Char} {as : List α}
    (h : elements item s = .ok (as, rest)) : rest.length ≤ s.length := by
  refine Nat.le_trans ?_ (length_skipSpace_le s)
  unfold elements at h
  split at h
  · next hs =>
    cases h
    simp [hs]
  · exact Nat.le_of_lt (length_lt_of_itemsOf h)

theorem length_lt_of_membersOf {purpose : Purpose} {member : σ → String → Except Fault (Reader σ)}
    {state state' : σ} {s rest : List Char}
    (h : membersOf purpose member state s = .ok (state', rest)) :
    rest.length < s.length := by
  fun_induction membersOf purpose member state s generalizing state' rest with
  | case1 => contradiction
  | case2 => contradiction
  | case3 state s st r hr r' hsep =>
    cases h
    exact Nat.lt_trans (length_lt_of_readSeparator hsep) (length_lt_of_memberOf hr)
  | case4 state s st r hr r' hsep ih =>
    exact Nat.lt_trans (ih h)
      (Nat.lt_trans (length_lt_of_readSeparator hsep) (length_lt_of_memberOf hr))

theorem length_le_of_members {purpose : Purpose} {member : σ → String → Except Fault (Reader σ)}
    {state state' : σ} {s rest : List Char}
    (h : members purpose member state s = .ok (state', rest)) :
    rest.length ≤ s.length := by
  refine Nat.le_trans ?_ (length_skipSpace_le s)
  unfold members at h
  split at h
  · next hs =>
    cases h
    simp [hs]
  · exact Nat.le_of_lt (length_lt_of_membersOf h)

/-- The reader that looks at what stands first and goes on in the text after it. -/
def branch (purpose : Purpose) (next : Found → List Char → Except Fault (α × List Char))
    (le : ∀ {found : Found} {s rest : List Char} {a : α},
      next found s = .ok (a, rest) → rest.length ≤ s.length) : Reader α where
  run s := match readFound purpose s with
    | .error fault => .error fault
    | .ok (found, rest) => next found rest
  shorter {s rest a} h := by
    split at h
    · contradiction
    · next hr =>
      have := length_lt_of_readFound hr
      have := le h
      omega

/-- The reader of arrays. -/
def sequence (item : Reader α) : Reader (List α) :=
  branch .keep
    (fun
      | .sequence, s => elements item s
      | found, _ => .error (.mismatch (.type found .sequence)))
    (by
      intro found s rest a h
      split at h
      · exact length_le_of_elements h
      · contradiction)

/-- The reader of values that a scalar of a document stands for. -/
def scalar (f : Found → Except Mismatch α) : Reader α :=
  branch .keep
    (fun found s => match f found with
      | .ok a => .ok (a, s)
      | .error cause => .error (.mismatch cause))
    (by
      intro found s rest a h
      split at h
      · cases h
        exact Nat.le_refl _
      · contradiction)

/-- The reader of texts. -/
def text : Reader String :=
  scalar fun
    | .text s => .ok s
    | found => .error (.type found .text)

/-- The reader of truth values. -/
def boolean : Reader Bool :=
  scalar fun
    | .boolean b => .ok b
    | found => .error (.type found .boolean)

/-- The reader of signed integers of 64 bits. -/
def int64 : Reader Int64 :=
  scalar fun
    | .number (.int n) => match n.toInt64? with
      | some value => .ok value
      | none => .error (.range n .int64)
    | found => .error (.type found .int64)

/-- The value that a whole document stands for. -/
def document (reader : Reader α) (source : String) : Except Fault α :=
  match reader.run source.toList with
  | .error fault => .error fault
  | .ok (a, rest) => if (skipSpace rest).isEmpty then .ok a else .error .malformed

end Reader
end QueryFormula.Json
