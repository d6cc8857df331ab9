/-!
# Ordered names

Sets of names and maps from names, kept in ascending order without repetition.  Inserting a name
that is there already keeps a set as it is and replaces the value in a map.
-/

namespace QueryFormula

/-- A map from names as the list of its entries in ascending order of the names. -/
def AscendingKeys {α : Type} (entries : List (String × α)) : Prop :=
  entries.Pairwise fun a b => a.1 < b.1

/-- The entries with the value of one key set. -/
def insertKey {α : Type} (key : String) (value : α) : List (String × α) → List (String × α)
  | [] => [(key, value)]
  | (k, a) :: rest =>
    if key < k then (key, value) :: (k, a) :: rest
    else if key = k then (key, value) :: rest
    else (k, a) :: insertKey key value rest

/-- The map of a list of entries; the last one of a key counts. -/
def sortKeys {α : Type} (entries : List (String × α)) : List (String × α) :=
  entries.foldl (fun sorted entry => insertKey entry.1 entry.2 sorted) []

theorem eq_or_mem_of_mem_insertKey {α : Type} {key : String} {value : α}
    {entries : List (String × α)} {entry : String × α}
    (h : entry ∈ insertKey key value entries) :
    entry = (key, value) ∨ entry ∈ entries := by
  induction entries with
  | nil => simp_all [insertKey]
  | cons head rest ih =>
    obtain ⟨k, a⟩ := head
    simp only [insertKey] at h
    split at h
    · rcases List.mem_cons.1 h with rfl | h
      · exact .inl rfl
      · exact .inr h
    · split at h
      · rcases List.mem_cons.1 h with rfl | h
        · exact .inl rfl
        · exact .inr (List.mem_cons_of_mem _ h)
      · rcases List.mem_cons.1 h with rfl | h
        · exact .inr List.mem_cons_self
        · exact (ih h).imp_right (List.mem_cons_of_mem _)

theorem ascendingKeys_insertKey {α : Type} {entries : List (String × α)}
    (h : AscendingKeys entries) (key : String) (value : α) :
    AscendingKeys (insertKey key value entries) := by
  induction entries with
  | nil => simp [insertKey, AscendingKeys]
  | cons head rest ih =>
    obtain ⟨k, a⟩ := head
    obtain ⟨hhead, hrest⟩ := List.pairwise_cons.1 h
    simp only [insertKey]
    split
    · next hlt =>
      refine List.pairwise_cons.2 ⟨fun e he => ?_, h⟩
      rcases List.mem_cons.1 he with rfl | he
      · exact hlt
      · exact String.lt_trans hlt (hhead e he)
    · next hnlt =>
      split
      · next heq =>
        subst heq
        exact List.pairwise_cons.2 ⟨hhead, hrest⟩
      · next hne =>
        refine List.pairwise_cons.2 ⟨fun e he => ?_, ih hrest⟩
        rcases eq_or_mem_of_mem_insertKey he with rfl | he
        · exact Std.lt_of_le_of_ne (String.not_lt.1 hnlt) (Ne.symm hne)
        · exact hhead e he

theorem ascendingKeys_sortKeys {α : Type} (entries : List (String × α)) :
    AscendingKeys (sortKeys entries) := by
  suffices h : ∀ sorted : List (String × α), AscendingKeys sorted →
      AscendingKeys (entries.foldl (fun s entry => insertKey entry.1 entry.2 s) sorted) from
    h [] .nil
  induction entries with
  | nil => exact fun _ h => h
  | cons entry rest ih => exact fun s h => ih _ (ascendingKeys_insertKey h _ _)

/-- An entry above all others goes to the end. -/
theorem insertKey_of_above {α : Type} {key : String} {value : α} {entries : List (String × α)}
    (h : ∀ entry ∈ entries, entry.1 < key) :
    insertKey key value entries = entries ++ [(key, value)] := by
  induction entries with
  | nil => rfl
  | cons head rest ih =>
    have hlt : head.1 < key := h head List.mem_cons_self
    rw [insertKey, if_neg (String.lt_asymm hlt), if_neg (String.ne_of_lt hlt).symm,
      ih fun entry he => h entry (List.mem_cons_of_mem _ he), List.cons_append]

/-- Entries that are in order already are their own map. -/
theorem sortKeys_of_ascending {α : Type} {entries : List (String × α)}
    (h : AscendingKeys entries) : sortKeys entries = entries := by
  suffices hfold : ∀ sorted : List (String × α), AscendingKeys (sorted ++ entries) →
      entries.foldl (fun s entry => insertKey entry.1 entry.2 s) sorted = sorted ++ entries from
    hfold [] h
  clear h
  induction entries with
  | nil => exact fun sorted _ => (List.append_nil sorted).symm
  | cons entry rest ih =>
    intro sorted hsorted
    have habove : ∀ e ∈ sorted, e.1 < entry.1 := fun e he =>
      (List.pairwise_append.1 hsorted).2.2 e he entry List.mem_cons_self
    rw [List.append_cons] at hsorted ⊢
    rw [List.foldl_cons, insertKey_of_above habove, ih _ hsorted]

/-- The names with one more. -/
def insertName (name : String) : List String → List String
  | [] => [name]
  | n :: rest =>
    if name < n then name :: n :: rest
    else if name = n then n :: rest
    else n :: insertName name rest

/-- The ascending names of a list, each once. -/
def sortNames (names : List String) : List String :=
  names.foldl (fun sorted name => insertName name sorted) []

theorem mem_insertName {name n : String} {names : List String} :
    n ∈ insertName name names ↔ n = name ∨ n ∈ names := by
  induction names with
  | nil => simp [insertName]
  | cons head rest ih =>
    simp only [insertName]
    split
    · simp
    · split
      · next heq => simp [heq]
      · simp only [List.mem_cons, ih]
        constructor <;> rintro (h | h | h) <;> simp [h]

theorem pairwise_insertName {names : List String} (h : names.Pairwise (· < ·)) (name : String) :
    (insertName name names).Pairwise (· < ·) := by
  induction names with
  | nil => simp [insertName]
  | cons head rest ih =>
    obtain ⟨hhead, hrest⟩ := List.pairwise_cons.1 h
    simp only [insertName]
    split
    · next hlt =>
      refine List.pairwise_cons.2 ⟨fun n hn => ?_, h⟩
      rcases List.mem_cons.1 hn with rfl | hn
      · exact hlt
      · exact String.lt_trans hlt (hhead n hn)
    · next hnlt =>
      split
      · exact h
      · next hne =>
        refine List.pairwise_cons.2 ⟨fun n hn => ?_, ih hrest⟩
        rcases mem_insertName.1 hn with rfl | hn
        · exact Std.lt_of_le_of_ne (String.not_lt.1 hnlt) (Ne.symm hne)
        · exact hhead n hn

theorem pairwise_sortNames (names : List String) : (sortNames names).Pairwise (· < ·) := by
  suffices h : ∀ sorted : List String, sorted.Pairwise (· < ·) →
      (names.foldl (fun s name => insertName name s) sorted).Pairwise (· < ·) from
    h [] .nil
  induction names with
  | nil => exact fun _ h => h
  | cons name rest ih => exact fun s h => ih _ (pairwise_insertName h _)

/-- A name above all others goes to the end. -/
theorem insertName_of_above {name : String} {names : List String}
    (h : ∀ n ∈ names, n < name) : insertName name names = names ++ [name] := by
  induction names with
  | nil => rfl
  | cons head rest ih =>
    have hlt : head < name := h head List.mem_cons_self
    rw [insertName, if_neg (String.lt_asymm hlt), if_neg (String.ne_of_lt hlt).symm,
      ih fun n hn => h n (List.mem_cons_of_mem _ hn), List.cons_append]

/-- Names that are in order already are their own set. -/
theorem sortNames_of_ascending {names : List String} (h : names.Pairwise (· < ·)) :
    sortNames names = names := by
  suffices hfold : ∀ sorted : List String, (sorted ++ names).Pairwise (· < ·) →
      names.foldl (fun s name => insertName name s) sorted = sorted ++ names from
    hfold [] h
  clear h
  induction names with
  | nil => exact fun sorted _ => (List.append_nil sorted).symm
  | cons name rest ih =>
    intro sorted hsorted
    have habove : ∀ n ∈ sorted, n < name := fun n hn =>
      (List.pairwise_append.1 hsorted).2.2 n hn name List.mem_cons_self
    rw [List.append_cons] at hsorted ⊢
    rw [List.foldl_cons, insertName_of_above habove, ih _ hsorted]

/-- A finite set of names. -/
structure NameSet where
  names : List String
  ascending : names.Pairwise (· < ·)
deriving DecidableEq

namespace NameSet

/-- The set of the names in a list. -/
def ofList (names : List String) : NameSet :=
  ⟨sortNames names, pairwise_sortNames names⟩

/-- The names of a set are its list of names. -/
theorem ofList_names (set : NameSet) : ofList set.names = set := by
  obtain ⟨names, hascending⟩ := set
  simp only [ofList, sortNames_of_ascending hascending]

/-- Whether a name belongs to the set. -/
def contains (set : NameSet) (name : String) : Bool :=
  set.names.contains name

end NameSet

/-- A finite map from names to texts. -/
structure NameMap where
  entries : List (String × String)
  ascending : AscendingKeys entries
deriving DecidableEq

namespace NameMap

/-- The map of a list of entries; the last one of a name counts. -/
def ofList (entries : List (String × String)) : NameMap :=
  ⟨sortKeys entries, ascendingKeys_sortKeys entries⟩

/-- The entries of a map are its list of entries. -/
theorem ofList_entries (map : NameMap) : ofList map.entries = map := by
  obtain ⟨entries, hascending⟩ := map
  simp only [ofList, sortKeys_of_ascending hascending]

/-- The text of a name, if it has one. -/
def find? (map : NameMap) (name : String) : Option String :=
  map.entries.lookup name

end NameMap
end QueryFormula
