import QueryFormula.Json.Record

/-!
# What readers give

A property of all that a reader gives, whatever text it is given.  An array has the
property item by item, and an object is read with an invariant that each of its
members preserves; for a record this is what every field preserves when it is set.
-/

namespace QueryFormula.Json

namespace Reader

variable {α β σ : Type}

/-- Everything that the reader gives has the property. -/
def Gives (reader : Reader α) (p : α → Prop) : Prop :=
  ∀ ⦃s rest : List Char⦄ ⦃a : α⦄, reader.run s = .ok (a, rest) → p a

theorem gives_true (reader : Reader α) :
    reader.Gives fun _ => True :=
  fun _ _ _ _ => trivial

theorem Gives.document
    {reader : Reader α} {p : α → Prop} (h : reader.Gives p) {source : String} {a : α}
    (hread : reader.document source = .ok a) :
    p a := by
  rw [Reader.document] at hread
  split at hread
  · contradiction
  · rename_i hrun
    split at hread
    · cases hread
      exact h hrun
    · contradiction

theorem Gives.checked
    {reader : Reader α} {p : α → Prop} (h : reader.Gives p) {f : α → Except Fault β}
    {q : β → Prop} (hf : ∀ a b, p a → f a = .ok b → q b) :
    (reader.checked f).Gives q := by
  intro s rest b hread
  rw [Reader.checked] at hread
  dsimp only at hread
  split at hread
  · contradiction
  · rename_i a after hrun
    obtain ⟨c, hc, heq⟩ := map_eq_ok_iff.mp hread
    cases heq
    exact hf a _ (h hrun) hc

theorem Gives.map
    {reader : Reader α} {p : α → Prop} (h : reader.Gives p) {f : α → β}
    {q : β → Prop} (hf : ∀ a, p a → q (f a)) :
    (reader.map f).Gives q := by
  refine h.checked fun a b ha hb => ?_
  rw [← Except.ok.inj hb]
  exact hf a ha

/-- What a reader gives that looks at what stands first. -/
theorem gives_of_run
    {reader : Reader α} {next : Found → List Char → Except Fault (α × List Char)}
    {purpose : Purpose}
    (hrun : ∀ s, reader.run s = match readFound purpose s with
      | .error fault => .error fault
      | .ok (found, rest) => next found rest)
    {p : α → Prop}
    (h : ∀ found s rest a, next found s = .ok (a, rest) → p a) :
    reader.Gives p := by
  intro s rest a hread
  rw [hrun] at hread
  split at hread
  · contradiction
  · exact h _ _ _ _ hread

/-! ## Arrays -/

theorem Gives.itemsOf
    {item : Reader α} {p : α → Prop} (h : item.Gives p) {s rest : List Char} {as : List α}
    (hread : itemsOf item s = .ok (as, rest)) :
    ∀ a ∈ as, p a := by
  fun_induction Reader.itemsOf item s generalizing as rest with
  | case1 => contradiction
  | case2 => contradiction
  | case3 s a after hitem rest' hseparator =>
      cases hread
      exact List.forall_mem_singleton.mpr (h hitem)
  | case4 => contradiction
  | case5 s a after hitem rest' hseparator as' rest'' hnext ih =>
      cases hread
      exact List.forall_mem_cons.mpr ⟨h hitem, ih hnext⟩

theorem Gives.elements
    {item : Reader α} {p : α → Prop} (h : item.Gives p) {s rest : List Char} {as : List α}
    (hread : elements item s = .ok (as, rest)) :
    ∀ a ∈ as, p a := by
  rw [Reader.elements] at hread
  split at hread
  · cases hread
    exact fun a ha => absurd ha List.not_mem_nil
  · exact h.itemsOf hread

theorem Gives.sequence
    {item : Reader α} {p : α → Prop} (h : item.Gives p) :
    (sequence item).Gives fun as => ∀ a ∈ as, p a := by
  refine gives_of_run (fun _ => rfl) fun found s rest as hread => ?_
  split at hread
  · exact h.elements hread
  · contradiction

/-! ## Objects -/

/-- The members of an object preserve a property of the state. -/
def Preserves (member : σ → String → Except Fault (Reader σ)) (p : σ → Prop) : Prop :=
  ∀ ⦃state key reader⦄, p state → member state key = .ok reader → reader.Gives p

theorem Preserves.memberOf
    {member : σ → String → Except Fault (Reader σ)} {p : σ → Prop} (h : Preserves member p)
    {purpose : Purpose} {state last : σ} (hstate : p state) {s rest : List Char}
    (hread : memberOf purpose member state s = .ok (last, rest)) :
    p last := by
  obtain ⟨key, -, hread⟩ := bind_eq_ok_iff.mp hread
  obtain ⟨reader, hmember, hread⟩ := bind_eq_ok_iff.mp hread
  obtain ⟨after, -, hread⟩ := bind_eq_ok_iff.mp hread
  exact h hstate hmember hread

theorem Preserves.membersOf
    {member : σ → String → Except Fault (Reader σ)} {p : σ → Prop} (h : Preserves member p)
    {purpose : Purpose} {state last : σ} (hstate : p state) {s rest : List Char}
    (hread : membersOf purpose member state s = .ok (last, rest)) :
    p last := by
  fun_induction Reader.membersOf purpose member state s generalizing last rest with
  | case1 => contradiction
  | case2 => contradiction
  | case3 state s next after hmember rest' hseparator =>
      cases hread
      exact h.memberOf hstate hmember
  | case4 state s next after hmember rest' hseparator ih =>
      exact ih (h.memberOf hstate hmember) hread

theorem Preserves.members
    {member : σ → String → Except Fault (Reader σ)} {p : σ → Prop} (h : Preserves member p)
    {purpose : Purpose} {state last : σ} (hstate : p state) {s rest : List Char}
    (hread : members purpose member state s = .ok (last, rest)) :
    p last := by
  rw [Reader.members] at hread
  split at hread
  · cases hread
    exact hstate
  · exact h.membersOf hstate hread

end Reader

/-! ## Records -/

namespace Record

open Reader

variable {σ : Type} {record : Record σ} {p : σ → Prop}

/-- Every field of a record preserves a property of the record when it is set. -/
def FieldsPreserve (record : Record σ) (p : σ → Prop) : Prop :=
  ∀ field ∈ record.fields, field.reader.Gives fun set => ∀ value, p value → p (set value)

theorem FieldsPreserve.member
    (h : record.FieldsPreserve p) :
    Preserves record.member fun state => p state.1 := by
  intro state key reader hstate hmember
  rw [Record.member] at hmember
  split at hmember
  · cases hmember
    exact (gives_true skipped).map fun _ _ => hstate
  · rename_i field hfind
    split at hmember
    · contradiction
    · cases hmember
      exact (h field (List.mem_of_find?_eq_some hfind)).map fun set hset => hset _ hstate

theorem FieldsPreserve.ofMembers
    (h : record.FieldsPreserve p) (hstart : p record.start) {s rest : List Char} {value : σ}
    (hread : record.ofMembers s = .ok (value, rest)) :
    p value := by
  rw [Record.ofMembers] at hread
  split at hread
  · contradiction
  · rename_i hmembers
    split at hread
    · contradiction
    · cases hread
      exact h.member.members hstart hmembers

theorem gives_fieldsFrom
    {fields : List (Field σ)}
    (h : ∀ field ∈ fields, field.reader.Gives fun set => ∀ value, p value → p (set value))
    {position : Nat} {start value : σ} (hstart : p start) {s rest : List Char}
    (hread : record.fieldsFrom fields position start s = .ok (value, rest)) :
    p value := by
  induction fields generalizing position start s with
  | nil =>
      obtain ⟨after, -, heq⟩ := map_eq_ok_iff.mp hread
      cases heq
      exact hstart
  | cons field fields ih =>
      rw [fieldsFrom] at hread
      split at hread
      · contradiction
      · split at hread
        · contradiction
        · cases hread
          exact hstart
      · split at hread
        · contradiction
        · rename_i hfield
          have hset := h field List.mem_cons_self hfield
          exact ih (fun field hmem => h field (List.mem_cons_of_mem _ hmem)) (hset _ hstart) hread

/-- A record has the property when it starts with it and every field preserves it. -/
theorem FieldsPreserve.reader
    (h : record.FieldsPreserve p) (hstart : p record.start) :
    record.reader.Gives p := by
  refine gives_of_run (fun _ => rfl) fun found s rest value hread => ?_
  unfold after at hread
  split at hread
  · exact gives_fieldsFrom h hstart hread
  · exact h.ofMembers hstart hread
  · contradiction

end Record
end QueryFormula.Json
