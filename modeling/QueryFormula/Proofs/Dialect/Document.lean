import QueryFormula.Dialect.Json
import QueryFormula.Proofs.Json.Record

/-!
# Dialects read back

The document of a dialect is read as the dialect, and an excerpt of it as the dialect
limited to the fields that are given: the others are those of the standard dialect,
also in a section of which only some fields are given.
-/

namespace QueryFormula

open QueryFormula.Json

/-! ## Parts of a dialect -/

theorem reads_nameSet (set : NameSet) :
    nameSet.Reads set.toJson set := by
  have hreads : (Reader.sequence .text).Reads set.toJson set.names :=
    Reader.reads_sequence_map fun name _ => Reader.reads_text name
  have hset := hreads.map NameSet.ofList
  rwa [set.ofList_names] at hset

/-- The entries of a map are collected in the order in which they stand. -/
theorem steps_entries
    (entries before : List (String × String)) :
    Reader.Steps
      (fun (entries : List (String × String)) key =>
        .ok (Reader.text.map fun text => entries ++ [(key, text)]))
      before (entries.map fun entry => (entry.1, .str entry.2)) (before ++ entries) := by
  induction entries generalizing before with
  | nil =>
      rw [List.append_nil]
      exact .nil
  | cons entry entries ih =>
      rw [List.append_cons]
      exact .cons rfl ((Reader.reads_text entry.2).map _) (ih _)

theorem reads_nameMap (map : NameMap) :
    nameMap.Reads map.toJson map := by
  have hsteps := steps_entries map.entries []
  rw [List.nil_append] at hsteps
  have hreads : nameMap.Reads map.toJson (.ofList map.entries) := by
    rw [nameMap]
    apply Reader.Reads.map
    exact Reader.reads_of_run (fun _ => rfl) fun rest _ => Reader.members_body hsteps rest
  rwa [map.ofList_entries] at hreads

theorem reads_style (style : Style) :
    Style.reader.Reads style.toJson style := by
  have hname : Style.ofName style.name = .ok style := by
    cases style <;> rfl
  refine (Reader.reads_text style.name).checked ?_
  rw [hname]

/-! ## Sections of a dialect -/

namespace Registry

/-- The registry with the given fields, and the standard one in the others. -/
def limitedTo (r : Registry) (given : String → Bool) : Registry where
  operators := if given "operators" then r.operators else standard.operators
  functions := if given "functions" then r.functions else standard.functions
  displayNames := if given "display_names" then r.displayNames else standard.displayNames

theorem reads_excerpt
    {r : Registry} {part : Json} (h : part.Excerpt 1 r.toJson) :
    record.reader.Reads part (r.limitedTo fun key => part.holds [key]) := by
  refine Record.reads_excerpt (by decide) rfl ?_ h
  simp only [List.forall_mem_cons]
  refine ⟨?_, ?_, ?_, ?_⟩
  · exact ⟨_, _, rfl, (reads_nameSet r.operators).map _, fun _ => rfl⟩
  · exact ⟨_, _, rfl, (reads_nameSet r.functions).map _, fun _ => rfl⟩
  · exact ⟨_, _, rfl, (reads_nameMap r.displayNames).map _, fun _ => rfl⟩
  · exact fun w hw => absurd hw List.not_mem_nil

end Registry

namespace Quoting

/-- The quoting rules with the given fields, and the standard ones in the others. -/
def limitedTo (q : Quoting) (given : String → Bool) : Quoting where
  alwaysQuoted :=
    if given "identifier_always_quoted" then q.alwaysQuoted else standard.alwaysQuoted
  names := if given "identifier_quote_default" then q.names else standard.names
  literals := if given "literal_quote_default" then q.literals else standard.literals

theorem reads_excerpt
    {q : Quoting} {part : Json} (h : part.Excerpt 1 q.toJson) :
    record.reader.Reads part (q.limitedTo fun key => part.holds [key]) := by
  refine Record.reads_excerpt (by decide) rfl ?_ h
  simp only [List.forall_mem_cons]
  refine ⟨?_, ?_, ?_, ?_⟩
  · exact ⟨_, _, rfl, (Reader.reads_boolean q.alwaysQuoted).map _, fun _ => rfl⟩
  · exact ⟨_, _, rfl, (reads_style q.names).map _, fun _ => rfl⟩
  · exact ⟨_, _, rfl, (reads_style q.literals).map _, fun _ => rfl⟩
  · exact fun w hw => absurd hw List.not_mem_nil

end Quoting

namespace Separators

/-- The separators with the given fields, and the standard ones in the others. -/
def limitedTo (s : Separators) (given : String → Bool) : Separators where
  symbols := if given "symbols" then s.symbols else standard.symbols
  written := if given "default" then s.written else standard.written

theorem reads_excerpt
    {s : Separators} {part : Json} (h : part.Excerpt 1 s.toJson) :
    record.reader.Reads part (s.limitedTo fun key => part.holds [key]) := by
  refine Record.reads_excerpt (by decide) rfl ?_ h
  simp only [List.forall_mem_cons]
  have hsymbols : (Reader.sequence .text).Reads (.arr (s.symbols.map .str)) s.symbols :=
    Reader.reads_sequence_map fun name _ => Reader.reads_text name
  refine ⟨?_, ?_, ?_⟩
  · exact ⟨_, _, rfl, hsymbols.map _, fun _ => rfl⟩
  · exact ⟨_, _, rfl, (Reader.reads_text s.written).map _, fun _ => rfl⟩
  · exact fun w hw => absurd hw List.not_mem_nil

end Separators

/-! ## Whole dialects -/

namespace Dialect

/-- The dialect with the fields that a document gives, and the standard one in the
others. -/
def limitedTo (d : Dialect) (doc : Json) : Dialect where
  registry := d.registry.limitedTo fun key => doc.holds ["registry", key]
  quoting := d.quoting.limitedTo fun key => doc.holds ["quotes", key]
  separators := d.separators.limitedTo fun key => doc.holds ["separators", key]

/-- The sections that are given, each with the fields that the document gives. -/
def sectionsOf (d : Dialect) (doc : Json) (given : String → Bool) : Dialect where
  registry := d.registry.limitedTo fun key => given "registry" && doc.holds ["registry", key]
  quoting := d.quoting.limitedTo fun key => given "quotes" && doc.holds ["quotes", key]
  separators :=
    d.separators.limitedTo fun key => given "separators" && doc.holds ["separators", key]

theorem sectionsOf_holds (d : Dialect) (members : Members) :
    d.sectionsOf (.obj members) (fun key => (Json.obj members).holds [key]) =
      d.limitedTo (.obj members) := by
  have hgiven : ∀ name key,
      ((Json.obj members).holds [name] && (Json.obj members).holds [name, key]) =
        (Json.obj members).holds [name, key] := by
    intro name key
    cases h : (Json.obj members).holds [name] with
    | false =>
        rw [holds_cons_of_not_mem h [key]]
        exact Bool.and_false _
    | true =>
        exact Bool.true_and _
  simp only [sectionsOf, limitedTo, hgiven]

/-- An excerpt of the document of a dialect is read as the dialect limited to what is
given. -/
theorem reads_excerpt
    {d : Dialect} {doc : Json} (h : doc.Excerpt 2 d.toJson) :
    record.reader.Reads doc (d.limitedTo doc) := by
  obtain ⟨members, _, rfl, hwholes, hnodup, hmembers⟩ := h
  obtain rfl := Json.obj.inj hwholes
  rw [← sectionsOf_holds]
  refine Record.reads_of_sets (by decide) rfl hnodup fun m hm => ?_
  obtain ⟨w, hw, hkey, hvalue⟩ := hmembers m hm
  have hholds : ∀ key, m.2.holds [key] = (Json.obj members).holds [w.1, key] := by
    intro key
    rw [hkey, holds_cons_of_mem hnodup hm]
  rw [← hkey]
  simp only [List.mem_cons, List.not_mem_nil, or_false] at hw
  rcases hw with rfl | rfl | rfl
  · have hreads := Registry.reads_excerpt hvalue
    simp only [hholds] at hreads
    exact ⟨_, _, rfl, hreads.map _, fun _ => rfl⟩
  · have hreads := Quoting.reads_excerpt hvalue
    simp only [hholds] at hreads
    exact ⟨_, _, rfl, hreads.map _, fun _ => rfl⟩
  · have hreads := Separators.reads_excerpt hvalue
    simp only [hholds] at hreads
    exact ⟨_, _, rfl, hreads.map _, fun _ => rfl⟩

/-- All fields together are an excerpt that gives them all. -/
theorem excerpt_toJson (d : Dialect) :
    d.toJson.Excerpt 2 d.toJson := by
  apply excerpt_self
  · have hkeys : ["registry", "quotes", "separators"].Nodup := by decide
    exact hkeys
  · simp only [List.forall_mem_cons]
    refine ⟨?_, ?_, ?_, fun m hm => absurd hm List.not_mem_nil⟩
    · have hkeys : ["operators", "functions", "display_names"].Nodup := by decide
      exact excerpt_self hkeys fun _ _ => rfl
    · have hkeys :
          ["identifier_always_quoted", "identifier_quote_default",
            "literal_quote_default"].Nodup := by decide
      exact excerpt_self hkeys fun _ _ => rfl
    · have hkeys : ["symbols", "default"].Nodup := by decide
      exact excerpt_self hkeys fun _ _ => rfl

theorem limitedTo_toJson (d : Dialect) :
    d.limitedTo d.toJson = d :=
  rfl

end Dialect
end QueryFormula
