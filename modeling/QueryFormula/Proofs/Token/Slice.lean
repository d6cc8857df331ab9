import QueryFormula.Proofs.Token.Account
import QueryFormula.Proofs.Token.NumberText

/-!
# Tokens on their own

A lexeme ends where its own characters say so.  What comes after it only shows that
it does not go on, and so does the end of a text.  Cut out of the text where it
stands, a token is therefore read as the same token.
-/

namespace QueryFormula

/-! ## Lexemes on their own -/

theorem NumberText.WellFormed.starts_text
    {n : NumberText} (h : n.WellFormed) :
    NumberText.starts n.text = true := by
  by_cases hwhole : n.whole = []
  · rcases h.has_digit with hne | ⟨ds, hfraction, hne⟩
    · exact absurd hwhole hne
    · obtain ⟨d, ds', rfl⟩ := List.exists_cons_of_ne_nil hne
      have hd : d.isDigit = true := h.fraction_digits _ hfraction d List.mem_cons_self
      rw [NumberText.text, hwhole, Option.mem_def.mp hfraction]
      exact hd
  · obtain ⟨c, cs, hcons⟩ := List.exists_cons_of_ne_nil hwhole
    have hc : c.isDigit = true := by
      apply h.whole_digits
      rw [hcons]
      exact List.mem_cons_self
    have hpoint : c ≠ '.' := by
      rintro rfl
      contradiction
    rw [NumberText.text, hcons, List.cons_append, List.cons_append,
      NumberText.starts_of_ne_point hpoint]
    exact hc

namespace Delimiter

/-- Up to its closing character a text is cut where a longer one is. -/
theorem split_content_append_closing
    {close : Char} (hclose : close ≠ '\\') {s content after : List Char}
    (h : split close s = (content, some after)) :
    split close (content ++ [close]) = (content, some []) := by
  obtain ⟨-, hopen⟩ := (split_eq_some_iff hclose).mp h
  exact (split_eq_some_iff hclose).mpr ⟨rfl, hopen⟩

/-- Without a closing character all of a text is content. -/
theorem eq_of_split_eq_none
    {close : Char} {s content : List Char} (h : split close s = (content, none)) :
    content = s := by
  have hspell := text_split close s
  rwa [h, Option.map_none, Option.getD_none, List.append_nil] at hspell

end Delimiter

namespace Lexeme

theorem splitSign_name
    {c : Char} {rest after : List Char} {op : BinaryOperator}
    (h : splitSign c rest = some (op, after)) :
    ∃ cs, op.name.toList = c :: cs ∧ splitSign c cs = some (op, []) := by
  unfold splitSign at h
  split at h
  case h_11 => contradiction
  all_goals
    obtain ⟨rfl, rfl⟩ := Prod.mk.inj (Option.some.inj h)
    exact ⟨_, rfl, rfl⟩

/-- What a text begins with is all that is there when nothing comes after it. -/
theorem Begins.alone
    {c : Char} {rest after : List Char} {l : Lexeme} (h : Begins c rest l after) :
    ∃ cs, l.text = c :: cs ∧ Begins c cs l [] := by
  cases h with
  | comma => exact ⟨[], rfl, .comma []⟩
  | leftParen => exact ⟨[], rfl, .leftParen []⟩
  | rightParen => exact ⟨[], rfl, .rightParen []⟩
  | closed d hcut =>
      exact ⟨_, rfl, .closed d
        (Delimiter.split_content_append_closing d.closing_ne_backslash hcut)⟩
  | unclosed d hcut =>
      obtain rfl := Delimiter.eq_of_split_eq_none hcut
      exact ⟨_, List.append_nil _, .unclosed d hcut⟩
  | number hstarts =>
      have hwell := NumberText.wellFormed_split hstarts
      have hspell := NumberText.text_split (c :: rest)
      obtain ⟨d, cs, hcons⟩ :=
        List.exists_cons_of_ne_nil (NumberText.text_split_ne_nil hstarts)
      rw [hcons] at hspell
      obtain rfl := (List.cons.inj hspell).1
      have halone := Begins.number (hcons ▸ hwell.starts_text)
      rw [← hcons, NumberText.split_text hwell] at halone
      exact ⟨cs, hcons, halone⟩
  | word hstart rest =>
      have hword : ∀ d ∈ rest.takeWhile Text.isWordChar, Text.isWordChar d = true :=
        List.all_eq_true.mp List.all_takeWhile
      have hend : ∀ d ∈ ([] : List Char).head?, Text.isWordChar d = false := nofun
      obtain ⟨htake, hdrop⟩ := Text.takeWhile_append_of_head? hword hend
      rw [List.append_nil] at htake hdrop
      have halone := Begins.word hstart (rest.takeWhile Text.isWordChar)
      rw [htake, hdrop] at halone
      exact ⟨_, rfl, halone⟩
  | sign hsign =>
      obtain ⟨cs, hname, halone⟩ := splitSign_name hsign
      exact ⟨cs, hname, .sign halone⟩

end Lexeme

/-! ## Tokens on their own -/

namespace Fragment

/-- A lexeme of a text falls into nothing smaller and nothing else. -/
theorem ofText_text_of_mem
    {s : List Char} {l : Lexeme} (h : .lexeme l ∈ ofText s) :
    ofText l.text = [.lexeme l] := by
  fun_induction ofText s with
  | case1 => exact absurd h List.not_mem_nil
  | case2 c rest ih =>
      rcases List.mem_cons.mp h with hfirst | hrest
      · have hblank : Text.isBlank c = false := by
          rw [← Bool.not_eq_true]
          intro hblank
          rw [split, if_pos hblank] at hfirst
          contradiction
        obtain ⟨cs, htext, halone⟩ := (begins_of_split hfirst.symm).alone
        rw [htext, ofText_cons, split, hblank, Lexeme.split_eq_some_iff.mpr halone]
        simp
      · exact ih hrest

end Fragment

/-- Cut out of its text, a token is read alone as the same token over the whole of
it, and only a closing delimiter that it lacks is missed again. -/
theorem tokenize_slice
    {source : String} {token : Token} (h : token ∈ (tokenize source).tokens) :
    tokenize (token.slice source) =
      ⟨[⟨token.kind, 0, (token.slice source).utf8ByteSize⟩],
        ((tokenize source).errors.filter fun e =>
          e.isMissing && e.position == token.start).map fun e => ⟨e.cause, 0⟩⟩ := by
  obtain ⟨p, l, hmem, rfl⟩ := mem_tokens_iff.mp h
  obtain ⟨before, after, hsource, rfl⟩ := exists_source_eq hmem
  have hfragments : Fragment.ofText l.text = [.lexeme l] := by
    obtain ⟨fs, gs, hsplit, -⟩ := Fragment.mem_locate_iff.mp hmem
    apply Fragment.ofText_text_of_mem (s := source.toList)
    rw [hsplit]
    exact List.mem_append_right _ List.mem_cons_self
  have hslice : Token.slice source ⟨l.kind, Text.width before,
      Text.width before + Text.width l.text⟩ = String.ofList l.text := by
    rw [Token.slice, hsource]
    exact congrArg String.ofList (Text.slice_append before l.text after)
  have herrors := errors_filter_eq hmem
  rw [hslice, tokenize, String.toList_ofList, tokenizeText, hfragments, ← Text.width_toList,
    String.toList_ofList, ← List.filter_filter, herrors]
  have herror : Fragment.error? (Text.width before, .lexeme l) =
      l.fault.map fun cause => ⟨cause, Text.width before⟩ := rfl
  rw [herror]
  cases hfault : l.fault with
  | none =>
      simp [Fragment.locate, Fragment.token?, Fragment.error?, hfault]
  | some cause =>
      have hmissing := Fragment.isMissing_of_fault hfault (Text.width before)
      simp [Fragment.locate, Fragment.token?, Fragment.error?, hfault, hmissing]

/-- A name without its bracket, behind a word of more bytes than characters. -/
theorem tokenize_slice_unclosed :
    ⟨.bracketed "€", 4, 8⟩ ∈ (tokenize "né+[€").tokens ∧
      tokenize (Token.slice "né+[€" ⟨.bracketed "€", 4, 8⟩) =
        ⟨[⟨.bracketed "€", 0, 4⟩], [⟨.missingBracket, 0⟩]⟩ := by
  have hwhole : tokenize "né+[€" =
      ⟨[⟨.word "né", 0, 3⟩, ⟨.operator (.binary .plus), 3, 4⟩, ⟨.bracketed "€", 4, 8⟩],
        [⟨.missingBracket, 4⟩]⟩ := by
    decide +kernel
  have hmem : ⟨.bracketed "€", 4, 8⟩ ∈ (tokenize "né+[€").tokens := by
    rw [hwhole]
    decide
  refine ⟨hmem, ?_⟩
  rw [tokenize_slice hmem, hwhole]
  decide +kernel

end QueryFormula
