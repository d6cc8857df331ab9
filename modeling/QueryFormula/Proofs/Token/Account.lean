import QueryFormula.Proofs.Token.Place
import QueryFormula.Token.Json

/-!
# Tokens and errors account for a text

Nothing of a text is lost between its tokens and errors, and nothing is counted
twice.  The spans of the tokens lie one behind the other on boundaries between
characters; what is outside of them is white space or a character that is
reported at its place.  The only other thing that can be wrong is a delimiter
missing at the very end: every number that is read is the text of one.
-/

namespace QueryFormula

/-- The error is about a delimiter that does not come. -/
def TokenError.isMissing (e : TokenError) : Bool :=
  match e.cause with
  | .missingQuote | .missingBracket => true
  | .unexpected _ => false

/-- The token stands for a number. -/
def TokenKind.isNumber : TokenKind → Bool
  | .integer _ | .float _ => true
  | _ => false

/-- A place is inside the span of a token. -/
def Tokenized.Covers (t : Tokenized) (place : Nat) : Prop :=
  ∃ token ∈ t.tokens, token.start ≤ place ∧ place < token.stop

/-- Spans and errors that account for a text, character by character. -/
structure Tokenized.AccountsFor (t : Tokenized) (source : String) : Prop where
  span_nonempty : ∀ token ∈ t.tokens, token.start < token.stop
  span_valid : ∀ token ∈ t.tokens,
    String.Pos.Raw.IsValid source ⟨token.start⟩ ∧ String.Pos.Raw.IsValid source ⟨token.stop⟩
  spans_increasing : t.tokens.Pairwise fun a b =>
    a.start < b.start ∧ a.stop < b.stop ∧ a.stop ≤ b.start
  /-- No number is invalid. -/
  number_wellFormed : ∀ token ∈ t.tokens, token.kind.isNumber = true →
    ∃ n : NumberText, n.WellFormed ∧ token.slice source = String.ofList n.text ∧
      token.kind = n.kind
  /-- Outside of all spans white space goes unreported, and any other character is
  reported exactly once, by its name. -/
  outside : ∀ before c after, source.toList = before ++ c :: after →
    ¬ t.Covers (Text.width before) →
      if Text.isBlank c then
        t.errors.filter (·.position == Text.width before) = []
      else
        ∃ e, t.errors.filter (·.position == Text.width before) = [e] ∧
          e.cause = .unexpected c ∧
            e.message = "Unexpected character '" ++ c.toString ++ "'"
  errors_increasing : t.errors.Pairwise fun a b => a.position < b.position
  /-- Every other error is about a missing delimiter. -/
  unexpected : ∀ e ∈ t.errors, e.isMissing = false →
    ∃ before c after, source.toList = before ++ c :: after ∧ Text.isBlank c = false ∧
      ¬ t.Covers (Text.width before) ∧ e = ⟨.unexpected c, Text.width before⟩
  missing_le_one : t.errors.countP TokenError.isMissing ≤ 1
  missing_last : ∀ e ∈ t.errors, e.isMissing = true →
    t.errors.getLast? = some e ∧ ∃ token, t.tokens.getLast? = some token ∧
      token.start = e.position ∧ token.stop = source.utf8ByteSize

namespace Fragment

theorem kind_isNumber
    {l : Lexeme} (h : l.kind.isNumber = true) :
    ∃ n, l = .number n := by
  cases l with
  | number n =>
      exact ⟨n, rfl⟩
  | delimited d content closed =>
      cases d <;> contradiction
  | word text =>
      rw [Lexeme.kind, Lexeme.wordKind] at h
      split at h <;> contradiction
  | _ =>
      contradiction

/-- The fault of a lexeme is a delimiter that does not come. -/
theorem isMissing_of_fault
    {l : Lexeme} {cause : TokenError.Cause} (h : l.fault = some cause) (place : Nat) :
    TokenError.isMissing ⟨cause, place⟩ = true := by
  unfold Lexeme.fault at h
  split at h
  · next d content =>
    obtain rfl := Option.some.inj h
    cases d <;> rfl
  · contradiction

theorem token?_eq_some_iff
    {p : Nat} {f : Fragment} {token : Token} :
    token? (p, f) = some token ↔
      ∃ l, f = .lexeme l ∧ token = ⟨l.kind, p, p + Text.width l.text⟩ := by
  cases f with
  | lexeme l =>
      simp [token?, eq_comm]
  | _ =>
      simp [token?]

theorem error?_eq_some_iff
    {p : Nat} {f : Fragment} {e : TokenError} :
    error? (p, f) = some e ↔
      (∃ c, f = .stray c ∧ e = ⟨.unexpected c, p⟩) ∨
        ∃ l cause, f = .lexeme l ∧ l.fault = some cause ∧ e = ⟨cause, p⟩ := by
  cases f with
  | blank c =>
      simp [error?]
  | stray c =>
      simp [error?, eq_comm]
  | lexeme l =>
      rw [error?, Option.map_eq_some_iff]
      simp [eq_comm]

theorem position_of_error?
    (p : Nat) (f : Fragment) (e : TokenError) (h : error? (p, f) = some e) :
    e.position = p := by
  rcases error?_eq_some_iff.mp h with ⟨c, -, rfl⟩ | ⟨l, cause, -, -, rfl⟩ <;> rfl

end Fragment

/-! ## Tokens and errors by their fragments -/

section

open Fragment

variable {source : String}

theorem tokens_tokenize (source : String) :
    (tokenize source).tokens = (locate 0 (ofText source.toList)).filterMap token? := by
  rfl

theorem errors_tokenize (source : String) :
    (tokenize source).errors = (locate 0 (ofText source.toList)).filterMap error? := by
  rfl

theorem mem_tokens_iff
    {token : Token} :
    token ∈ (tokenize source).tokens ↔
      ∃ p l, (p, .lexeme l) ∈ locate 0 (ofText source.toList) ∧
        token = ⟨l.kind, p, p + Text.width l.text⟩ := by
  constructor
  · intro h
    obtain ⟨⟨p, f⟩, hmem, hf⟩ := List.mem_filterMap.mp h
    obtain ⟨l, rfl, htoken⟩ := token?_eq_some_iff.mp hf
    exact ⟨p, l, hmem, htoken⟩
  · rintro ⟨p, l, hmem, rfl⟩
    exact List.mem_filterMap.mpr ⟨(p, .lexeme l), hmem, rfl⟩

theorem mem_errors_iff
    {e : TokenError} :
    e ∈ (tokenize source).errors ↔
      ∃ p f, (p, f) ∈ locate 0 (ofText source.toList) ∧ error? (p, f) = some e := by
  constructor
  · intro h
    obtain ⟨⟨p, f⟩, hmem, hf⟩ := List.mem_filterMap.mp h
    exact ⟨p, f, hmem, hf⟩
  · rintro ⟨p, f, hmem, hf⟩
    exact List.mem_filterMap.mpr ⟨(p, f), hmem, hf⟩

/-- A fragment stands between the text before it and the text after it. -/
theorem exists_source_eq
    {p : Nat} {f : Fragment} (h : (p, f) ∈ locate 0 (ofText source.toList)) :
    ∃ before after, source.toList = before ++ f.text ++ after ∧ p = Text.width before := by
  obtain ⟨fs, gs, hfragments, hplace⟩ := mem_locate_iff.mp h
  have hspell := flatMap_text_ofText source.toList
  rw [hfragments, List.flatMap_append, List.flatMap_cons, ← List.append_assoc] at hspell
  refine ⟨fs.flatMap text, gs.flatMap text, hspell.symm, ?_⟩
  rw [hplace, Nat.zero_add]

theorem proper_of_mem_locate
    {p : Nat} {f : Fragment} (h : (p, f) ∈ locate 0 (ofText source.toList)) :
    f.Proper := by
  obtain ⟨fs, gs, hfragments, -⟩ := mem_locate_iff.mp h
  apply proper_of_mem_ofText
  rw [hfragments]
  exact List.mem_append_right _ List.mem_cons_self

/-- A token spans the text of its lexeme. -/
theorem slice_of_mem_locate
    {p : Nat} {l : Lexeme} (h : (p, .lexeme l) ∈ locate 0 (ofText source.toList))
    (kind : TokenKind) :
    Token.slice source ⟨kind, p, p + Text.width l.text⟩ = String.ofList l.text := by
  obtain ⟨before, after, hsource, rfl⟩ := exists_source_eq h
  rw [Token.slice, hsource]
  exact congrArg String.ofList (Text.slice_append before l.text after)

/-- Only a lexeme covers the place where it stands. -/
theorem not_covers
    {p : Nat} {f : Fragment} (h : (p, f) ∈ locate 0 (ofText source.toList))
    (hf : ∀ l, f ≠ .lexeme l) :
    ¬ (tokenize source).Covers p := by
  rintro ⟨token, htoken, hle, hlt⟩
  obtain ⟨q, l, hmem, rfl⟩ := mem_tokens_iff.mp htoken
  have heq := eq_of_mem_locate (fun _ => proper_of_mem_ofText) h hmem hle hlt
  exact hf l (Prod.mk.inj heq).2

theorem errors_filter_eq
    {p : Nat} {f : Fragment} (h : (p, f) ∈ locate 0 (ofText source.toList)) :
    (tokenize source).errors.filter (·.position == p) = (error? (p, f)).toList :=
  filter_filterMap_locate position_of_error? (fun _ => proper_of_mem_ofText) h

/-! ## Order -/

theorem pairwise_locate_ofText (s : List Char) :
    (locate 0 (ofText s)).Pairwise fun a b =>
      a.1 + Text.width a.2.text ≤ b.1 ∧ 0 < Text.width a.2.text ∧ 0 < Text.width b.2.text := by
  have hpos :
      ∀ entry ∈ locate 0 (ofText s), 0 < Text.width entry.2.text := by
    rintro ⟨p, f⟩ hmem
    rw [← String.toList_ofList (l := s)] at hmem
    exact (proper_of_mem_locate hmem).width_pos
  apply (pairwise_locate 0 (ofText s)).imp_of_mem
  intro a b ha hb hle
  exact ⟨hle, hpos a ha, hpos b hb⟩

theorem tokens_pairwise (source : String) :
    (tokenize source).tokens.Pairwise fun a b =>
      a.start < b.start ∧ a.stop < b.stop ∧ a.stop ≤ b.start := by
  apply (pairwise_locate_ofText source.toList).filterMap
  rintro ⟨p, f⟩ ⟨q, g⟩ ⟨hle, hf, hg⟩ a ha b hb
  obtain ⟨l, rfl, rfl⟩ := token?_eq_some_iff.mp ha
  obtain ⟨l', rfl, rfl⟩ := token?_eq_some_iff.mp hb
  simp only [text] at hle hf hg ⊢
  omega

theorem errors_pairwise (source : String) :
    (tokenize source).errors.Pairwise fun a b => a.position < b.position := by
  apply (pairwise_locate_ofText source.toList).filterMap
  rintro ⟨p, f⟩ ⟨q, g⟩ ⟨hle, hf, -⟩ a ha b hb
  rw [position_of_error? p f a ha, position_of_error? q g b hb]
  simp only at hle hf
  omega

/-! ## Missing delimiters -/

/-- A missing delimiter is the last thing that is wrong, and its token reaches to
the end of the text. -/
theorem getLast?_of_isMissing
    {e : TokenError} (he : e ∈ (tokenize source).errors) (hmissing : e.isMissing = true) :
    (tokenize source).errors.getLast? = some e ∧
      ∃ token, (tokenize source).tokens.getLast? = some token ∧
        token.start = e.position ∧ token.stop = source.utf8ByteSize := by
  obtain ⟨p, f, hmem, hf⟩ := mem_errors_iff.mp he
  rcases error?_eq_some_iff.mp hf with ⟨c, rfl, rfl⟩ | ⟨l, cause, rfl, hfault, rfl⟩
  · contradiction
  · obtain ⟨fs, gs, hfragments, hplace⟩ := mem_locate_iff.mp hmem
    have hnil : gs = [] := by
      apply eq_nil_of_fault hfragments
      rw [hfault]
      exact Option.some_ne_none cause
    subst hnil
    have hlocate :
        locate 0 (ofText source.toList) = locate 0 fs ++ [(p, .lexeme l)] := by
      rw [hfragments, locate_append, ← hplace]
      rfl
    have herrors :
        (tokenize source).errors = (locate 0 fs).filterMap error? ++ [⟨cause, p⟩] := by
      rw [errors_tokenize, hlocate, List.filterMap_append, List.filterMap_cons, hf]
      rfl
    have htokens :
        (tokenize source).tokens =
          (locate 0 fs).filterMap token? ++ [⟨l.kind, p, p + Text.width l.text⟩] := by
      rw [tokens_tokenize, hlocate, List.filterMap_append]
      rfl
    have hstop : p + Text.width l.text = source.utf8ByteSize := by
      have hspell := flatMap_text_ofText source.toList
      rw [hfragments, List.flatMap_append, List.flatMap_singleton] at hspell
      rw [← Text.width_toList, ← hspell, Text.width_append, hplace, Nat.zero_add]
      rfl
    refine ⟨?_, ⟨l.kind, p, p + Text.width l.text⟩, ?_, rfl, hstop⟩
    · rw [herrors, List.getLast?_concat]
    · rw [htokens, List.getLast?_concat]

theorem countP_isMissing_le_one (source : String) :
    (tokenize source).errors.countP TokenError.isMissing ≤ 1 := by
  have hsame :
      ∀ e ∈ (tokenize source).errors.filter TokenError.isMissing,
        (tokenize source).errors.getLast? = some e := by
    intro e he
    obtain ⟨hmem, hmissing⟩ := List.mem_filter.mp he
    exact (getLast?_of_isMissing hmem hmissing).1
  have hincreasing := (errors_pairwise source).filter TokenError.isMissing
  rw [List.countP_eq_length_filter]
  generalize (tokenize source).errors.filter TokenError.isMissing = missing at hsame hincreasing
  match missing with
  | [] => exact Nat.zero_le 1
  | [e] => exact Nat.le_refl 1
  | e :: e' :: rest =>
      have hfirst := hsame e List.mem_cons_self
      have hsecond := hsame e' (List.mem_cons_of_mem _ List.mem_cons_self)
      have hlt := (List.pairwise_cons.mp hincreasing).1 e' List.mem_cons_self
      rw [hfirst] at hsecond
      rw [Option.some.inj hsecond] at hlt
      exact absurd hlt (Nat.lt_irrefl _)

/-- No other delimiter is missing than the one that is reported. -/
theorem errors_filter_isMissing
    {e : TokenError} (he : e ∈ (tokenize source).errors) (hmissing : e.isMissing = true) :
    (tokenize source).errors.filter TokenError.isMissing = [e] := by
  have hmem : e ∈ (tokenize source).errors.filter TokenError.isMissing :=
    List.mem_filter.mpr ⟨he, hmissing⟩
  have hle := countP_isMissing_le_one source
  have hpos := List.length_pos_of_mem hmem
  rw [List.countP_eq_length_filter] at hle
  obtain ⟨e', heq⟩ := List.length_eq_one_iff.mp (Nat.le_antisymm hle hpos)
  rw [heq] at hmem ⊢
  rw [List.mem_singleton.mp hmem]

/-! ## The account -/

theorem eq_nil_of_singleton_eq_append
    {u v : List Char} {c d : Char} (h : [d] = u ++ c :: v) :
    u = [] ∧ d = c := by
  by_cases hu : u = []
  · rw [hu, List.nil_append] at h
    exact ⟨hu, (List.cons.inj h).1⟩
  · obtain ⟨x, u', rfl⟩ := List.exists_cons_of_ne_nil hu
    have hnil := (List.cons.inj h).2
    simp at hnil

theorem errors_filter_of_outside
    {before after : List Char} {c : Char} (hsource : source.toList = before ++ c :: after)
    (houtside : ¬ (tokenize source).Covers (Text.width before)) :
    (tokenize source).errors.filter (·.position == Text.width before) =
      if Text.isBlank c then [] else [⟨.unexpected c, Text.width before⟩] := by
  have hspell := flatMap_text_ofText source.toList
  rw [hsource] at hspell
  obtain ⟨p, f, u, v, hmem, htext, hplace⟩ := exists_mem_locate hspell 0
  rw [← hsource] at hmem
  rw [Nat.zero_add] at hplace
  have hproper := proper_of_mem_locate hmem
  cases f with
  | lexeme l =>
      exfalso
      apply houtside
      have hwidth := congrArg Text.width htext
      rw [Text.width_append, Text.width_cons] at hwidth
      have hpos := c.utf8Size_pos
      refine ⟨_, mem_tokens_iff.mpr ⟨p, l, hmem, rfl⟩, ?_, ?_⟩
      · simp only
        omega
      · simp only [text] at hwidth ⊢
        omega
  | blank d =>
      obtain ⟨rfl, rfl⟩ := eq_nil_of_singleton_eq_append htext
      have hblank : Text.isBlank d = true := hproper
      rw [hplace, if_pos hblank]
      exact errors_filter_eq hmem
  | stray d =>
      obtain ⟨rfl, rfl⟩ := eq_nil_of_singleton_eq_append htext
      have hblank : Text.isBlank d = false := hproper
      rw [hplace, hblank]
      exact errors_filter_eq hmem

/-- The tokens and errors of a text account for all of it. -/
theorem tokenize_accountsFor (source : String) :
    (tokenize source).AccountsFor source where
  span_nonempty := by
    intro token htoken
    obtain ⟨p, l, hmem, rfl⟩ := mem_tokens_iff.mp htoken
    have hpos := (proper_of_mem_locate hmem).width_pos
    simp only [text] at hpos ⊢
    omega
  span_valid := by
    intro token htoken
    obtain ⟨p, l, hmem, rfl⟩ := mem_tokens_iff.mp htoken
    obtain ⟨before, after, hsource, rfl⟩ := exists_source_eq hmem
    constructor
    · apply Text.isValid_of_eq_append
      rw [hsource, List.append_assoc]
    · have hstop := Text.isValid_of_eq_append hsource
      rw [Text.width_append] at hstop
      exact hstop
  spans_increasing := tokens_pairwise source
  number_wellFormed := by
    intro token htoken hnumber
    obtain ⟨p, l, hmem, rfl⟩ := mem_tokens_iff.mp htoken
    obtain ⟨n, rfl⟩ := kind_isNumber hnumber
    obtain ⟨before, after, hsource, rfl⟩ := exists_source_eq hmem
    refine ⟨n, (proper_of_mem_locate hmem).2 n rfl, ?_, rfl⟩
    rw [Token.slice, hsource]
    exact congrArg String.ofList (Text.slice_append before n.text after)
  outside := by
    intro before c after hsource houtside
    rw [errors_filter_of_outside hsource houtside]
    by_cases hblank : Text.isBlank c = true
    · rw [if_pos hblank, if_pos hblank]
    · rw [if_neg hblank, if_neg hblank]
      exact ⟨_, rfl, rfl, rfl⟩
  errors_increasing := errors_pairwise source
  unexpected := by
    intro e he hmissing
    obtain ⟨p, f, hmem, hf⟩ := mem_errors_iff.mp he
    rcases error?_eq_some_iff.mp hf with ⟨c, rfl, rfl⟩ | ⟨l, cause, rfl, hfault, rfl⟩
    · obtain ⟨before, after, hsource, rfl⟩ := exists_source_eq hmem
      refine ⟨before, c, after, ?_, proper_of_mem_locate hmem, ?_, rfl⟩
      · rw [hsource, List.append_assoc]
        rfl
      · apply not_covers hmem
        intro l
        exact Fragment.noConfusion
    · rw [isMissing_of_fault hfault] at hmissing
      contradiction
  missing_le_one := countP_isMissing_le_one source
  missing_last := fun e he hmissing => getLast?_of_isMissing he hmissing

end

end QueryFormula
