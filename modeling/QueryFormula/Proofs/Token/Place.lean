import QueryFormula.Proofs.Token.Lexeme

/-!
# The places of fragments

The fragments of a text stand side by side, so each begins where the ones before
it end.  Every character of the text lies in one fragment, and what is said of a
fragment by its place is said of one fragment only.  A token that spans a whole
text is all that the text falls into.
-/

namespace QueryFormula
namespace Text

theorem dropWidth_append (before after : List Char) :
    dropWidth (width before) (before ++ after) = after := by
  induction before with
  | nil =>
      cases after <;> rfl
  | cons c before ih =>
      have hne : width (c :: before) ≠ 0 := by
        rw [Ne, width_eq_zero_iff]
        exact List.cons_ne_nil c before
      rw [List.cons_append, dropWidth, if_neg hne, width_cons, Nat.add_sub_cancel_left]
      exact ih

theorem takeWidth_append (before after : List Char) :
    takeWidth (width before) (before ++ after) = before := by
  induction before with
  | nil =>
      cases after <;> rfl
  | cons c before ih =>
      have hne : width (c :: before) ≠ 0 := by
        rw [Ne, width_eq_zero_iff]
        exact List.cons_ne_nil c before
      rw [List.cons_append, takeWidth, if_neg hne, width_cons, Nat.add_sub_cancel_left, ih]

/-- A text is cut in one way at a place. -/
theorem append_inj_of_width
    {a b a' b' : List Char} (h : a ++ b = a' ++ b') (hwidth : width a = width a') :
    a = a' ∧ b = b' := by
  constructor
  · rw [← takeWidth_append a b, h, hwidth, takeWidth_append]
  · rw [← dropWidth_append a b, h, hwidth, dropWidth_append]

/-- The part of a text between the places where it begins and ends. -/
theorem slice_append (before part after : List Char) :
    slice (before ++ part ++ after) (width before) (width before + width part) = part := by
  rw [slice, List.append_assoc, dropWidth_append, Nat.add_sub_cancel_left, takeWidth_append]

/-- The place after some of the characters of a text is a boundary between
characters. -/
theorem isValid_of_eq_append
    {source : String} {before after : List Char} (h : source.toList = before ++ after) :
    String.Pos.Raw.IsValid source ⟨width before⟩ := by
  rw [String.Pos.Raw.isValid_iff_exists_append]
  refine ⟨String.ofList before, String.ofList after, ?_, ?_⟩
  · rw [← String.ofList_append, ← h, String.ofList_toList]
  · have hwidth := width_toList (String.ofList before)
    rw [String.toList_ofList] at hwidth
    rw [hwidth]
    rfl

end Text

namespace Fragment

/-! ## What fragments are -/

/-- What is known of a fragment wherever it stands. -/
def Proper : Fragment → Prop
  | .blank c => Text.isBlank c = true
  | .stray c => Text.isBlank c = false
  | .lexeme l => l.text ≠ [] ∧ ∀ n, l = .number n → n.WellFormed

theorem Proper.text_ne_nil
    {f : Fragment} (h : f.Proper) :
    f.text ≠ [] := by
  cases f with
  | lexeme l =>
      exact h.1
  | _ =>
      exact List.cons_ne_nil _ _

theorem Proper.width_pos
    {f : Fragment} (h : f.Proper) :
    0 < Text.width f.text := by
  have hne := h.text_ne_nil
  rw [Ne, ← Text.width_eq_zero_iff] at hne
  omega

theorem eq_nil_of_width_eq_zero
    {fs : List Fragment} (hproper : ∀ f ∈ fs, f.Proper)
    (h : Text.width (fs.flatMap text) = 0) :
    fs = [] := by
  cases fs with
  | nil =>
      rfl
  | cons f fs =>
      have hpos := (hproper f List.mem_cons_self).width_pos
      rw [List.flatMap_cons, Text.width_append] at h
      omega

/-- The three ways in which a text begins. -/
theorem split_cases (c : Char) (rest : List Char) :
    (Text.isBlank c = true ∧ split c rest = (.blank c, rest)) ∨
      (Text.isBlank c = false ∧ split c rest = (.stray c, rest)) ∨
        ∃ l after, Lexeme.Begins c rest l after ∧ split c rest = (.lexeme l, after) := by
  by_cases hblank : Text.isBlank c = true
  · exact .inl ⟨hblank, by rw [split, if_pos hblank]⟩
  · right
    rw [split, if_neg hblank]
    split
    · next l after hlexeme =>
      exact .inr ⟨l, after, Lexeme.begins_of_split hlexeme, rfl⟩
    · exact .inl ⟨Bool.eq_false_iff.mpr hblank, rfl⟩

/-- A text that begins with a lexeme begins with one of its forms. -/
theorem begins_of_split
    {c : Char} {rest : List Char} {l : Lexeme} (h : (split c rest).1 = .lexeme l) :
    Lexeme.Begins c rest l (split c rest).2 := by
  rcases split_cases c rest with ⟨-, hsplit⟩ | ⟨-, hsplit⟩ | ⟨l', after, hl, hsplit⟩
  · rw [hsplit] at h
    contradiction
  · rw [hsplit] at h
    contradiction
  · rw [hsplit] at h ⊢
    obtain rfl := Fragment.lexeme.inj h
    exact hl

/-- A text with a fragment has a first character, at which the fragment is cut off. -/
theorem exists_cons_of_ofText
    {s : List Char} {f : Fragment} {fs : List Fragment} (h : ofText s = f :: fs) :
    ∃ c rest, s = c :: rest ∧ (split c rest).1 = f ∧ ofText (split c rest).2 = fs := by
  cases s with
  | nil =>
      rw [ofText_nil] at h
      contradiction
  | cons c rest =>
      rw [ofText_cons] at h
      obtain ⟨hfirst, hrest⟩ := List.cons.inj h
      exact ⟨c, rest, rfl, hfirst, hrest⟩

theorem proper_split (c : Char) (rest : List Char) :
    (split c rest).1.Proper := by
  rcases split_cases c rest with ⟨hblank, hsplit⟩ | ⟨hblank, hsplit⟩ | ⟨l, after, hl, hsplit⟩
  · rw [hsplit]
    exact hblank
  · rw [hsplit]
    exact hblank
  · have hne := text_split_ne_nil c rest
    rw [hsplit] at hne ⊢
    refine ⟨hne, ?_⟩
    rintro n rfl
    cases hl with
    | number hstarts =>
        exact NumberText.wellFormed_split hstarts

theorem proper_of_mem_ofText
    {s : List Char} {f : Fragment} (h : f ∈ ofText s) :
    f.Proper := by
  fun_induction ofText s with
  | case1 => exact absurd h List.not_mem_nil
  | case2 c rest ih =>
      rcases List.mem_cons.mp h with rfl | hrest
      · exact proper_split c rest
      · exact ih hrest

/-- A delimiter is missing only where nothing is left of the text. -/
theorem eq_nil_of_fault
    {s : List Char} {before after : List Fragment} {l : Lexeme}
    (h : ofText s = before ++ .lexeme l :: after) (hfault : l.fault ≠ none) :
    after = [] := by
  fun_induction ofText s generalizing before with
  | case1 => simp at h
  | case2 c rest ih =>
      by_cases hbefore : before = []
      · rw [hbefore, List.nil_append] at h
        obtain ⟨hfirst, hafter⟩ := List.cons.inj h
        rw [(begins_of_split hfirst).eq_nil_of_fault hfault, ofText_nil] at hafter
        exact hafter.symm
      · obtain ⟨g, before', rfl⟩ := List.exists_cons_of_ne_nil hbefore
        exact ih (List.cons.inj h).2

/-! ## Where fragments stand -/

theorem locate_append (start : Nat) (fs gs : List Fragment) :
    locate start (fs ++ gs) =
      locate start fs ++ locate (start + Text.width (fs.flatMap text)) gs := by
  induction fs generalizing start with
  | nil =>
      rfl
  | cons f fs ih =>
      rw [List.cons_append, locate, ih, locate, List.flatMap_cons, Text.width_append,
        ← Nat.add_assoc]
      rfl

/-- A fragment stands where the ones before it end. -/
theorem mem_locate_iff
    {start place : Nat} {f : Fragment} {fs : List Fragment} :
    (place, f) ∈ locate start fs ↔
      ∃ before after, fs = before ++ f :: after ∧
        place = start + Text.width (before.flatMap text) := by
  constructor
  · intro h
    induction fs generalizing start with
    | nil =>
        exact absurd h List.not_mem_nil
    | cons g fs ih =>
        rcases List.mem_cons.mp h with hfirst | hrest
        · obtain ⟨rfl, rfl⟩ := Prod.mk.inj hfirst
          exact ⟨[], fs, rfl, rfl⟩
        · obtain ⟨before, after, rfl, rfl⟩ := ih hrest
          refine ⟨g :: before, after, rfl, ?_⟩
          rw [List.flatMap_cons, Text.width_append, Nat.add_assoc]
  · rintro ⟨before, after, rfl, rfl⟩
    rw [locate_append]
    exact List.mem_append_right _ List.mem_cons_self

/-- Of two fragments the second begins after the end of the first. -/
theorem pairwise_locate (start : Nat) (fs : List Fragment) :
    (locate start fs).Pairwise fun a b => a.1 + Text.width a.2.text ≤ b.1 := by
  induction fs generalizing start with
  | nil =>
      exact .nil
  | cons f fs ih =>
      refine List.pairwise_cons.mpr ⟨?_, ih _⟩
      rintro ⟨place, g⟩ hg
      obtain ⟨before, after, -, hplace⟩ := mem_locate_iff.mp hg
      simp only [hplace]
      omega

/-- No two fragments overlap. -/
theorem eq_of_mem_locate
    {start p q : Nat} {f g : Fragment} {fs : List Fragment} (hproper : ∀ f ∈ fs, f.Proper)
    (hf : (p, f) ∈ locate start fs) (hg : (q, g) ∈ locate start fs)
    (hle : q ≤ p) (hlt : p < q + Text.width g.text) :
    (p, f) = (q, g) := by
  have hpos : 0 < Text.width f.text := by
    obtain ⟨fs₁, fs₂, rfl, -⟩ := mem_locate_iff.mp hf
    exact (hproper f (List.mem_append_right _ List.mem_cons_self)).width_pos
  obtain ⟨before, after, hbetween⟩ := List.append_of_mem hg
  have hpairwise := pairwise_locate start fs
  rw [hbetween, List.pairwise_append] at hpairwise
  obtain ⟨-, hrest, hcross⟩ := hpairwise
  rw [hbetween] at hf
  rcases List.mem_append.mp hf with hbefore | hmem
  · have hend := hcross (p, f) hbefore (q, g) List.mem_cons_self
    simp only at hend
    omega
  · rcases List.mem_cons.mp hmem with heq | hafter
    · exact heq
    · have hend := (List.pairwise_cons.mp hrest).1 (p, f) hafter
      simp only at hend
      omega

/-- Every character of a text lies in a fragment. -/
theorem exists_mem_locate
    {fs : List Fragment} {before after : List Char} {c : Char}
    (h : fs.flatMap text = before ++ c :: after) (start : Nat) :
    ∃ place f u v, (place, f) ∈ locate start fs ∧ f.text = u ++ c :: v ∧
      start + Text.width before = place + Text.width u := by
  induction fs generalizing before start with
  | nil =>
      simp at h
  | cons f fs ih =>
      have hrest :
          ∀ {before' : List Char}, fs.flatMap text = before' ++ c :: after →
            before = f.text ++ before' →
              ∃ place g u v, (place, g) ∈ locate start (f :: fs) ∧ g.text = u ++ c :: v ∧
                start + Text.width before = place + Text.width u := by
        intro before' hfs hbefore
        obtain ⟨place, g, u, v, hmem, htext, hplace⟩ := ih hfs (start + Text.width f.text)
        refine ⟨place, g, u, v, List.mem_cons_of_mem _ hmem, htext, ?_⟩
        rw [hbefore, Text.width_append, ← hplace]
        omega
      rw [List.flatMap_cons, List.append_eq_append_iff] at h
      rcases h with ⟨before', hbefore, hfs⟩ | ⟨u, htext, hafter⟩
      · exact hrest hfs hbefore
      · by_cases hu : u = []
        · rw [hu, List.nil_append] at hafter
          rw [hu, List.append_nil] at htext
          exact hrest (by rw [← hafter, List.nil_append]) (by rw [htext, List.append_nil])
        · obtain ⟨d, v, rfl⟩ := List.exists_cons_of_ne_nil hu
          obtain ⟨rfl, -⟩ := List.cons.inj hafter
          exact ⟨start, f, before, v, List.mem_cons_self, htext, rfl⟩

section

variable {α : Type} {place : α → Nat} {find : Nat × Fragment → Option α}

theorem filter_filterMap_eq_nil
    (hfind : ∀ p f x, find (p, f) = some x → place x = p)
    {entries : List (Nat × Fragment)} {p : Nat} (h : ∀ entry ∈ entries, entry.1 ≠ p) :
    (entries.filterMap find).filter (fun x => place x == p) = [] := by
  rw [List.filter_eq_nil_iff]
  intro x hx
  obtain ⟨⟨q, g⟩, hq, hg⟩ := List.mem_filterMap.mp hx
  rw [hfind q g x hg, beq_iff_eq]
  exact h (q, g) hq

/-- Of what is found at the places of fragments, only what is found in a fragment
is found at its place. -/
theorem filter_filterMap_locate
    (hfind : ∀ p f x, find (p, f) = some x → place x = p)
    {fs : List Fragment} (hproper : ∀ f ∈ fs, f.Proper)
    {start p : Nat} {f : Fragment} (hmem : (p, f) ∈ locate start fs) :
    ((locate start fs).filterMap find).filter (fun x => place x == p) =
      (find (p, f)).toList := by
  obtain ⟨before, after, hbetween⟩ := List.append_of_mem hmem
  have hpairwise := pairwise_locate start fs
  rw [hbetween, List.pairwise_append] at hpairwise
  obtain ⟨-, hrest, hcross⟩ := hpairwise
  have hwidth :
      ∀ entry ∈ locate start fs, 0 < Text.width entry.2.text := by
    rintro ⟨q, g⟩ hq
    obtain ⟨fs₁, fs₂, rfl, -⟩ := mem_locate_iff.mp hq
    exact (hproper g (List.mem_append_right _ List.mem_cons_self)).width_pos
  rw [hbetween] at hwidth
  have hbefore :
      (before.filterMap find).filter (fun x => place x == p) = [] := by
    apply filter_filterMap_eq_nil hfind
    intro entry hentry
    have hle := hcross entry hentry (p, f) List.mem_cons_self
    have hpos := hwidth entry (List.mem_append_left _ hentry)
    simp only at hle
    omega
  have hafter :
      (after.filterMap find).filter (fun x => place x == p) = [] := by
    apply filter_filterMap_eq_nil hfind
    intro entry hentry
    have hle := (List.pairwise_cons.mp hrest).1 entry hentry
    have hpos := hwidth (p, f) (List.mem_append_right _ List.mem_cons_self)
    simp only at hle hpos
    omega
  rw [hbetween, List.filterMap_append, List.filter_append, hbefore, List.nil_append,
    List.filterMap_cons]
  cases hx : find (p, f) with
  | none =>
      exact hafter
  | some x =>
      simp only [List.filter_cons, hfind p f x hx, beq_self_eq_true, if_true, hafter,
        Option.toList_some]

end

/-! ## What fragments make -/

/-- The kind of token that a fragment makes, if it makes one. -/
def kind? : Fragment → Option TokenKind
  | .lexeme l => some l.kind
  | _ => none

/-- Nothing is wrong with the fragment. -/
def Sound : Fragment → Prop
  | .blank _ => True
  | .stray _ => False
  | .lexeme l => l.fault = none

theorem map_kind_filterMap_token?
    (fs : List Fragment) (start : Nat) :
    ((locate start fs).filterMap token?).map Token.kind = fs.filterMap kind? := by
  induction fs generalizing start with
  | nil =>
      rfl
  | cons f fs ih =>
      cases f with
      | lexeme l =>
          simp only [locate, List.filterMap_cons, token?, kind?, List.map_cons, ih]
      | _ =>
          simp only [locate, List.filterMap_cons, token?, kind?, ih]

theorem filterMap_error?_eq_nil_iff
    (fs : List Fragment) (start : Nat) :
    (locate start fs).filterMap error? = [] ↔ ∀ f ∈ fs, f.Sound := by
  induction fs generalizing start with
  | nil =>
      simp [locate]
  | cons f fs ih =>
      rw [locate, List.forall_mem_cons, ← ih (start + Text.width f.text)]
      cases f with
      | blank c =>
          simp [error?, Sound]
      | stray c =>
          simp [error?, Sound]
      | lexeme l =>
          cases hfault : l.fault <;> simp [error?, Sound, hfault]

/-- A fragment that is sound and makes no token is a blank. -/
theorem exists_eq_blank
    {f : Fragment} (hsound : f.Sound) (hkind : f.kind? = none) :
    ∃ c, f = .blank c := by
  cases f with
  | blank c =>
      exact ⟨c, rfl⟩
  | stray c =>
      exact hsound.elim
  | lexeme l =>
      exact absurd hkind (Option.some_ne_none _)

end Fragment

/-- A text is one faultless token exactly when it is one faultless lexeme. -/
theorem tokenizeText_eq_single_iff
    {s : List Char} {kind : TokenKind} :
    tokenizeText s = ⟨[⟨kind, 0, Text.width s⟩], []⟩ ↔
      ∃ l, Fragment.ofText s = [.lexeme l] ∧ l.kind = kind ∧ l.fault = none := by
  constructor
  · intro h
    obtain ⟨htokens, herrors⟩ := Tokenized.mk.inj h
    have htoken :
        (⟨kind, 0, Text.width s⟩ : Token) ∈
          (Fragment.locate 0 (Fragment.ofText s)).filterMap Fragment.token? := by
      rw [htokens]
      exact List.mem_singleton_self _
    obtain ⟨⟨place, f⟩, hmem, hf⟩ := List.mem_filterMap.mp htoken
    obtain ⟨before, after, hfragments, hplace⟩ := Fragment.mem_locate_iff.mp hmem
    have hproper := fun g (hg : g ∈ Fragment.ofText s) => Fragment.proper_of_mem_ofText hg
    have hspell := Fragment.flatMap_text_ofText s
    rw [hfragments] at hproper hspell
    cases f with
    | blank c => contradiction
    | stray c => contradiction
    | lexeme l =>
        obtain ⟨rfl, hstart, hstop⟩ := Token.mk.inj (Option.some.inj hf)
        have hwidth := congrArg Text.width hspell
        rw [List.flatMap_append, List.flatMap_cons, Text.width_append, Text.width_append]
          at hwidth
        have htext : (Fragment.lexeme l).text = l.text := rfl
        rw [htext] at hwidth
        have hbefore : before = [] := by
          apply Fragment.eq_nil_of_width_eq_zero fun g hg =>
            hproper g (List.mem_append_left _ hg)
          omega
        have hafter : after = [] := by
          apply Fragment.eq_nil_of_width_eq_zero fun g hg =>
            hproper g (List.mem_append_right _ (List.mem_cons_of_mem _ hg))
          omega
        subst hbefore hafter
        refine ⟨l, hfragments, rfl, ?_⟩
        rw [hfragments] at herrors
        simpa [Fragment.locate, Fragment.error?] using herrors
  · rintro ⟨l, hfragments, rfl, hfault⟩
    have hspell := Fragment.flatMap_text_ofText s
    rw [hfragments, List.flatMap_singleton] at hspell
    rw [tokenizeText, hfragments, ← hspell]
    simp [Fragment.locate, Fragment.token?, Fragment.error?, Fragment.text, hfault]

/-- Read without errors as one token of this kind. -/
def Tokenized.Single (tokenized : Tokenized) (kind : TokenKind) : Prop :=
  tokenized.errors = [] ∧ tokenized.tokens.map Token.kind = [kind]

/-- With no blank at either end, a text that is read as one token is that token
from end to end. -/
theorem tokenizeText_single_iff
    {s : List Char} (hhead : ∀ c ∈ s.head?, Text.isBlank c = false)
    (hlast : ∀ c ∈ s.getLast?, Text.isBlank c = false) (kind : TokenKind) :
    (tokenizeText s).Single kind ↔
      tokenizeText s = ⟨[⟨kind, 0, Text.width s⟩], []⟩ := by
  constructor
  · rintro ⟨herrors, hkinds⟩
    have hspell := Fragment.flatMap_text_ofText s
    have hproper := fun f (hf : f ∈ Fragment.ofText s) => Fragment.proper_of_mem_ofText hf
    have hsound := (Fragment.filterMap_error?_eq_nil_iff (Fragment.ofText s) 0).mp herrors
    rw [tokenizeText, Fragment.map_kind_filterMap_token?, List.filterMap_eq_cons_iff] at hkinds
    obtain ⟨before, f, after, hfragments, hbefore, hkind, hafter⟩ := hkinds
    rw [List.filterMap_eq_nil_iff] at hafter
    rw [hfragments] at hspell hproper hsound
    -- what stands beside the lexeme would bring its blank to an end of the text
    have hbefore : before = [] := by
      by_cases hnil : before = []
      · exact hnil
      · obtain ⟨g, before, rfl⟩ := List.exists_cons_of_ne_nil hnil
        obtain ⟨c, rfl⟩ := Fragment.exists_eq_blank (hsound g (by simp)) (hbefore g (by simp))
        have hblank : Text.isBlank c = true := hproper (.blank c) (by simp)
        have hfirst : Text.isBlank c = false := hhead c (by rw [← hspell]; rfl)
        rw [hblank] at hfirst
        contradiction
    have hafter : after = [] := by
      by_cases hnil : after = []
      · exact hnil
      · obtain ⟨init, g, rfl⟩ : ∃ init g, after = init ++ [g] :=
          ⟨_, _, (List.dropLast_concat_getLast hnil).symm⟩
        obtain ⟨c, rfl⟩ := Fragment.exists_eq_blank (hsound g (by simp)) (hafter g (by simp))
        have hblank : Text.isBlank c = true := hproper (.blank c) (by simp)
        have hend : Text.isBlank c = false := by
          apply hlast c
          rw [← hspell]
          simp [Fragment.text]
        rw [hblank] at hend
        contradiction
    subst hbefore hafter
    cases f with
    | lexeme l =>
        exact tokenizeText_eq_single_iff.mpr
          ⟨l, hfragments, Option.some.inj hkind, hsound (.lexeme l) List.mem_cons_self⟩
    | _ =>
        contradiction
  · intro h
    rw [h]
    exact ⟨rfl, rfl⟩

/-- Content between delimiters makes one faultless token over the whole text
exactly when it holds together; the token stands for that content. -/
theorem tokenizeText_delimited_iff
    (d : Delimiter) (content : List Char) (kind : TokenKind) :
    tokenizeText (d.opening :: content ++ [d.closing]) =
        ⟨[⟨kind, 0, Text.width (d.opening :: content ++ [d.closing])⟩], []⟩ ↔
      Delimiter.staysOpen d.closing false content = true ∧
        kind = (Lexeme.delimited d content true).kind := by
  rw [tokenizeText_eq_single_iff]
  constructor
  · rintro ⟨l, hfragments, rfl, hfault⟩
    rcases hcut : Delimiter.split d.closing (content ++ [d.closing]) with ⟨u, after⟩
    rw [List.cons_append, Fragment.ofText_cons, Fragment.split_opening, hcut] at hfragments
    obtain ⟨hlexeme, hnil⟩ := List.cons.inj hfragments
    obtain rfl := Fragment.lexeme.inj hlexeme
    cases after with
    | none =>
        exact absurd hfault (Option.some_ne_none _)
    | some rest =>
        have hrest : rest = [] := by
          rw [← Fragment.flatMap_text_ofText rest]
          exact congrArg _ hnil
        subst hrest
        obtain ⟨hspell, hopen⟩ := (Delimiter.split_eq_some_iff d.closing_ne_backslash).mp hcut
        obtain rfl := List.append_cancel_right hspell
        exact ⟨hopen, rfl⟩
  · rintro ⟨hopen, rfl⟩
    refine ⟨.delimited d content true, ?_, rfl, rfl⟩
    rw [Fragment.ofText_delimited d hopen, Fragment.ofText_nil]

end QueryFormula
