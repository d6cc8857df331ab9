import Mathlib.Computability.Language
import QueryFormula.Proofs.Number.Nearest
import QueryFormula.Proofs.Token.NumberText
import QueryFormula.Proofs.Token.Separation

/-!
# Numbers by longest match

The texts of numbers are a regular language.  Wherever cutting up a text comes to
the beginning of a number, the longest beginning of the rest that belongs to the
language makes one token, and what comes after it is read as it is alone.
-/

namespace QueryFormula

open scoped Computability

/-! ## The language of numbers -/

/-- One digit. -/
def digit : Language Char :=
  {w | ∃ c, c.isDigit = true ∧ w = [c]}

/-- The numbers without an exponent: digits, perhaps with a point behind or among
them, or a point before digits. -/
def mantissas : Language Char :=
  digit * digit∗ * (1 + {['.']} * digit∗) + {['.']} * (digit * digit∗)

/-- The exponents: a letter, perhaps a sign, and digits. -/
def exponents : Language Char :=
  ({['e']} + {['E']}) * (1 + {['+']} + {['-']}) * (digit * digit∗)

/-- The numbers. -/
def numbers : Language Char :=
  mantissas * (1 + exponents)

theorem mem_optional_iff {L : Language Char} {w : List Char} :
    w ∈ 1 + L ↔ w = [] ∨ w ∈ L := by
  rw [Language.mem_add, Language.mem_one]

theorem mem_digit_kstar_iff {w : List Char} :
    w ∈ digit∗ ↔ ∀ c ∈ w, c.isDigit = true := by
  rw [Language.mem_kstar]
  constructor
  · rintro ⟨ws, rfl, hws⟩ c hc
    obtain ⟨v, hv, hcv⟩ := List.mem_flatten.mp hc
    obtain ⟨d, hd, rfl⟩ := hws v hv
    rwa [List.mem_singleton.mp hcv]
  · intro h
    refine ⟨w.map ([·]), ?_, ?_⟩
    · rw [← List.flatMap_def]
      exact (List.flatMap_singleton' w).symm
    · intro v hv
      obtain ⟨c, hc, rfl⟩ := List.mem_map.mp hv
      exact ⟨c, h c hc, rfl⟩

theorem mem_digits_iff {w : List Char} :
    w ∈ digit * digit∗ ↔ w ≠ [] ∧ ∀ c ∈ w, c.isDigit = true := by
  rw [Language.mem_mul]
  constructor
  · rintro ⟨u, ⟨c, hc, rfl⟩, v, hv, rfl⟩
    rw [List.singleton_append, List.forall_mem_cons]
    exact ⟨List.cons_ne_nil c v, hc, mem_digit_kstar_iff.mp hv⟩
  · rintro ⟨hne, h⟩
    obtain ⟨c, v, rfl⟩ := List.exists_cons_of_ne_nil hne
    rw [List.forall_mem_cons] at h
    exact ⟨[c], ⟨c, h.1, rfl⟩, v, mem_digit_kstar_iff.mpr h.2, rfl⟩

theorem mem_exponents_iff {w : List Char} :
    w ∈ exponents ↔ ∃ e : ExponentText, e.WellFormed ∧ e.text = w := by
  rw [exponents, Language.mem_mul]
  constructor
  · rintro ⟨u, hu, ds, hds, rfl⟩
    obtain ⟨letter, hletter, sign, hsign, rfl⟩ := Language.mem_mul.mp hu
    obtain ⟨hne, hdigits⟩ := mem_digits_iff.mp hds
    obtain ⟨c, hc, rfl⟩ : ∃ c, (c = 'e' ∨ c = 'E') ∧ letter = [c] := by
      rcases (Language.mem_add _ _ _).mp hletter with h | h
      · exact ⟨'e', .inl rfl, h⟩
      · exact ⟨'E', .inr rfl, h⟩
    obtain ⟨s, hs, rfl⟩ : ∃ s : Option Char, (∀ c ∈ s, c = '+' ∨ c = '-') ∧ sign = s.toList := by
      rcases (Language.mem_add _ _ _).mp hsign with h | h
      · rcases mem_optional_iff.mp h with h | h
        · exact ⟨none, fun c hc => absurd hc (Option.not_mem_none c), h⟩
        · exact ⟨some '+', fun c hc => .inl (Option.mem_some.mp hc).symm, h⟩
      · exact ⟨some '-', fun c hc => .inr (Option.mem_some.mp hc).symm, h⟩
    exact ⟨⟨c, s, ds⟩, ⟨hc, hs, hne, hdigits⟩, rfl⟩
  · rintro ⟨⟨c, s, ds⟩, ⟨hc, hs, hne, hdigits⟩, rfl⟩
    refine ⟨[c] ++ s.toList, Language.mem_mul.mpr ⟨[c], ?_, s.toList, ?_, rfl⟩, ds,
      mem_digits_iff.mpr ⟨hne, hdigits⟩, rfl⟩
    · rcases hc with rfl | rfl
      · exact (Language.mem_add _ _ _).mpr (.inl rfl)
      · exact (Language.mem_add _ _ _).mpr (.inr rfl)
    · rw [Language.mem_add, Language.mem_add]
      cases s with
      | none => exact .inl (.inl rfl)
      | some c =>
          rcases hs c rfl with rfl | rfl
          · exact .inl (.inr rfl)
          · exact .inr rfl

theorem mem_mantissas_iff {w : List Char} :
    w ∈ mantissas ↔
      ∃ n : NumberText, n.WellFormed ∧ n.exponent = none ∧ n.text = w := by
  have hnone : ∀ {p : ExponentText → Prop}, ∀ e ∈ (none : Option ExponentText), p e :=
    fun e he => absurd he (Option.not_mem_none e)
  rw [mantissas, Language.mem_add]
  constructor
  · rintro (h | h)
    · obtain ⟨whole, hwhole, rest, hrest, rfl⟩ := Language.mem_mul.mp h
      obtain ⟨hne, hdigits⟩ := mem_digits_iff.mp hwhole
      obtain ⟨fraction, hfraction, rfl⟩ :
          ∃ fraction : Option (List Char), (∀ ds ∈ fraction, ∀ c ∈ ds, c.isDigit = true) ∧
            NumberText.fractionText fraction = rest := by
        rcases mem_optional_iff.mp hrest with h | h
        · exact ⟨none, fun ds hds => absurd hds (Option.not_mem_none ds), h.symm⟩
        · obtain ⟨point, rfl, ds, hds, rfl⟩ := Language.mem_mul.mp h
          refine ⟨some ds, ?_, rfl⟩
          intro ds' hds'
          rw [← Option.mem_some.mp hds']
          exact mem_digit_kstar_iff.mp hds
      refine ⟨⟨whole, fraction, none⟩, ⟨hdigits, hfraction, .inl hne, hnone, hnone, hnone⟩, rfl, ?_⟩
      exact List.append_nil _
    · obtain ⟨point, rfl, ds, hds, rfl⟩ := Language.mem_mul.mp h
      obtain ⟨hne, hdigits⟩ := mem_digits_iff.mp hds
      refine ⟨⟨[], some ds, none⟩, ⟨fun c hc => absurd hc List.not_mem_nil, ?_,
        .inr ⟨ds, rfl, hne⟩, hnone, hnone, hnone⟩, rfl, ?_⟩
      · intro ds' hds'
        rw [← Option.mem_some.mp hds']
        exact hdigits
      · exact List.append_nil _
  · rintro ⟨⟨whole, fraction, exponent⟩, h, rfl, rfl⟩
    have htext : NumberText.text ⟨whole, fraction, none⟩ =
        whole ++ NumberText.fractionText fraction := List.append_nil _
    rw [htext]
    by_cases hwhole : whole = []
    · rcases h.has_digit with hne | ⟨ds, hds, hne⟩
      · exact absurd hwhole hne
      · obtain rfl := Option.mem_def.mp hds
        rw [hwhole]
        exact .inr (Language.mem_mul.mpr
          ⟨['.'], rfl, ds, mem_digits_iff.mpr ⟨hne, h.fraction_digits ds rfl⟩, rfl⟩)
    · refine .inl (Language.mem_mul.mpr
        ⟨whole, mem_digits_iff.mpr ⟨hwhole, h.whole_digits⟩, _, ?_, rfl⟩)
      cases fraction with
      | none => exact mem_optional_iff.mpr (.inl rfl)
      | some ds =>
          refine mem_optional_iff.mpr (.inr (Language.mem_mul.mpr ⟨['.'], rfl, ds, ?_, rfl⟩))
          exact mem_digit_kstar_iff.mpr (h.fraction_digits ds rfl)

/-- The language holds the texts of numbers. -/
theorem mem_numbers_iff {w : List Char} :
    w ∈ numbers ↔ ∃ n : NumberText, n.WellFormed ∧ n.text = w := by
  rw [numbers, Language.mem_mul]
  constructor
  · rintro ⟨u, hu, v, hv, rfl⟩
    obtain ⟨n, hn, hexponent, rfl⟩ := mem_mantissas_iff.mp hu
    rcases mem_optional_iff.mp hv with h | h
    · rw [h, List.append_nil]
      exact ⟨n, hn, rfl⟩
    · obtain ⟨e, he, rfl⟩ := mem_exponents_iff.mp h
      refine ⟨{ n with exponent := some e }, ⟨hn.whole_digits, hn.fraction_digits, hn.has_digit,
        ?_, ?_, ?_⟩, ?_⟩
      · rintro e' he'
        rw [← Option.mem_some.mp he']
        exact he.letter
      · rintro e' he'
        rw [← Option.mem_some.mp he']
        exact he.sign
      · rintro e' he'
        rw [← Option.mem_some.mp he']
        exact ⟨he.digits_ne_nil, he.digits⟩
      · simp [NumberText.text, hexponent, ExponentText.textOf]
  · rintro ⟨n, hn, rfl⟩
    refine ⟨n.whole ++ NumberText.fractionText n.fraction, ?_,
      ExponentText.textOf n.exponent, ?_, rfl⟩
    · refine mem_mantissas_iff.mpr ⟨{ n with exponent := none }, ?_, rfl, List.append_nil _⟩
      exact ⟨hn.whole_digits, hn.fraction_digits, hn.has_digit,
        fun e he => absurd he (Option.not_mem_none e),
        fun e he => absurd he (Option.not_mem_none e),
        fun e he => absurd he (Option.not_mem_none e)⟩
    · cases hexponent : n.exponent with
      | none => exact mem_optional_iff.mpr (.inl rfl)
      | some e =>
          refine mem_optional_iff.mpr (.inr (mem_exponents_iff.mpr ⟨e, ?_, rfl⟩))
          exact hn.exponent hexponent

/-! ## Longest match -/

/-- The longest beginning of a text that belongs to a language. -/
structure IsLongestMatch (L : Language Char) (s text : List Char) : Prop where
  mem : text ∈ L
  isPrefix : text <+: s
  longest : ∀ t ∈ L, t <+: s → t <+: text

/-- What is cut off as a number is the longest one that a text begins with. -/
theorem isLongestMatch_split
    {s : List Char} (h : NumberText.starts s = true) :
    IsLongestMatch numbers s (NumberText.split s).1.text where
  mem := mem_numbers_iff.mpr ⟨_, NumberText.wellFormed_split h, rfl⟩
  isPrefix := ⟨_, NumberText.text_split s⟩
  longest := by
    rintro t ht ⟨rest, rfl⟩
    obtain ⟨n, hn, rfl⟩ := mem_numbers_iff.mp ht
    exact NumberText.text_isPrefix_split hn rest

/-! ## The kinds of numbers -/

/-- The text of a number is that of an integer exactly when it is digits only and not
too large; any other is rounded. -/
structure IsNumberKind (text : List Char) (kind : TokenKind) : Prop where
  integer_iff : ∀ v : ℕ, kind = .integer v ↔
    (∀ c ∈ text, c.isDigit = true) ∧ Denotes text v ∧ v ≤ 2 ^ 63 - 1
  float : (∀ v, kind ≠ .integer v) →
    ∃ q x, Denotes text q ∧ Magnitude.RoundsTo q x ∧ kind = .float x

namespace NumberText

variable {n : NumberText}

theorem WellFormed.denotes (h : n.WellFormed) :
    Denotes n.text n.value :=
  ⟨false, n, h, rfl, rfl⟩

theorem WellFormed.digits_only_iff (h : n.WellFormed) :
    (∀ c ∈ n.text, c.isDigit = true) ↔ n.fraction = none ∧ n.exponent = none := by
  obtain ⟨whole, fraction, exponent⟩ := n
  constructor
  · intro hdigits
    constructor
    · cases fraction with
      | none => rfl
      | some ds => exact absurd (hdigits '.' (by simp [text, fractionText])) (by decide)
    · cases exponent with
      | none => rfl
      | some e =>
          have hletter := hdigits e.letter (by simp [text, ExponentText.textOf, ExponentText.text])
          rcases h.exponent_letter e rfl with he | he <;> rw [he] at hletter <;> contradiction
  · rintro ⟨rfl, rfl⟩
    simpa [text, fractionText, ExponentText.textOf] using h.whole_digits

theorem value_of_digits (hfraction : n.fraction = none) (hexponent : n.exponent = none) :
    n.value = Nat.ofDigitChars 10 n.whole 0 := by
  simp [value, hfraction, hexponent]

/-- What is not an integer is rounded. -/
theorem kind_eq_float (h : ∀ v, n.kind ≠ .integer v) :
    n.kind = .float (Magnitude.ofDecimal n.decimal) := by
  rw [kind] at h ⊢
  split at h
  · exact absurd rfl (h _)
  · next hinteger => rw [if_neg hinteger]

theorem WellFormed.isNumberKind (h : n.WellFormed) :
    IsNumberKind n.text n.kind where
  integer_iff := by
    intro v
    rw [h.digits_only_iff, kind]
    constructor
    · intro hkind
      split at hkind
      · next hinteger =>
        obtain ⟨hfraction, hexponent, hlt⟩ := hinteger
        rw [Option.isNone_iff_eq_none] at hfraction hexponent
        obtain rfl := TokenKind.integer.inj hkind
        have hdenotes := h.denotes
        rw [value_of_digits hfraction hexponent] at hdenotes
        exact ⟨⟨hfraction, hexponent⟩, hdenotes, Nat.le_pred_of_lt hlt⟩
      · contradiction
    · rintro ⟨⟨hfraction, hexponent⟩, hdenotes, hle⟩
      have hvalue : v = Nat.ofDigitChars 10 n.whole 0 := by
        have hsame := hdenotes.unique h.denotes
        rw [value_of_digits hfraction hexponent] at hsame
        exact_mod_cast hsame
      rw [if_pos ⟨by rw [hfraction]; rfl, by rw [hexponent]; rfl, by omega⟩, hvalue]
  float := by
    intro hkind
    refine ⟨n.value, Magnitude.ofDecimal n.decimal, h.denotes, ?_, kind_eq_float hkind⟩
    rw [← value_decimal]
    exact Magnitude.roundsTo_ofDecimal n.decimal

end NumberText

/-! ## Numbers within a text -/

namespace Fragment

/-- Cutting up a text comes to this rest of it, past these fragments. -/
inductive Reaches (source : List Char) : List Fragment → List Char → Prop
  | start : Reaches source [] source
  | step {before : List Fragment} {c : Char} {rest after : List Char} {f : Fragment}
      (h : Reaches source before (c :: rest)) (hsplit : split c rest = (f, after)) :
      Reaches source (before ++ [f]) after

/-- What is cut off before does not matter for the rest. -/
theorem Reaches.ofText_eq
    {source rest : List Char} {before : List Fragment} (h : Reaches source before rest) :
    ofText source = before ++ ofText rest := by
  induction h with
  | start => rfl
  | step _ hsplit ih => rw [ih, ofText_cons, hsplit, List.append_assoc, List.singleton_append]

/-- A rest that begins with a number makes a lexeme of it. -/
theorem split_of_starts
    {c : Char} {rest : List Char} (h : NumberText.starts (c :: rest) = true) :
    split c rest =
      (.lexeme (.number (NumberText.split (c :: rest)).1), (NumberText.split (c :: rest)).2) := by
  have hblank : Text.isBlank c = false := by
    by_cases hpoint : c = '.'
    · rw [hpoint]
      decide
    · rw [NumberText.starts_of_ne_point hpoint] at h
      exact Text.isBlank_of_isDigit h
  rw [split, hblank, Lexeme.split_eq_some_iff.mpr (.number h)]
  rfl

/-- The tokens of fragments. -/
def tokens (fs : List Fragment) : List Token :=
  (locate 0 fs).filterMap token?

/-- What is wrong with fragments. -/
def errors (fs : List Fragment) : List TokenError :=
  (locate 0 fs).filterMap error?

/-- What is found before a fragment, in it, and behind it. -/
theorem filterMap_locate_append_cons
    {α : Type} {find : Nat × Fragment → Option α} {move : Nat → α → α}
    (hmove : ∀ n p f, find (p + n, f) = (find (p, f)).map (move n))
    (fs : List Fragment) (f : Fragment) (gs : List Fragment) :
    (locate 0 (fs ++ f :: gs)).filterMap find =
      (locate 0 fs).filterMap find ++ ((find (Text.width (fs.flatMap text), f)).toList ++
        ((locate 0 gs).filterMap find).map
          (move (Text.width (fs.flatMap text) + Text.width f.text))) := by
  rw [locate_append, List.filterMap_append, Nat.zero_add, locate, List.filterMap_cons,
    filterMap_locate hmove (_ + _)]
  cases find (Text.width (fs.flatMap text), f) <;> rfl

end Fragment

/-- A number is read off the rest of a text, which begins at a place, and makes one
token and no error.  What is behind it is read as it is alone. -/
structure TakesNumber (source : String) (before : List Fragment) (start : ℕ)
    (rest text after : List Char) (kind : TokenKind) : Prop where
  longest : IsLongestMatch numbers rest text
  left : rest = text ++ after
  isNumberKind : IsNumberKind text kind
  tokens : (tokenize source).tokens =
    Fragment.tokens before ++ ⟨kind, start, start + Text.width text⟩ ::
      (tokenizeText after).tokens.map (Token.moved (start + Text.width text))
  errors : (tokenize source).errors =
    Fragment.errors before ++
      (tokenizeText after).errors.map (TokenError.moved (start + Text.width text))

namespace NumberText

theorem starts_of_digit
    {rest : List Char}
    (h : ∃ c after, c.isDigit = true ∧ (rest = c :: after ∨ rest = '.' :: c :: after)) :
    starts rest = true := by
  obtain ⟨c, after, hc, rfl | rfl⟩ := h
  · have hpoint : c ≠ '.' := by
      rintro rfl
      contradiction
    rw [starts_of_ne_point hpoint, hc]
  · exact hc

end NumberText

/-- Wherever a digit comes, or a point before a digit, the longest number is read and
no more than that. -/
theorem exists_takesNumber
    {source : String} {before : List Fragment} {rest : List Char}
    (h : Fragment.Reaches source.toList before rest)
    (hstart : ∃ c after, c.isDigit = true ∧ (rest = c :: after ∨ rest = '.' :: c :: after)) :
    ∃ text after kind, TakesNumber source before (Text.width (before.flatMap Fragment.text))
      rest text after kind := by
  have hstarts := NumberText.starts_of_digit hstart
  have hwell := NumberText.wellFormed_split hstarts
  obtain ⟨c, tail, rfl⟩ : ∃ c tail, rest = c :: tail := by
    obtain ⟨c, after, -, rfl | rfl⟩ := hstart
    · exact ⟨c, after, rfl⟩
    · exact ⟨'.', c :: after, rfl⟩
  rcases hcut : NumberText.split (c :: tail) with ⟨n, after⟩
  have hlongest := isLongestMatch_split hstarts
  have hspell := NumberText.text_split (c :: tail)
  have hlexeme := Fragment.split_of_starts hstarts
  rw [hcut] at hwell hlongest hspell hlexeme
  have hfragments : Fragment.ofText source.toList =
      before ++ .lexeme (.number n) :: Fragment.ofText after := by
    rw [h.ofText_eq, Fragment.ofText_cons, hlexeme]
  refine ⟨n.text, after, n.kind, hlongest, hspell.symm, hwell.isNumberKind, ?_, ?_⟩
  · rw [tokens_tokenize, hfragments,
      Fragment.filterMap_locate_append_cons Fragment.token?_add]
    rfl
  · rw [errors_tokenize, hfragments,
      Fragment.filterMap_locate_append_cons Fragment.error?_add]
    rfl

/-- A number behind a sign ends before an exponent without digits. -/
theorem exists_takesNumber_exponent :
    Fragment.Reaches "x*.5e+.5".toList [.lexeme (.word ['x']), .lexeme (.sign .times)]
        ['.', '5', 'e', '+', '.', '5'] ∧
      (∃ c after, c.isDigit = true ∧
        (['.', '5', 'e', '+', '.', '5'] = c :: after ∨
          ['.', '5', 'e', '+', '.', '5'] = '.' :: c :: after)) ∧
      ∃ text after kind, TakesNumber "x*.5e+.5"
        [.lexeme (.word ['x']), .lexeme (.sign .times)] 2
        ['.', '5', 'e', '+', '.', '5'] text after kind := by
  have hsource : "x*.5e+.5".toList = ['x', '*', '.', '5', 'e', '+', '.', '5'] := rfl
  have hreaches : Fragment.Reaches "x*.5e+.5".toList
      [.lexeme (.word ['x']), .lexeme (.sign .times)] ['.', '5', 'e', '+', '.', '5'] := by
    have hword : Fragment.split 'x' ['*', '.', '5', 'e', '+', '.', '5'] =
        (.lexeme (.word ['x']), ['*', '.', '5', 'e', '+', '.', '5']) := by decide +kernel
    rw [hsource]
    exact .step (.step .start hword) rfl
  have hstart : ∃ c after, c.isDigit = true ∧
      (['.', '5', 'e', '+', '.', '5'] = c :: after ∨
        ['.', '5', 'e', '+', '.', '5'] = '.' :: c :: after) :=
    ⟨'5', ['e', '+', '.', '5'], rfl, .inr rfl⟩
  exact ⟨hreaches, hstart, exists_takesNumber hreaches hstart⟩

end QueryFormula
