import QueryFormula.Proofs.Token.Account

/-!
# Texts apart by blanks

No lexeme looks beyond a blank: what a word or a number may go on with, what makes a
sign longer and what an exponent needs are never blank, and the end of a text stops
them as a blank does.  Only a literal or a name without its closing delimiter would
go on.  A text with all its delimiters therefore reads the same before a blank as
alone, and what comes after the blank reads as it does alone, further to the right.
Blanks are not the only characters that stop a lexeme, and the lemmas on lexemes hold
for all that do.
-/

namespace QueryFormula

/-- A text that is empty or begins with a blank. -/
def Apart (tail : List Char) : Prop :=
  ∀ c ∈ tail.head?, Text.isBlank c = true

theorem Apart.forall_head?
    {tail : List Char} (h : Apart tail) {p : Char → Bool}
    (hp : ∀ n ∈ Text.blankPoints, p (Char.ofNat n) = false) :
    ∀ c ∈ tail.head?, p c = false := by
  intro c hc
  have hpoint := hp c.toNat (Text.mem_blankPoints_of_isBlank (h c hc))
  rwa [Char.ofNat_toNat] at hpoint

/-- A text that is empty or begins with a character that goes on no lexeme: it belongs
to no word and is no point and no sign that a number or another sign may take along. -/
def Stops (tail : List Char) : Prop :=
  ∀ c ∈ tail.head?, Text.isWordChar c = false ∧ c ∉ ['.', '+', '-', '=']

theorem Apart.stops
    {tail : List Char} (h : Apart tail) :
    Stops tail := by
  intro c hc
  have hword := h.forall_head? (p := Text.isWordChar) (by decide +kernel) c hc
  have hsign := h.forall_head? (p := (['.', '+', '-', '='].contains ·)) (by decide) c hc
  rw [← Bool.not_eq_true, List.contains_iff_mem] at hsign
  exact ⟨hword, hsign⟩

namespace Stops

variable {tail : List Char}

theorem head?_ne_of_isWordChar
    (h : Stops tail) {c : Char} (hc : Text.isWordChar c = true) :
    tail.head? ≠ some c := by
  intro hhead
  rw [(h c hhead).1] at hc
  contradiction

theorem head?_ne
    (h : Stops tail) {c : Char} (hc : c ∈ ['.', '+', '-', '=']) :
    tail.head? ≠ some c := fun hhead => (h c hhead).2 hc

theorem isDigit_eq_false
    (h : Stops tail) :
    ∀ c ∈ tail.head?, c.isDigit = false := by
  intro c hc
  rw [← Bool.not_eq_true]
  intro hdigit
  have hword : Text.isWordChar c = true := by
    apply Text.isWordChar_of_alphanum
    rw [Char.isAlphanum, hdigit, Bool.or_true]
    exact .inl rfl
  exact h.head?_ne_of_isWordChar hword hc

theorem digits_append
    (h : Stops tail) (s : List Char) :
    (s ++ tail).takeWhile Char.isDigit = s.takeWhile Char.isDigit ∧
      (s ++ tail).dropWhile Char.isDigit = s.dropWhile Char.isDigit ++ tail :=
  Text.takeWhile_append_of_stop h.isDigit_eq_false s

theorem wordChars_append
    (h : Stops tail) (s : List Char) :
    (s ++ tail).takeWhile Text.isWordChar = s.takeWhile Text.isWordChar ∧
      (s ++ tail).dropWhile Text.isWordChar = s.dropWhile Text.isWordChar ++ tail :=
  Text.takeWhile_append_of_stop (fun c hc => (h c hc).1) s

end Stops

/-! ## Numbers before what stops them -/

namespace ExponentText

variable {tail : List Char}

theorem splitSign_append
    (h : Stops tail) (s : List Char) :
    splitSign (s ++ tail) = ((splitSign s).1, (splitSign s).2 ++ tail) := by
  cases s with
  | nil =>
      cases tail with
      | nil =>
          rfl
      | cons c tail =>
          have hsign : ¬ (c = '+' ∨ c = '-') := by
            rintro (rfl | rfl) <;> exact h.head?_ne (by decide) rfl
          have hnone : splitSign (c :: tail) = (none, c :: tail) := by
            rw [splitSign, if_neg hsign]
          exact hnone
  | cons c s =>
      rw [List.cons_append, splitSign, splitSign]
      split <;> rfl

theorem split_append
    (h : Stops tail) (s : List Char) :
    split (s ++ tail) = ((split s).1, (split s).2 ++ tail) := by
  cases s with
  | nil =>
      cases tail with
      | nil =>
          rfl
      | cons c tail =>
          have hletter : ¬ (c = 'e' ∨ c = 'E') := by
            rintro (rfl | rfl) <;> exact h.head?_ne_of_isWordChar (by decide) rfl
          have hnone : split (c :: tail) = (none, c :: tail) := by
            rw [split, if_neg hletter]
          exact hnone
  | cons c s =>
      obtain ⟨htake, hdrop⟩ := h.digits_append (splitSign s).2
      rw [List.cons_append, split, split, splitSign_append h]
      simp only [htake, hdrop]
      split
      · split <;> rfl
      · rfl

end ExponentText

namespace NumberText

variable {tail : List Char}

theorem splitFraction_append
    (h : Stops tail) (s : List Char) :
    splitFraction (s ++ tail) = ((splitFraction s).1, (splitFraction s).2 ++ tail) := by
  by_cases hpoint : ∃ rest, s = '.' :: rest
  · obtain ⟨rest, rfl⟩ := hpoint
    obtain ⟨htake, hdrop⟩ := h.digits_append rest
    rw [List.cons_append, splitFraction, splitFraction, htake, hdrop]
  · have hnone : splitFraction s = (none, s) := by
      rw [splitFraction]
      rintro rest rfl
      exact hpoint ⟨rest, rfl⟩
    rw [hnone, splitFraction]
    intro rest hs
    cases s with
    | nil =>
        apply h.head?_ne (c := '.') (by decide)
        rw [List.nil_append] at hs
        rw [hs, List.head?_cons]
    | cons c s =>
        exact hpoint ⟨s, by rw [(List.cons.inj hs).1]⟩

theorem split_append
    (h : Stops tail) (s : List Char) :
    split (s ++ tail) = ((split s).1, (split s).2 ++ tail) := by
  obtain ⟨htake, hdrop⟩ := h.digits_append s
  simp only [split, htake, hdrop, splitFraction_append h, ExponentText.split_append h]

theorem starts_append
    (h : Stops tail) (c : Char) (s : List Char) :
    starts (c :: s ++ tail) = starts (c :: s) := by
  by_cases hpoint : c = '.'
  · subst hpoint
    cases s with
    | nil =>
        cases tail with
        | nil =>
            rfl
        | cons d tail =>
            have hd : d.isDigit = false := h.isDigit_eq_false d rfl
            exact hd
    | cons d s =>
        rfl
  · rw [List.cons_append, starts_of_ne_point hpoint, starts_of_ne_point hpoint]

end NumberText

/-! ## Lexemes before what stops them -/

/-- A closing character that has come is not looked for again. -/
theorem Delimiter.split_append
    {close : Char} (hclose : close ≠ '\\') {s content after : List Char}
    (h : split close s = (content, some after)) (tail : List Char) :
    split close (s ++ tail) = (content, some (after ++ tail)) := by
  obtain ⟨rfl, hopen⟩ := (split_eq_some_iff hclose).mp h
  rw [List.append_assoc, List.cons_append]
  exact (split_eq_some_iff hclose).mpr ⟨rfl, hopen⟩

namespace Lexeme

variable {tail : List Char}

/-- A sign that does not go on does not look at what comes after it. -/
theorem splitSign_of_head?_ne
    {s : List Char} (h : s.head? ≠ some '=') (c : Char) :
    splitSign c s = (splitSign c []).map fun p => (p.1, s) := by
  fun_cases splitSign c s
  case case6 | case7 | case8 => exact absurd rfl h
  case case11 => simp_all [splitSign]
  all_goals rfl

/-- A sign that goes on looks at no more than one character. -/
theorem splitSign_equal_cons (c : Char) (s : List Char) :
    splitSign c ('=' :: s) = (splitSign c ['=']).map fun p => (p.1, p.2 ++ s) := by
  unfold splitSign
  split
  case h_6 heq | h_7 heq | h_8 heq =>
    obtain rfl := (List.cons.inj heq).2
    rfl
  case h_9 h | h_10 h => exact (h s rfl).elim
  case h_11 => simp_all
  all_goals rfl

theorem splitSign_append
    (h : Stops tail) (c : Char) (s : List Char) :
    splitSign c (s ++ tail) = (splitSign c s).map fun p => (p.1, p.2 ++ tail) := by
  cases s with
  | nil =>
      have hnil := splitSign_of_head?_ne (s := []) nofun c
      rw [List.nil_append, splitSign_of_head?_ne (h.head?_ne (by decide)), hnil, Option.map_map,
        Option.map_map]
      rfl
  | cons d s =>
      by_cases hd : d = '='
      · subst hd
        rw [List.cons_append, splitSign_equal_cons, splitSign_equal_cons c s, Option.map_map]
        simp only [Function.comp_def, List.append_assoc]
      · have hhead : ∀ t, (d :: t).head? ≠ some '=' := fun t ht => hd (Option.some.inj ht)
        rw [List.cons_append, splitSign_of_head?_ne (hhead _), splitSign_of_head?_ne (hhead s),
          Option.map_map]
        rfl

/-- A character that opens nothing begins the same before what stops it. -/
theorem split_append_of_not_mem_marks
    {c : Char} (hmarks : c ∉ marks) (h : Stops tail) (s : List Char) :
    split c (s ++ tail) = (split c s).map fun p => (p.1, p.2 ++ tail) := by
  obtain ⟨htake, hdrop⟩ := h.wordChars_append s
  have hstarts := NumberText.starts_append h c s
  have hnumber := NumberText.split_append h (c :: s)
  rw [List.cons_append] at hstarts hnumber
  rw [split_of_not_mem_marks hmarks, split_of_not_mem_marks hmarks, hstarts, hnumber, htake, hdrop,
    splitSign_append h]
  split
  · rfl
  · split
    · rfl
    · rw [Option.map_map, Option.map_map]
      rfl

theorem of_mem_marks
    {c : Char} (h : c ∈ marks) :
    c = ',' ∨ c = '(' ∨ c = ')' ∨ ∃ d : Delimiter, c = d.opening := by
  simp only [marks, List.mem_cons, List.not_mem_nil, or_false] at h
  rcases h with rfl | rfl | rfl | rfl | rfl | rfl
  · exact .inl rfl
  · exact .inr (.inl rfl)
  · exact .inr (.inr (.inl rfl))
  · exact .inr (.inr (.inr ⟨.double, rfl⟩))
  · exact .inr (.inr (.inr ⟨.single, rfl⟩))
  · exact .inr (.inr (.inr ⟨.bracket, rfl⟩))

/-- A lexeme that lacks no delimiter ends before what stops it where it ends alone, and
no lexeme comes about where there is none. -/
theorem split_append
    {c : Char} {s : List Char} (hclosed : ∀ p ∈ split c s, p.1.fault = none)
    (h : Stops tail) :
    split c (s ++ tail) = (split c s).map fun p => (p.1, p.2 ++ tail) := by
  by_cases hmarks : c ∈ marks
  · rcases of_mem_marks hmarks with rfl | rfl | rfl | ⟨d, rfl⟩
    · rfl
    · rfl
    · rfl
    · rw [split_opening] at hclosed ⊢
      rw [split_opening]
      rcases hcut : Delimiter.split d.closing s with ⟨content, _ | after⟩
      · rw [hcut] at hclosed
        have hfault := hclosed _ rfl
        contradiction
      · rw [Delimiter.split_append d.closing_ne_backslash hcut]
        rfl
  · exact split_append_of_not_mem_marks hmarks h s

end Lexeme

/-! ## Fragments before what stops them -/

namespace Fragment

/-- The fragment lacks no delimiter. -/
def Closed : Fragment → Prop
  | .lexeme l => l.fault = none
  | _ => True

variable {tail : List Char}

theorem split_append
    {c : Char} {s : List Char} (hclosed : (split c s).1.Closed) (h : Stops tail) :
    split c (s ++ tail) = ((split c s).1, (split c s).2 ++ tail) := by
  by_cases hblank : Text.isBlank c = true
  · rw [split, split, if_pos hblank, if_pos hblank]
  · rw [split, if_neg hblank] at hclosed ⊢
    rw [split, if_neg hblank]
    cases hl : Lexeme.split c s with
    | none =>
        have hsound : ∀ q ∈ Lexeme.split c s, q.1.fault = none := by
          rw [hl]
          exact fun q hq => absurd hq (Option.not_mem_none q)
        have hlexeme := Lexeme.split_append hsound h
        rw [hlexeme, hl]
        rfl
    | some p =>
        rw [hl] at hclosed
        have hsound : ∀ q ∈ Lexeme.split c s, q.1.fault = none := by
          intro q hq
          rw [hl] at hq
          rw [← Option.mem_some.mp hq]
          exact hclosed
        rw [Lexeme.split_append hsound h, hl]
        rfl

/-- A text that lacks no delimiter falls into the same fragments before a blank as
alone. -/
theorem ofText_append
    {s : List Char} (hclosed : ∀ f ∈ ofText s, f.Closed) (h : Apart tail) :
    ofText (s ++ tail) = ofText s ++ ofText tail := by
  fun_induction ofText s with
  | case1 =>
      rfl
  | case2 c rest ih =>
      rw [List.forall_mem_cons] at hclosed
      rw [List.cons_append, ofText_cons, split_append hclosed.1 h.stops, ih hclosed.2,
        List.cons_append]

theorem ofText_blanks_append
    {w : List Char} (hw : ∀ c ∈ w, Text.isBlank c = true) (s : List Char) :
    ofText (w ++ s) = w.map .blank ++ ofText s := by
  induction w with
  | nil =>
      rfl
  | cons c w ih =>
      rw [List.forall_mem_cons] at hw
      have hsplit : split c (w ++ s) = (.blank c, w ++ s) := by
        rw [split, if_pos hw.1]
      rw [List.cons_append, ofText_cons, hsplit, ih hw.2]
      rfl

/-! ## Places further to the right -/

theorem locate_add (n start : Nat) (fs : List Fragment) :
    locate (start + n) fs = (locate start fs).map fun entry => (entry.1 + n, entry.2) := by
  induction fs generalizing start with
  | nil =>
      rfl
  | cons f fs ih =>
      rw [locate, locate, List.map_cons, ← ih, Nat.add_right_comm]

end Fragment

/-- The token as it stands `n` bytes further to the right. -/
def Token.moved (n : Nat) (token : Token) : Token :=
  { token with start := token.start + n, stop := token.stop + n }

/-- The error as it stands `n` bytes further to the right. -/
def TokenError.moved (n : Nat) (e : TokenError) : TokenError :=
  { e with position := e.position + n }

namespace Fragment

theorem token?_add (n p : Nat) (f : Fragment) :
    token? (p + n, f) = (token? (p, f)).map (Token.moved n) := by
  cases f with
  | lexeme l =>
      rw [token?, token?, Option.map_some, Token.moved, Nat.add_right_comm]
  | _ =>
      rfl

theorem error?_add (n p : Nat) (f : Fragment) :
    error? (p + n, f) = (error? (p, f)).map (TokenError.moved n) := by
  cases f with
  | lexeme l =>
      rw [error?, error?, Option.map_map]
      rfl
  | _ =>
      rfl

section

variable {α : Type} {find : Nat × Fragment → Option α} {move : Nat → α → α}

/-- What is found in fragments that stand further to the right. -/
theorem filterMap_locate
    (hmove : ∀ n p f, find (p + n, f) = (find (p, f)).map (move n))
    (n : Nat) (fs : List Fragment) :
    (locate n fs).filterMap find = ((locate 0 fs).filterMap find).map (move n) := by
  have hlocate := locate_add n 0 fs
  rw [Nat.zero_add] at hlocate
  rw [hlocate, List.filterMap_map, List.map_filterMap]
  congr 1
  funext entry
  exact hmove n entry.1 entry.2

theorem filterMap_locate_blanks
    (hblank : ∀ p c, find (p, .blank c) = none) (start : Nat) (w : List Char) :
    (locate start (w.map .blank)).filterMap find = [] := by
  induction w generalizing start with
  | nil =>
      rfl
  | cons c w ih =>
      rw [List.map_cons, locate, List.filterMap_cons, hblank, ih]

/-- Between the fragments of two texts blanks only take up their place. -/
theorem filterMap_locate_append_blanks
    (hmove : ∀ n p f, find (p + n, f) = (find (p, f)).map (move n))
    (hblank : ∀ p c, find (p, .blank c) = none)
    (fs gs : List Fragment) (w : List Char) :
    (locate 0 (fs ++ (w.map .blank ++ gs))).filterMap find =
      (locate 0 fs).filterMap find ++
        ((locate 0 gs).filterMap find).map
          (move (Text.width (fs.flatMap text) + Text.width w)) := by
  have hw : (w.map Fragment.blank).flatMap text = w := by
    rw [List.flatMap_map]
    exact List.flatMap_singleton' w
  rw [locate_append, locate_append, List.filterMap_append, List.filterMap_append,
    filterMap_locate_blanks hblank, List.nil_append, hw, Nat.zero_add,
    filterMap_locate hmove (_ + _)]

end

/-- A text whose errors mention no delimiter lacks none. -/
theorem closed_of_errors
    {source : String} (h : ∀ e ∈ (tokenize source).errors, e.isMissing = false) :
    ∀ f ∈ ofText source.toList, f.Closed := by
  intro f hf
  cases f with
  | lexeme l =>
      obtain ⟨before, after, hfragments⟩ := List.append_of_mem hf
      have hmem : (0 + Text.width (before.flatMap text), Fragment.lexeme l) ∈
          locate 0 (ofText source.toList) :=
        mem_locate_iff.mpr ⟨before, after, hfragments, rfl⟩
      cases hfault : l.fault with
      | none =>
          exact hfault
      | some cause =>
          have herror := mem_errors_iff.mpr
            ⟨_, _, hmem, error?_eq_some_iff.mpr (.inr ⟨l, cause, rfl, hfault, rfl⟩)⟩
          have hmissing := isMissing_of_fault hfault (0 + Text.width (before.flatMap text))
          rw [h _ herror] at hmissing
          contradiction
  | _ =>
      trivial

end Fragment

/-- A text that lacks no delimiter, blanks, and another text: its tokens and errors
are those of the one text followed by those of the other, moved to where that
begins. -/
theorem tokenize_append_blanks
    {a w : String} (ha : ∀ e ∈ (tokenize a).errors, e.isMissing = false)
    (hne : w ≠ "") (hw : ∀ c ∈ w.toList, Text.isBlank c = true) (b : String) :
    tokenize (a ++ w ++ b) =
      ⟨(tokenize a).tokens ++ (tokenize b).tokens.map (Token.moved (a ++ w).utf8ByteSize),
        (tokenize a).errors ++
          (tokenize b).errors.map (TokenError.moved (a ++ w).utf8ByteSize)⟩ := by
  have happart : Apart (w.toList ++ b.toList) := by
    have hnil : w.toList ≠ [] := fun h => hne (String.toList_eq_nil_iff.mp h)
    obtain ⟨c, rest, hcons⟩ := List.exists_cons_of_ne_nil hnil
    intro d hd
    rw [hcons, List.cons_append, List.head?_cons] at hd
    rw [← Option.mem_some.mp hd]
    apply hw
    rw [hcons]
    exact List.mem_cons_self
  have hfragments : Fragment.ofText (a ++ w ++ b).toList =
      Fragment.ofText a.toList ++ (w.toList.map .blank ++ Fragment.ofText b.toList) := by
    rw [String.toList_append, String.toList_append, List.append_assoc,
      Fragment.ofText_append (Fragment.closed_of_errors ha) happart,
      Fragment.ofText_blanks_append hw]
  have hwidth : Text.width ((Fragment.ofText a.toList).flatMap Fragment.text) +
      Text.width w.toList = (a ++ w).utf8ByteSize := by
    rw [Fragment.flatMap_text_ofText, Text.width_toList, Text.width_toList,
      String.utf8ByteSize_append]
  have htokens := Fragment.filterMap_locate_append_blanks Fragment.token?_add (fun _ _ => rfl)
    (Fragment.ofText a.toList) (Fragment.ofText b.toList) w.toList
  have herrors := Fragment.filterMap_locate_append_blanks Fragment.error?_add (fun _ _ => rfl)
    (Fragment.ofText a.toList) (Fragment.ofText b.toList) w.toList
  rw [hwidth, ← hfragments] at htokens herrors
  rw [tokenize, tokenizeText, htokens, herrors]
  rfl

/-- A number with an unfinished exponent before an ideographic space, and a sign after
it: neither goes on into the other. -/
theorem tokenize_append_blanks_exponent :
    (∀ e ∈ (tokenize "1e").errors, e.isMissing = false) ∧ "\u3000" ≠ "" ∧
      (∀ c ∈ "\u3000".toList, Text.isBlank c = true) ∧
      tokenize ("1e" ++ "\u3000" ++ "+5 #") =
        ⟨[⟨.integer 1, 0, 1⟩, ⟨.word "e", 1, 2⟩, ⟨.operator (.binary .plus), 5, 6⟩,
          ⟨.integer 5, 6, 7⟩], [⟨.unexpected '#', 8⟩]⟩ := by
  have ha : tokenize "1e" = ⟨[⟨.integer 1, 0, 1⟩, ⟨.word "e", 1, 2⟩], []⟩ := by
    decide +kernel
  have hb : tokenize "+5 #" =
      ⟨[⟨.operator (.binary .plus), 0, 1⟩, ⟨.integer 5, 1, 2⟩], [⟨.unexpected '#', 3⟩]⟩ := by
    decide +kernel
  have hmissing : ∀ e ∈ (tokenize "1e").errors, e.isMissing = false := by
    rw [ha]
    decide
  have hne : "\u3000" ≠ "" := by decide
  have hblank : ∀ c ∈ "\u3000".toList, Text.isBlank c = true :=
    List.all_eq_true.mp (by decide)
  refine ⟨hmissing, hne, hblank, ?_⟩
  rw [tokenize_append_blanks hmissing hne hblank, ha, hb]
  decide

end QueryFormula
