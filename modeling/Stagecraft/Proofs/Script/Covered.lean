import Stagecraft.Proofs.Script.Genuine

/-!
Each call of the scanner passes over a gap, which holds only blanks and, in code, comments, and then
takes the characters of one token.
-/

namespace Stagecraft

/-- Blanks and comments in front of `rest`. A comment of one line reaches to the end of its line, and
a block comment to the first mark that closes it. -/
inductive Trivia (rest : List Char) : List Char → Prop
  | nil : Trivia rest []
  | blank {c : Char} {gap : List Char} : Text.isBlank c = true → Trivia rest gap →
    Trivia rest (c :: gap)
  | line {inside gap : List Char} : (∀ c ∈ inside, c ≠ '\n') →
    (∀ c ∈ (gap ++ rest).head?, c = '\n') → Trivia rest gap →
      Trivia rest ('/' :: '/' :: (inside ++ gap))
  | block {inside gap : List Char} : ¬ ['*', '/'] <:+: inside ++ ['*'] → Trivia rest gap →
    Trivia rest ('/' :: '*' :: (inside ++ '*' :: '/' :: gap))

inductive OpenQuote : List Char → Prop
  | nil : OpenQuote []
  | lone : OpenQuote ['\\']
  | escape {c : Char} {rest : List Char} : OpenQuote rest → OpenQuote ('\\' :: c :: rest)
  | char {c : Char} {rest : List Char} : c ≠ '"' → c ≠ '\\' → OpenQuote rest → OpenQuote (c :: rest)

inductive Swallowed : List Char → Issue → Prop
  | string {cs : List Char} : OpenQuote cs → Swallowed ('"' :: cs) .unterminatedString
  | tag {cs : List Char} : Lexeme.looksLikeTag ('<' :: cs) = true →
    (∀ c ∈ cs, c ≠ '>' ∧ Lexeme.endsTagSearch c = false) → Swallowed ('<' :: cs) .unterminatedTag

namespace Lexeme

/-- A lexeme at the front of a text: it takes some characters and leaves the others. One that ends
the text has no end of its own. -/
structure Cuts (cs : List Char) (l : Lexeme) : Prop where
  chars : l.chars ++ l.rest = cs
  ne_nil : l.chars ≠ []
  ending : l.kind = .endOfFile → l.rest = [] ∧ ∃ issue, l.issue = some issue ∧ Swallowed cs issue

section Cuts

variable {c : Char} {rest : List Char}

lemma cuts_plain {kind : TokenKind} (h : kind ≠ .endOfFile) (n : Nat) :
    (plain kind (n + 1) (c :: rest)).Cuts (c :: rest) :=
  ⟨List.take_append_drop _ _, by simp [plain], fun he => absurd he h⟩

lemma cuts_operator : (operator c rest).Cuts (c :: rest) := by
  have hkind := kind_operator c rest
  have hne : (operator c rest).kind ≠ .endOfFile := fun h => by simp [h] at hkind
  refine ⟨?_, ?_, fun he => absurd he hne⟩
  · unfold operator
    split
    · exact List.take_append_drop _ _
    · split
      · exact List.take_append_drop _ _
      · rfl
  · unfold operator
    split
    · simp [plain]
    · split
      · simp [plain]
      · simp

lemma openQuote_of_none {content : Array Char} {n : Nat} {cs : List Char}
    (h : quotedInside content n cs = none) : OpenQuote cs := by
  fun_induction quotedInside content n cs with
  | case1 => exact .nil
  | case2 => cases h
  | case3 => exact .lone
  | case4 content n rest ih => exact .escape (ih h)
  | case5 content n rest ih => exact .escape (ih h)
  | case6 content n rest ih => exact .escape (ih h)
  | case7 content n rest ih => exact .escape (ih h)
  | case8 content n c rest _ _ _ _ ih => exact .escape (ih h)
  | case9 content n c rest hquote hescape ih => exact .char hquote hescape (ih h)

lemma cuts_quoted : (quoted ('"' :: rest)).Cuts ('"' :: rest) := by
  unfold quoted
  rw [List.drop_one, List.tail_cons]
  split
  · next hnone =>
    exact ⟨List.append_nil _, List.cons_ne_nil _ _, fun _ => ⟨rfl, _, rfl, .string (openQuote_of_none hnone)⟩⟩
  · next content n _ =>
    refine ⟨List.take_append_drop _ _, by simp, fun he => ?_⟩
    simp only at he
    split at he <;> cases he

lemma cuts_includeDirective : (includeDirective (c :: rest)).Cuts (c :: rest) := by
  have hkind := kind_includeDirective (c :: rest)
  have hne : (includeDirective (c :: rest)).kind ≠ .endOfFile := fun h => by simp [h] at hkind
  have hgap (isGap : Char → Bool) : (c :: rest).take 8 ++ ((c :: rest).drop 8).takeWhile isGap ++
      ((c :: rest).drop 8).dropWhile isGap = c :: rest := by
    rw [List.append_assoc, List.takeWhile_append_dropWhile, List.take_append_drop]
  refine ⟨?_, ?_, fun he => absurd he hne⟩
  · unfold includeDirective
    dsimp only
    split
    · next more hmore =>
      have hpath := List.takeWhile_append_dropWhile (p := fun c => c != '"' && c != '\n') (l := more)
      have hwhole := hgap fun c => c == ' ' || c == '\t'
      rw [hmore] at hwhole
      split
      · next tail htail =>
        rw [htail] at hpath
        simpa [hpath] using hwhole
      · simpa [hpath] using hwhole
    · exact hgap _
  · unfold includeDirective
    dsimp only
    split
    · split <;> simp
    · simp

lemma cuts_sigiled : (sigiled c rest).Cuts (c :: rest) := by
  have hkind := kind_sigiled c rest
  have hne : (sigiled c rest).kind ≠ .endOfFile := fun h => by simp [h] at hkind
  refine ⟨?_, ?_, fun he => absurd he hne⟩
  · unfold sigiled
    dsimp only
    split
    · rfl
    · simp [List.takeWhile_append_dropWhile]
  · unfold sigiled
    dsimp only
    split <;> simp

lemma decimal_cuts (cs : List Char) : (decimal cs).1 ++ (decimal cs).2 = cs := by
  have hcs := List.takeWhile_append_dropWhile (p := Char.isDigit) (l := cs)
  unfold decimal
  split
  · next more hpoint =>
    rw [hpoint] at hcs ⊢
    have hmore := List.takeWhile_append_dropWhile (p := Char.isDigit) (l := more)
    split
    · exact hcs
    · simpa [hmore] using hcs
  · exact hcs

lemma number_cuts (cs : List Char) : (number cs).1 ++ (number cs).2.1 = cs := by
  by_cases hex : ∃ x more, cs = '0' :: x :: more ∧ (x = 'x' ∨ x = 'X')
  · obtain ⟨x, more, rfl, hx⟩ := hex
    have hx' : (x == 'x' || x == 'X') = true := by simpa using hx
    simp [number, hx', List.takeWhile_append_dropWhile]
  · rw [number_eq_decimal fun x more hcs => not_or.mp fun hx => hex ⟨x, more, hcs, hx⟩]
    exact decimal_cuts cs

lemma number_ne_nil (h : c.isDigit = true) : (number (c :: rest)).1 ≠ [] := by
  by_cases hex : ∃ x more, c :: rest = '0' :: x :: more ∧ (x = 'x' ∨ x = 'X')
  · obtain ⟨x, more, hcs, hx⟩ := hex
    have hx' : (x == 'x' || x == 'X') = true := by simpa using hx
    simp [hcs, number, hx']
  · rw [number_eq_decimal fun x more hcs => not_or.mp fun hx => hex ⟨x, more, hcs, hx⟩]
    simp only [decimal, List.takeWhile_cons_of_pos h]
    split
    · split <;> simp
    · simp

lemma cuts_numeric {lead cs : List Char} {make : Float → TokenValue}
    (h : lead ≠ [] ∨ (number cs).1 ≠ []) : (numeric lead make cs).Cuts (lead ++ cs) := by
  refine ⟨?_, ?_, fun he => by cases he⟩
  · simp only [numeric, List.append_assoc, number_cuts]
  · simpa [numeric, imp_iff_not_or] using h

lemma cuts_delta : (delta ('@' :: rest)).Cuts ('@' :: rest) := by
  unfold delta
  rw [List.drop_one, List.tail_cons]
  split
  next lead negative tail hlead =>
  obtain ⟨hcs, hne⟩ : '@' :: rest = lead ++ tail ∧ lead ≠ [] := by
    split at hlead <;> cases hlead <;> simp
  rw [hcs]
  split
  · split
    · exact cuts_numeric (.inl hne)
    · exact ⟨rfl, hne, fun he => by cases he⟩
  · exact ⟨rfl, hne, fun he => by cases he⟩

lemma cuts_word (h : isNameStart c = true) : (word (c :: rest)).Cuts (c :: rest) := by
  have hchars : (c :: rest).takeWhile isNameChar ≠ [] := by
    simp [isNameChar_of_isNameStart h]
  unfold word
  dsimp only
  split
  · next kind hkind =>
    have hword : ∀ w ∈ TokenKind.keywords, w.2 ≠ .endOfFile := by decide
    exact ⟨List.takeWhile_append_dropWhile, hchars,
      fun he => absurd he (hword _ (mem_keywords hkind))⟩
  · exact ⟨List.takeWhile_append_dropWhile, hchars, fun he => by cases he⟩

lemma cuts_tag {l : Lexeme} (hlooks : looksLikeTag ('<' :: rest) = true)
    (h : tag ('<' :: rest) = some l) : l.Cuts ('<' :: rest) := by
  obtain ⟨inside, hinside⟩ : ∃ inside,
      rest.takeWhile (fun c => c != '>' && !endsTagSearch c) = inside := ⟨_, rfl⟩
  have hrest : inside ++ rest.drop inside.length = rest := by
    rw [← hinside]
    exact (List.prefix_iff_eq_append.mp (List.takeWhile_prefix _))
  unfold tag at h
  simp only [List.drop_one, List.tail_cons, hinside] at h
  split at h
  · next hnil =>
    cases h
    rw [hnil, List.append_nil] at hrest
    refine ⟨List.append_nil _, List.cons_ne_nil _ _, fun _ => ⟨rfl, _, rfl, .tag hlooks ?_⟩⟩
    intro c hc
    rw [← hrest, ← hinside] at hc
    simpa using List.mem_takeWhile_imp hc
  · next tail hclose =>
    cases h
    rw [hclose] at hrest
    refine ⟨by simp [← hrest], List.cons_ne_nil _ _, fun he => ?_⟩
    simp only at he
    split at he <;> cases he
  · cases h

lemma cuts_code (previous : Option TokenKind) : (code previous c rest).Cuts (c :: rest) := by
  unfold code
  simp only [Bool.and_eq_true, beq_iff_eq, Bool.not_eq_true']
  split_ifs with hquote hinclude hsigil hat hdigit hname htag
  · subst hquote
    exact cuts_quoted
  · exact cuts_includeDirective
  · exact cuts_sigiled
  · subst hat
    exact cuts_delta
  · exact @cuts_numeric [] _ _ (.inr (number_ne_nil hdigit))
  · exact cuts_word hname
  · obtain ⟨⟨rfl, -⟩, hlooks⟩ := htag
    cases ht : tag ('<' :: rest) with
    | none => exact cuts_operator
    | some l => exact cuts_tag hlooks ht
  · exact cuts_operator

lemma cuts_dialogueText {lineStart : Bool} : (dialogueText lineStart c rest).Cuts (c :: rest) := by
  refine ⟨?_, List.cons_ne_nil _ _, fun he => by cases he⟩
  simp [dialogueText]

lemma cuts_dialogueName {l : Lexeme} (h : dialogueName ('[' :: rest) = some l) :
    l.Cuts ('[' :: rest) := by
  obtain ⟨name, hname⟩ : ∃ name, rest.takeWhile (· != ']') = name := ⟨_, rfl⟩
  have hrest := List.takeWhile_append_dropWhile (p := (· != ']')) (l := rest)
  unfold dialogueName at h
  simp only [List.drop_one, List.tail_cons, hname] at h
  have hdrop : rest.drop name.length = rest.dropWhile (· != ']') := by
    conv_lhs => rw [← hrest, hname]
    exact List.drop_left
  rw [hdrop] at h
  cases hclose : rest.dropWhile (· != ']') with
  | nil => simp [hclose] at h
  | cons d tail =>
    have hd : d = ']' := by
      have hfirst := List.head?_dropWhile_not (· != ']') rest
      simpa [hclose] using hfirst
    rw [hclose] at h
    split_ifs at h
    cases h
    refine ⟨?_, List.cons_ne_nil _ _, fun he => by cases he⟩
    rw [← hrest, hname, hclose, hd]
    simp

lemma cuts_dialogue {lineStart : Bool} : (dialogue lineStart c rest).Cuts (c :: rest) := by
  unfold dialogue
  simp only [beq_iff_eq]
  split_ifs with hbreak hreturn hbrace htag hname
  · exact cuts_plain (by decide) 0
  · exact cuts_plain (by decide) 0
  · exact cuts_plain (by decide) 0
  · rw [Bool.and_eq_true, beq_iff_eq] at htag
    obtain ⟨rfl, hlooks⟩ := htag
    cases ht : tag ('<' :: rest) with
    | none => exact cuts_dialogueText
    | some l => exact cuts_tag hlooks ht
  · rw [Bool.and_eq_true, beq_iff_eq] at hname
    obtain ⟨rfl, -⟩ := hname
    cases hn : dialogueName ('[' :: rest) with
    | none => exact cuts_dialogueText
    | some l => exact cuts_dialogueName hn
  · exact cuts_dialogueText

end Cuts

lemma blank_of_silent {lineStart : Bool} {c : Char} {rest : List Char}
    (h : (dialogue lineStart c rest).isSilent = true) :
    ∀ d ∈ (dialogue lineStart c rest).chars, Text.isBlank d = true := by
  revert h
  unfold dialogue
  simp only [beq_iff_eq]
  split_ifs with hbreak hreturn hbrace htag hname
  · intro h
    cases h
  · subst hreturn
    simpa [plain] using fun _ => by decide
  · intro h
    cases h
  · cases ht : tag (c :: rest) with
    | none => exact dialogueText_silent
    | some l => simp [Scanner.isSilent_of_tag ht]
  · cases hn : dialogueName (c :: rest) with
    | none => exact dialogueText_silent
    | some l => simp [Scanner.isSilent_of_dialogueName hn]
  · exact dialogueText_silent

end Lexeme

namespace Scanner

lemma commentLength_spec (n : Nat) (cs : List Char) : match commentLength n cs with
    | some m => ∃ inside rest, cs = inside ++ '*' :: '/' :: rest ∧ m = n + inside.length + 2 ∧
        ¬ ['*', '/'] <:+: inside ++ ['*']
    | none => ¬ ['*', '/'] <:+: cs := by
  fun_induction commentLength n cs with
  | case1 n rest => exact ⟨[], rest, rfl, rfl, by decide⟩
  | case2 n c rest hclose ih =>
    have hfirst (more : List Char) (h : ['*', '/'] <+: c :: more) : rest.head? ≠ more.head? := by
      obtain ⟨tail, htail⟩ := h
      obtain ⟨rfl, rfl⟩ := List.cons.inj htail
      intro hhead
      obtain ⟨tail, rfl⟩ := List.head?_eq_some_iff.mp hhead
      exact hclose tail rfl rfl
    split at ih
    · next m hm =>
      obtain ⟨inside, tail, rfl, rfl, hinside⟩ := ih
      refine ⟨c :: inside, tail, rfl, by simp; omega, ?_⟩
      rw [List.cons_append, List.infix_cons_iff, not_or]
      refine ⟨fun h => hfirst _ h ?_, hinside⟩
      cases inside <;> rfl
    · rw [List.infix_cons_iff, not_or]
      exact ⟨fun h => hfirst _ h rfl, ih⟩
  | case3 n => simp

lemma skip_skip (s : Scanner) (a b rest rest' : List Char) :
    (s.skip a rest).skip b rest' = s.skip (a ++ b) rest' := by
  simp [skip, Position.afterAll, List.foldl_append]

def PassesTrivia (s s' : Scanner) : Prop :=
  ∃ gap tail, s.rest = gap ++ tail ∧ Trivia tail gap ∧ (s' = s.skip gap tail ∨
    ∃ inside, tail = '/' :: '*' :: inside ∧ ¬ ['*', '/'] <:+: inside ∧
      s' = (s.skip s.rest []).report .unterminatedComment (s.position.afterAll gap))

lemma PassesTrivia.behind {s s' : Scanner} {front more : List Char} (hrest : s.rest = front ++ more)
    (hfront : ∀ gap tail, more = gap ++ tail → Trivia tail gap → Trivia tail (front ++ gap))
    (h : (s.skip front more).PassesTrivia s') : s.PassesTrivia s' := by
  obtain ⟨gap, tail, hmore, hgap, hpasses⟩ := h
  refine ⟨front ++ gap, tail, ?_, hfront gap tail hmore hgap, ?_⟩
  · rw [hrest, List.append_assoc, ← hmore]
    rfl
  · rw [skip_skip] at hpasses
    refine hpasses.imp_right fun ⟨inside, htail, hinside, hs⟩ => ⟨inside, htail, hinside, ?_⟩
    rw [hs, skip_skip, hrest]
    simp [skip, Position.afterAll]

lemma passesTrivia (s : Scanner) : s.PassesTrivia s.skipTrivia := by
  fun_induction skipTrivia s with
  | case1 s line h ih =>
    refine ih.behind (by simp [h]) fun gap tail hmore hgap => .line ?_ ?_ hgap
    · intro c hc
      simpa using List.mem_takeWhile_imp hc
    · rw [← hmore]
      intro c hc
      have hfirst := List.head?_dropWhile_not (· != '\n') line
      rw [Option.mem_def.mp hc] at hfirst
      simpa using hfirst
  | case2 s inside h n hn ih =>
    have hspec := commentLength_spec 0 inside
    rw [hn] at hspec
    obtain ⟨comment, rest, rfl, rfl, hcomment⟩ := hspec
    have htake : (comment ++ '*' :: '/' :: rest).take (0 + comment.length + 2) =
        comment ++ ['*', '/'] := by
      simp [List.take_append]
    have hdrop : (comment ++ '*' :: '/' :: rest).drop (0 + comment.length + 2) = rest := by
      simp [List.drop_append]
    rw [htake, hdrop] at ih ⊢
    refine ih.behind ?_ fun gap tail _ hgap => ?_
    · simp [h]
    · simpa using Trivia.block hcomment hgap
  | case3 s inside h hn =>
    have hspec := commentLength_spec 0 inside
    rw [hn] at hspec
    exact ⟨[], s.rest, rfl, .nil, .inr ⟨inside, h, hspec, rfl⟩⟩
  | case4 s c rest _ _ h hc ih => exact ih.behind h fun gap tail _ hgap => .blank hc hgap
  | case5 s c rest _ _ h hc => exact ⟨[], s.rest, rfl, .nil, .inl rfl⟩
  | case6 s h => exact ⟨[], s.rest, rfl, .nil, .inl rfl⟩

lemma passesSilence (s : Scanner) : ∃ gap tail, s.rest = gap ++ tail ∧
    (∀ c ∈ gap, Text.isBlank c = true) ∧ s.skipSilence = s.skip gap tail := by
  fun_induction skipSilence s with
  | case1 s h => exact ⟨[], s.rest, rfl, by simp, rfl⟩
  | case2 s c rest h l hl ih =>
    obtain ⟨gap, tail, hrest, hgap, hskip⟩ := ih
    refine ⟨l.chars ++ gap, tail, ?_, ?_, by rw [hskip, skip_skip]⟩
    · have hcuts : (Lexeme.dialogue s.lineStart c rest).Cuts (c :: rest) := Lexeme.cuts_dialogue
      rw [h, ← hcuts.chars, List.append_assoc, ← hrest]
      rfl
    · exact List.forall_mem_append.mpr ⟨Lexeme.blank_of_silent hl, hgap⟩
  | case3 s c rest h l hl => exact ⟨[], s.rest, rfl, by simp, rfl⟩

def Gap (s : Scanner) (gap tail : List Char) : Prop :=
  if s.modes.head? = some .dialogue then ∀ c ∈ gap, Text.isBlank c = true else Trivia tail gap

inductive Ending (s : Scanner) : List Char → Option Issue → Prop
  | code : s.modes.head? ≠ some .dialogue → Ending s [] none
  | dialogue : s.modes.head? = some .dialogue → Ending s [] (some .unterminatedDialogue)
  | comment {inside : List Char} : s.modes.head? ≠ some .dialogue → ¬ ['*', '/'] <:+: inside →
    Ending s ('/' :: '*' :: inside) (some .unterminatedComment)
  | swallowed {tail : List Char} {issue : Issue} : Swallowed tail issue →
    Ending s tail (some issue)

/-- The scanner `s` passes over a gap and takes a token, and is `s'` then. -/
structure Takes (s : Scanner) (gap : List Char) (t : Token) (s' : Scanner) : Prop where
  kind : t.kind ≠ .endOfFile
  text : t.text ≠ ""
  chars : s.rest = gap ++ (t.text.toList ++ s'.rest)
  between : s.Gap gap (t.text.toList ++ s'.rest)
  span : t.span = { first := s.position.afterAll gap, last := s'.position }
  position : s'.position = (s.position.afterAll gap).afterAll t.text.toList
  diagnostics : s.diagnostics.toList <+: s'.diagnostics.toList

/-- The scanner `s` passes over a gap and comes to the end of the text, where it drops `tail`. -/
structure Ends (s : Scanner) (gap tail : List Char) (issue : Option Issue) (t : Token)
    (s' : Scanner) : Prop where
  token : t = .endAt { first := s'.position, last := s'.position }
  rest : s'.rest = []
  chars : s.rest = gap ++ tail
  between : s.Gap gap tail
  ending : s.Ending tail issue
  position : s'.position = s.position.afterAll s.rest
  diagnostics : s'.diagnostics.toList = s.diagnostics.toList ++ (issue.map fun issue =>
    { issue, span := { first := s.position.afterAll gap, last := s'.position } }).toList

section Accept

variable {s : Scanner} {gap tail : List Char} {l : Lexeme} (hrest : s.rest = gap ++ tail)
  (hgap : s.Gap gap tail)
include hrest hgap

lemma takes_accept (hcuts : l.Cuts tail) (hkind : l.kind ≠ .endOfFile) :
    s.Takes gap ((s.skip gap tail).accept l).1 ((s.skip gap tail).accept l).2 := by
  have htext : ((s.skip gap tail).accept l).1.text.toList = l.chars := by
    simp [accept, hkind]
  have hposition : ((s.skip gap tail).accept l).2.position =
      (s.position.afterAll gap).afterAll l.chars := by
    cases hissue : l.issue <;> simp [accept, hissue, skip, report]
  have hchars : l.chars ++ ((s.skip gap tail).accept l).2.rest = tail := by
    rw [accept_rest, hcuts.chars]
  refine ⟨by rwa [accept_kind], fun h => hcuts.ne_nil ?_, ?_, ?_, ?_, ?_, ?_⟩
  · rw [← htext, h]
    rfl
  · rw [htext, hchars, hrest]
  · rwa [htext, hchars]
  · rw [hposition]
    cases hissue : l.issue <;> simp [accept, hissue, hkind, skip, report]
  · rw [hposition, htext]
  · cases hissue : l.issue <;> simp [accept, hissue, skip, report]

lemma ends_accept (hcuts : l.Cuts tail) (hkind : l.kind = .endOfFile) :
    ∃ issue, s.Ends gap tail issue ((s.skip gap tail).accept l).1
      ((s.skip gap tail).accept l).2 := by
  obtain ⟨hnil, issue, hissue, hswallowed⟩ := hcuts.ending hkind
  have hchars := hcuts.chars
  rw [hnil, List.append_nil] at hchars
  refine ⟨some issue, ?_, ?_, hrest, hgap, .swallowed hswallowed, ?_, ?_⟩
  · simp [accept, hkind]
  · rw [accept_rest, hnil]
  · simp [accept, hissue, skip, report, hrest, hchars, Position.afterAll]
  · simp [accept, hissue, skip, report, hchars]

end Accept

structure Reaches (s : Scanner) (gap tail : List Char) (issue : Option Issue) (s' : Scanner) :
    Prop where
  ending : s.Ending tail issue
  modes : s'.modes = s.modes
  position : s'.position = s.position.afterAll s.rest
  diagnostics : s'.diagnostics.toList = s.diagnostics.toList ++ (issue.map fun issue =>
    { issue, span := { first := s.position.afterAll gap, last := s'.position } }).toList
  next : s.next = s'.accept { kind := .endOfFile, chars := [], rest := [] }

lemma Reaches.ends {s s' : Scanner} {gap tail : List Char} {issue : Option Issue}
    (h : s.Reaches gap tail issue s') (hrest : s.rest = gap ++ tail) (hgap : s.Gap gap tail) :
    s.Ends gap tail issue s.next.1 s.next.2 := by
  rw [h.next]
  exact ⟨rfl, rfl, hrest, hgap, h.ending, h.position, h.diagnostics⟩

lemma next_cases (s : Scanner) : ∃ gap tail, s.rest = gap ++ tail ∧ s.Gap gap tail ∧
    ((∃ l : Lexeme, l.Cuts tail ∧ s.next = (s.skip gap tail).accept l) ∨
      ∃ issue s', s.Reaches gap tail issue s') := by
  by_cases hm : s.modes.head? = some .dialogue
  · obtain ⟨gap, tail, hrest, hblank, hskip⟩ := s.passesSilence
    refine ⟨gap, tail, hrest, by rwa [Gap, if_pos hm], ?_⟩
    cases tail with
    | nil =>
      refine .inr ⟨_, (s.skip gap []).report .unterminatedDialogue (s.skip gap []).position,
        .dialogue hm, rfl, ?_, ?_, ?_⟩
      · simp [report, skip, hrest]
      · simp [report, skip]
      · simp [next, hm, hskip, skip]
    | cons c rest =>
      exact .inl ⟨Lexeme.dialogue s.lineStart c rest, Lexeme.cuts_dialogue,
        by simp [next, hm, hskip, skip]⟩
  · obtain ⟨gap, tail, hrest, htrivia, hskip⟩ := s.passesTrivia
    have hm' : (s.modes.head? == some .dialogue) = false := by simpa using hm
    refine ⟨gap, tail, hrest, by rwa [Gap, if_neg hm], ?_⟩
    rcases hskip with hskip | ⟨inside, rfl, hinside, hskip⟩
    · cases tail with
      | nil =>
        refine .inr ⟨_, s.skip gap [], .code hm, rfl, ?_, ?_, ?_⟩
        · simp [skip, hrest]
        · simp [skip]
        · simp [next, hm', hskip, skip]
      | cons c rest =>
        exact .inl ⟨Lexeme.code s.previous c rest, Lexeme.cuts_code _,
          by simp [next, hm', hskip, skip]⟩
    · refine .inr ⟨_, (s.skip s.rest []).report .unterminatedComment (s.position.afterAll gap),
        .comment hm hinside, rfl, ?_, ?_, ?_⟩
      · simp [report, skip]
      · simp [report, skip]
      · simp [next, hm', hskip, skip, report]

theorem takes_or_ends (s : Scanner) : (∃ gap, s.Takes gap s.next.1 s.next.2) ∨
    ∃ gap tail issue, s.Ends gap tail issue s.next.1 s.next.2 := by
  obtain ⟨gap, tail, hrest, hgap, ⟨l, hcuts, hnext⟩ | ⟨issue, s', hreaches⟩⟩ := s.next_cases
  · rw [hnext]
    by_cases hkind : l.kind = .endOfFile
    · obtain ⟨issue, hends⟩ := ends_accept hrest hgap hcuts hkind
      exact .inr ⟨gap, tail, issue, hends⟩
    · exact .inl ⟨gap, takes_accept hrest hgap hcuts hkind⟩
  · exact .inr ⟨gap, tail, issue, hreaches.ends hrest hgap⟩

lemma next_accept (s : Scanner) : ∃ (s' : Scanner) (l : Lexeme), s.next = s'.accept l ∧
    s'.modes = s.modes ∧ (l.kind = .endOfFile ∨ s'.diagnostics = s.diagnostics) := by
  obtain ⟨gap, tail, -, -, ⟨l, -, hnext⟩ | ⟨issue, s', hreaches⟩⟩ := s.next_cases
  · exact ⟨_, l, hnext, rfl, .inr rfl⟩
  · exact ⟨s', _, hreaches.next, hreaches.modes, .inl rfl⟩

lemma Takes.shorter {s s' : Scanner} {gap : List Char} {t : Token} (h : s.Takes gap t s') :
    s'.rest.length < s.rest.length := by
  have htext : t.text.toList ≠ [] := by simpa using h.text
  have hlength := List.length_pos_iff.mpr htext
  rw [h.chars]
  simp only [List.length_append]
  omega

inductive Covers : Scanner → List (List Char × Token) → Scanner → Prop
  | nil (s : Scanner) : Covers s [] s
  | cons {s s' s'' : Scanner} {gap : List Char} {t : Token} {pieces : List (List Char × Token)} :
    s.next = (t, s') → s.Takes gap t s' → Covers s' pieces s'' → Covers s ((gap, t) :: pieces) s''

namespace Covers

variable {s s' : Scanner} {pieces : List (List Char × Token)}

lemma rest_eq (h : s.Covers pieces s') :
    s.rest = pieces.flatMap (fun p => p.1 ++ p.2.text.toList) ++ s'.rest := by
  induction h with
  | nil => rfl
  | cons _ htakes _ ih => simp [htakes.chars, ih]

lemma texts (h : s.Covers pieces s') : ∀ p ∈ pieces, p.2.kind ≠ .endOfFile ∧ p.2.text ≠ "" := by
  induction h with
  | nil => simp
  | cons _ htakes _ ih => exact List.forall_mem_cons.mpr ⟨⟨htakes.kind, htakes.text⟩, ih⟩

end Covers

lemma scanner_run_found (fuel : Nat) (s : Scanner) (found : Array (Token × Nat)) :
    (run fuel s found).2 = (run fuel s #[]).2 := by
  induction fuel generalizing s found with
  | zero => rfl
  | succ fuel ih =>
    simp only [run]
    split
    · rfl
    · rw [ih, ih _ (#[].push _)]

lemma run_covers {fuel : Nat} {s : Scanner} (h : s.rest.length < fuel) :
    ∃ pieces s' gap tail issue eof, s.Covers pieces s' ∧
      s'.next = (eof, (run fuel s #[]).2) ∧ s'.Ends gap tail issue eof (run fuel s #[]).2 ∧
      (run fuel s #[]).1.toList.map (·.1) = pieces.map (·.2) ++ [eof] := by
  induction fuel generalizing s with
  | zero => exact absurd h (Nat.not_lt_zero _)
  | succ fuel ih =>
    rcases s.takes_or_ends with ⟨gap, htakes⟩ | ⟨gap, tail, issue, hends⟩
    · obtain ⟨pieces, s', gap', tail, issue, eof, hcovers, hlast, hends, htokens⟩ :=
        ih (s := s.next.2) (by have := htakes.shorter; omega)
      have hrun : run (fuel + 1) s #[] =
          run fuel s.next.2 #[(s.next.1, s.next.2.diagnostics.size)] := by
        simp [run, htakes.kind]
      refine ⟨(gap, s.next.1) :: pieces, s', gap', tail, issue, eof, .cons rfl htakes hcovers, ?_⟩
      rw [hrun, scanner_run_found, run_found]
      exact ⟨hlast, hends, by simp [htokens]⟩
    · have hkind : s.next.1.kind = .endOfFile := by rw [hends.token]; rfl
      have hrun : run (fuel + 1) s #[] = (#[(s.next.1, s.next.2.diagnostics.size)], s.next.2) := by
        simp [run, hkind]
      refine ⟨[], s, gap, tail, issue, s.next.1, .nil s, ?_⟩
      rw [hrun]
      exact ⟨rfl, hends, rfl⟩

section Calls

def afterCalls (s : Scanner) (n : Nat) : Scanner :=
  (fun s => s.next.2)^[n] s

lemma afterCalls_succ (s : Scanner) (n : Nat) : s.afterCalls (n + 1) = (s.afterCalls n).next.2 :=
  Function.iterate_succ_apply' _ _ _

lemma afterCalls_next (s : Scanner) (n : Nat) : s.next.2.afterCalls n = s.afterCalls (n + 1) :=
  (Function.iterate_succ_apply _ _ _).symm

lemma run_calls (fuel : Nat) (s : Scanner) : ∃ n,
    (run fuel s #[]).1.toList.map (·.1) = (List.range n).map (fun i => (s.afterCalls i).next.1) ∧
      (run fuel s #[]).2 = s.afterCalls n := by
  induction fuel generalizing s with
  | zero => exact ⟨0, rfl, rfl⟩
  | succ fuel ih =>
    by_cases hkind : s.next.1.kind = .endOfFile
    · refine ⟨1, ?_, ?_⟩ <;> simp [run, hkind, afterCalls]
    · obtain ⟨n, htokens, hlast⟩ := ih s.next.2
      have hrun : run (fuel + 1) s #[] =
          run fuel s.next.2 #[(s.next.1, s.next.2.diagnostics.size)] := by
        simp [run, hkind]
      refine ⟨n + 1, ?_, ?_⟩
      · rw [hrun, run_found, List.map_append, htokens, List.range_succ_eq_map]
        simp [afterCalls, Function.comp_def]
      · rw [hrun, scanner_run_found, hlast, afterCalls_next]

lemma tokens_calls (source : String) : ∃ n,
    (tokens source).1 = (List.range n).map (fun i => ((ofString source).afterCalls i).next.1) ∧
      (tokens source).2 = ((ofString source).afterCalls n).diagnostics.toList := by
  obtain ⟨n, htokens, hlast⟩ := run_calls ((ofString source).rest.length + 1) (ofString source)
  refine ⟨n, ?_, ?_⟩
  · simpa [tokens, tokensCounted] using htokens
  · rw [← hlast]
    rfl

end Calls

/-- Scanning comes to an end and loses nothing. A call that does not give the end of the file takes
characters. The tokens of a text, none of them empty, make it up together with the gaps before them,
which are blank in dialogue text, and blanks and comments in code. The token of the end comes once,
last, and after all characters; what it drops is reported. -/
theorem tokens_cover (source : String) :
    (∀ s : Scanner, s.next.1.kind = .endOfFile ∧ s.next.2.rest = [] ∨
      s.next.1.kind ≠ .endOfFile ∧ s.next.2.rest.length < s.rest.length) ∧
    ∃ pieces s gap tail issue eof s',
      (tokens source).1 = pieces.map (·.2) ++ [eof] ∧ eof.kind = .endOfFile ∧ s'.rest = [] ∧
      (∀ p ∈ pieces, p.2.kind ≠ .endOfFile ∧ p.2.text ≠ "") ∧
      source.toList = pieces.flatMap (fun p => p.1 ++ p.2.text.toList) ++ (gap ++ tail) ∧
      (ofString source).Covers pieces s ∧ s.next = (eof, s') ∧ s.Ends gap tail issue eof s' ∧
      (tokens source).2 = s'.diagnostics.toList := by
  constructor
  · intro s
    rcases s.takes_or_ends with ⟨gap, htakes⟩ | ⟨gap, tail, issue, hends⟩
    · exact .inr ⟨htakes.kind, htakes.shorter⟩
    · exact .inl ⟨by rw [hends.token]; rfl, hends.rest⟩
  · obtain ⟨pieces, s, gap, tail, issue, eof, hcovers, hlast, hends, htokens⟩ :=
      run_covers (Nat.lt_succ_self (ofString source).rest.length)
    refine ⟨pieces, s, gap, tail, issue, eof, _, ?_, by rw [hends.token]; rfl, hends.rest,
      hcovers.texts, ?_, hcovers, hlast, hends, rfl⟩
    · simpa [tokens, tokensCounted] using htokens
    · rw [← hends.chars, ← hcovers.rest_eq]
      rfl

end Scanner

end Stagecraft
