import Stagecraft.Proofs.Script.Covered
import Stagecraft.Proofs.Script.Within

namespace Stagecraft

def Closing (more : List Char) : Prop :=
  more.head? = some ')' ∨ more.head? = some '\n'

lemma Closing.stops {more : List Char} (h : Closing more) {p : Char → Bool} (hparen : p ')' = false)
    (hbreak : p '\n' = false) : ∀ c ∈ more.head?, p c = false := by
  intro c hc
  rcases h with h | h <;> cases h.symm.trans hc
  · exact hparen
  · exact hbreak

lemma closing_paren (more : List Char) : Closing (')' :: more) :=
  .inl rfl

lemma closing_break (more : List Char) : Closing ('\n' :: more) :=
  .inr rfl

lemma Closing.of_cons {c : Char} {tail : List Char} (h : Closing (c :: tail)) :
    c = ')' ∨ c = '\n' := by
  simpa [Closing] using h

namespace Text

variable (p : Char → Bool) (cs more : List Char)

lemma takeWhile_append (h : cs.dropWhile p = [] → ∀ c ∈ more.head?, p c = false) :
    (cs ++ more).takeWhile p = cs.takeWhile p ∧
      (cs ++ more).dropWhile p = cs.dropWhile p ++ more := by
  induction cs with
  | nil =>
    cases more with
    | nil => simp
    | cons c more => simp [h rfl c rfl]
  | cons c cs ih =>
    cases hc : p c with
    | false => simp [hc]
    | true =>
      have hrest := ih (by simpa [hc] using h)
      simp [hc, hrest]

lemma drop_takeWhile : cs.drop (cs.takeWhile p).length = cs.dropWhile p := by
  have hsplit := List.takeWhile_append_dropWhile (p := p) (l := cs)
  exact (congrArg (List.drop _) hsplit).symm.trans List.drop_left

end Text

namespace Lexeme

def before (l : Lexeme) (more : List Char) : Lexeme :=
  { l with rest := l.rest ++ more }

variable {c : Char} {cs rest more : List Char}

lemma quotedInside_before {content content' : Array Char} {n n' : Nat} (more : List Char)
    (h : quotedInside content n cs = some (content', n')) :
    quotedInside content n (cs ++ more) = some (content', n') ∧ n' ≤ n + cs.length := by
  fun_induction quotedInside content n cs with
  | case1 => cases h
  | case2 content n rest =>
    cases h
    exact ⟨rfl, by simp⟩
  | case3 => cases h
  | case4 content n rest ih =>
    obtain ⟨hagain, hlength⟩ := ih h
    exact ⟨hagain, by simp only [List.length_cons]; omega⟩
  | case5 content n rest ih =>
    obtain ⟨hagain, hlength⟩ := ih h
    exact ⟨hagain, by simp only [List.length_cons]; omega⟩
  | case6 content n rest ih =>
    obtain ⟨hagain, hlength⟩ := ih h
    exact ⟨hagain, by simp only [List.length_cons]; omega⟩
  | case7 content n rest ih =>
    obtain ⟨hagain, hlength⟩ := ih h
    exact ⟨hagain, by simp only [List.length_cons]; omega⟩
  | case8 content n c rest _ _ _ _ ih =>
    obtain ⟨hagain, hlength⟩ := ih h
    refine ⟨?_, by simp only [List.length_cons]; omega⟩
    rw [List.cons_append, List.cons_append, quotedInside]
    all_goals assumption
  | case9 content n c rest hquote hescape ih =>
    obtain ⟨hagain, hlength⟩ := ih h
    refine ⟨?_, by simp only [List.length_cons]; omega⟩
    rw [List.cons_append, quotedInside]
    all_goals assumption

lemma quoted_before (h : (quoted cs).issue = none) (hcs : cs ≠ []) :
    quoted (cs ++ more) = (quoted cs).before more := by
  obtain ⟨c, rest, rfl⟩ := List.exists_cons_of_ne_nil hcs
  unfold quoted at h ⊢
  simp only [List.cons_append, List.drop_one, List.tail_cons] at h ⊢
  cases hinside : quotedInside #[] 0 rest with
  | none => simp [hinside] at h
  | some found =>
    obtain ⟨hagain, hlength⟩ := quotedInside_before more hinside
    simp only [hagain, before]
    have htake : found.2 + 1 ≤ (c :: rest).length := by simp; omega
    rw [← List.cons_append, List.take_append_of_le_length htake,
      List.drop_append_of_le_length htake]

lemma isPrefixOf_append {w : List Char} (hw : ∀ c ∈ w, c ≠ ')' ∧ c ≠ '\n') (hmore : Closing more) :
    w.isPrefixOf (cs ++ more) = w.isPrefixOf cs := by
  induction w generalizing cs with
  | nil => simp
  | cons a w ih =>
    rw [List.forall_mem_cons] at hw
    cases cs with
    | nil =>
      rcases hmore with h | h <;> obtain ⟨tail, rfl⟩ := List.head?_eq_some_iff.mp h <;>
        simp [List.isPrefixOf, hw.1]
    | cons c cs => simp [List.isPrefixOf, ih hw.2]

lemma startsInclude_before (hmore : Closing more) :
    startsInclude (cs ++ more) = startsInclude cs := by
  have hword : ∀ c ∈ includeWord, c ≠ ')' ∧ c ≠ '\n' := by
    simp [includeWord_eq]
  unfold startsInclude
  rw [isPrefixOf_append hword hmore]
  cases hprefix : includeWord.isPrefixOf cs with
  | false => rw [Bool.false_and, Bool.false_and]
  | true =>
    have hlength : 8 ≤ cs.length := (List.isPrefixOf_iff_prefix.mp hprefix).length_le
    rw [List.drop_append_of_le_length hlength, Bool.true_and, Bool.true_and]
    cases cs.drop 8 with
    | nil =>
      have hhead : more.head?.any isNameChar = false := by
        rcases hmore with h | h <;> rw [h] <;> decide
      rw [List.nil_append, hhead]
      rfl
    | cons c tail => rfl

lemma looksLikeTag_before (hmore : Closing more) :
    looksLikeTag (c :: (rest ++ more)) = looksLikeTag (c :: rest) := by
  have hhead : ∃ d tail, more = d :: tail ∧ d ≠ '/' ∧ Text.isAlphabetic d = false := by
    rcases hmore with h | h <;> obtain ⟨tail, rfl⟩ := List.head?_eq_some_iff.mp h <;>
      exact ⟨_, tail, rfl, by decide, by decide⟩
  obtain ⟨d, tail, rfl, hslash, hletter⟩ := hhead
  cases rest with
  | nil => simp [looksLikeTag, hslash, hletter]
  | cons a rest =>
    by_cases ha : a = '/'
    · subst ha
      cases rest with
      | nil => simp [looksLikeTag, hletter, show Text.isAlphabetic '/' = false by decide]
      | cons b rest => simp [looksLikeTag]
    · simp [looksLikeTag, ha]

lemma includeDirective_before (h : (includeDirective cs).issue = none)
    (hcs : startsInclude cs = true) :
    includeDirective (cs ++ more) = (includeDirective cs).before more := by
  have hlength : 8 ≤ cs.length := by
    rw [startsInclude, Bool.and_eq_true] at hcs
    exact (List.isPrefixOf_iff_prefix.mp hcs.1).length_le
  unfold includeDirective at h ⊢
  simp only [List.drop_append_of_le_length hlength, List.take_append_of_le_length hlength] at h ⊢
  cases hafter : (cs.drop 8).dropWhile fun c => c == ' ' || c == '\t' with
  | nil => simp [hafter] at h
  | cons d after =>
    obtain ⟨htake, hdrop⟩ := Text.takeWhile_append _ _ more
      (fun hnil => absurd (hafter.symm.trans hnil) (List.cons_ne_nil _ _))
    rw [htake, hdrop]
    simp only [hafter, List.cons_append] at h ⊢
    split at h
    · next path hpath =>
      obtain ⟨rfl, rfl⟩ := List.cons.inj hpath
      split at h
      · next tail htail =>
        obtain ⟨htake, hdrop⟩ := Text.takeWhile_append _ _ more
          (fun hnil => absurd (htail.symm.trans hnil) (List.cons_ne_nil _ _))
        rw [htake, hdrop, htail]
        rfl
      · cases h
    · cases h

lemma sigiled_before (hmore : Closing more) :
    sigiled c (rest ++ more) = (sigiled c rest).before more := by
  obtain ⟨htake, hdrop⟩ := Text.takeWhile_append isNameChar rest more
    fun _ => hmore.stops (by decide) (by decide)
  unfold sigiled
  rw [htake, hdrop]
  dsimp only
  split
  · rfl
  · rfl

lemma decimal_before (hmore : Closing more) :
    decimal (cs ++ more) = ((decimal cs).1, (decimal cs).2 ++ more) := by
  have hdigits (cs : List Char) := Text.takeWhile_append Char.isDigit cs more
    fun _ => hmore.stops (by decide) (by decide)
  unfold decimal
  rw [(hdigits cs).1, (hdigits cs).2]
  split
  · next tail htail =>
    cases hcs : cs.dropWhile Char.isDigit with
    | nil =>
      rw [hcs, List.nil_append] at htail
      exact absurd (htail ▸ hmore).of_cons (by decide)
    | cons c places =>
      rw [hcs, List.cons_append] at htail
      obtain ⟨rfl, rfl⟩ := List.cons.inj htail
      rw [(hdigits places).1, (hdigits places).2]
      by_cases hplaces : (places.takeWhile Char.isDigit).isEmpty = true
      · simp only [if_pos hplaces, List.cons_append]
      · simp only [if_neg hplaces]
  · next hpoint =>
    split
    · next tail htail => exact absurd (by rw [htail]; rfl) (hpoint (tail ++ more))
    · rfl

lemma number_before (hmore : Closing more) :
    number (cs ++ more) = ((number cs).1, (number cs).2.1 ++ more, (number cs).2.2) := by
  by_cases hex : ∃ x tail, cs = '0' :: x :: tail ∧ (x = 'x' ∨ x = 'X')
  · obtain ⟨x, tail, rfl, hx⟩ := hex
    have hx' : (x == 'x' || x == 'X') = true := by simpa using hx
    obtain ⟨htake, hdrop⟩ := Text.takeWhile_append isHexDigit tail more
      fun _ => hmore.stops (by decide) (by decide)
    simp [number, hx', htake, hdrop]
  · rw [number_eq_decimal fun x tail hcs => not_or.mp fun hx => hex ⟨x, tail, hcs, hx⟩,
      number_eq_decimal, decimal_before hmore]
    intro x tail hcs
    cases cs with
    | nil =>
      rw [List.nil_append] at hcs
      exact absurd (hcs ▸ hmore).of_cons (by decide)
    | cons c cs =>
      obtain ⟨hzero, hcs⟩ := List.cons.inj hcs
      cases cs with
      | nil => rcases (hcs ▸ hmore : Closing (x :: tail)).of_cons with rfl | rfl <;> decide
      | cons d cs =>
        obtain ⟨hmark, -⟩ := List.cons.inj hcs
        exact not_or.mp fun hx => hex ⟨d, cs, by rw [hzero], hmark ▸ hx⟩

lemma numeric_before {lead : List Char} {make : Float → TokenValue} (hmore : Closing more) :
    numeric lead make (cs ++ more) = (numeric lead make cs).before more := by
  simp only [numeric, number_before hmore, before]

lemma delta_before (hmore : Closing more) (h : (delta (c :: rest)).issue = none) :
    delta (c :: (rest ++ more)) = (delta (c :: rest)).before more := by
  have hnumeric (e : Char) (tail lead : List Char) (make : Float → TokenValue) :
      numeric lead make (e :: (tail ++ more)) = (numeric lead make (e :: tail)).before more := by
    rw [← List.cons_append, numeric_before hmore]
  unfold delta at h ⊢
  simp only [List.drop_one, List.tail_cons] at h ⊢
  have hsigned {d : Char} {tail : List Char} (hrest : rest = d :: tail) (hd : d = '-' ∨ d = '+') :
      ∃ e tail', tail = e :: tail' ∧ e.isDigit = true := by
    subst hrest
    cases tail with
    | nil => rcases hd with rfl | rfl <;> cases h
    | cons e tail' =>
      refine ⟨e, tail', rfl, ?_⟩
      by_contra he
      rcases hd with rfl | rfl <;> simp [he] at h
  cases rest with
  | nil => cases h
  | cons d tail =>
    by_cases hminus : d = '-'
    · obtain ⟨e, tail, rfl, he⟩ := hsigned rfl (.inl hminus)
      simp [hminus, he, hnumeric]
    · by_cases hplus : d = '+'
      · obtain ⟨e, tail, rfl, he⟩ := hsigned rfl (.inr hplus)
        simp [hplus, he, hnumeric]
      · by_cases hd : d.isDigit = true
        · simp [hminus, hplus, hd, hnumeric]
        · simp [hminus, hplus, hd] at h

lemma word_before (hmore : Closing more) : word (cs ++ more) = (word cs).before more := by
  obtain ⟨htake, hdrop⟩ := Text.takeWhile_append isNameChar cs more
    fun _ => hmore.stops (by decide) (by decide)
  unfold word
  rw [htake, hdrop]
  dsimp only
  split
  · rfl
  · rfl

lemma operator_before (hmore : Closing more) :
    operator c (rest ++ more) = (operator c rest).before more := by
  have hnone : ∀ d ∈ more.head?, twoCharOperator c d = none := by
    have hall (d : Char) (hd : d = ')' ∨ d = '\n') : twoCharOperator c d = none := by
      unfold twoCharOperator
      split <;> simp_all
    intro d hd
    rcases hmore with h | h <;> cases h.symm.trans hd
    · exact hall _ (.inl rfl)
    · exact hall _ (.inr rfl)
  have hone (n : Nat) (hn : n ≤ rest.length + 1) (kind : TokenKind) :
      plain kind n (c :: (rest ++ more)) = (plain kind n (c :: rest)).before more := by
    unfold plain before
    dsimp only
    rw [← List.cons_append, List.take_append_of_le_length (by simpa using hn),
      List.drop_append_of_le_length (by simpa using hn)]
  unfold operator
  cases rest with
  | nil =>
    have htwo : more.head?.bind (twoCharOperator c) = none := by
      rw [Option.bind_eq_none_iff]
      exact hnone
    simp only [List.nil_append, htwo, List.head?_nil, Option.bind_none]
    cases oneCharOperator c with
    | none => rfl
    | some kind => rfl
  | cons d rest =>
    simp only [List.cons_append, List.head?_cons, Option.bind_some]
    cases twoCharOperator c d with
    | some kind => exact hone 2 (by simp) kind
    | none =>
      cases oneCharOperator c with
      | none => rfl
      | some kind => exact hone 1 (by simp) kind

lemma tag_before (h : ∀ l, tag (c :: rest) = some l → l.issue = none) :
    tag (c :: (rest ++ more)) = (tag (c :: rest)).map (before · more) := by
  unfold tag at h ⊢
  simp only [List.drop_one, List.tail_cons, Text.drop_takeWhile] at h ⊢
  cases hclose : rest.dropWhile fun c => c != '>' && !endsTagSearch c with
  | nil => simp [hclose] at h
  | cons d tail =>
    obtain ⟨htake, hdrop⟩ := Text.takeWhile_append _ _ more
      (fun hnil => absurd (hclose.symm.trans hnil) (List.cons_ne_nil _ _))
    rw [htake, hdrop, hclose, List.cons_append]
    by_cases hd : d = '>'
    · subst hd
      rfl
    · simp [hd]

theorem code_before {previous : Option TokenKind} (hmore : Closing more)
    (h : (code previous c rest).issue = none) :
    code previous c (rest ++ more) = (code previous c rest).before more := by
  unfold code at h ⊢
  dsimp only at h ⊢
  rw [looksLikeTag_before hmore, ← List.cons_append, startsInclude_before hmore]
  split_ifs at h ⊢ with hquote hinclude hsigil hat hdigit hname htag
  · exact quoted_before h (List.cons_ne_nil _ _)
  · exact includeDirective_before h (Bool.and_eq_true_iff.mp hinclude).2
  · exact sigiled_before hmore
  · exact delta_before hmore h
  · exact numeric_before hmore
  · exact word_before hmore
  · have htag : tag (c :: (rest ++ more)) = (tag (c :: rest)).map (before · more) :=
      tag_before fun l hl => by rwa [hl] at h
    rw [List.cons_append, htag]
    cases tag (c :: rest) with
    | none => exact operator_before hmore
    | some l => rfl
  · exact operator_before hmore

lemma textLength_before {n : Nat} (hmore : Closing more) (h : textLength n cs < n + cs.length) :
    textLength n (cs ++ more) = textLength n cs := by
  induction cs generalizing n with
  | nil => exact absurd h (by simp [textLength])
  | cons c rest ih =>
    rw [List.cons_append, textLength, textLength, looksLikeTag_before hmore]
    rw [textLength] at h
    have hreturn : rest ≠ [] → (rest ++ more).head? = rest.head? := fun hrest =>
      List.head?_append_of_ne_nil _ hrest
    cases rest with
    | nil =>
      by_cases hbreak : (c == '\n' || c == '\x7b') = true
      · rw [if_pos hbreak, if_pos hbreak]
      · rw [if_neg hbreak] at h
        simp [looksLikeTag, textLength] at h
    | cons d rest =>
      rw [hreturn (List.cons_ne_nil _ _)]
      split_ifs at h ⊢ with hbreak hline htag
      · rfl
      · rfl
      · rfl
      · exact ih (by simp only [List.length_cons] at h ⊢; omega)

lemma dialogueText_before {lineStart : Bool} (hmore : Closing more)
    (h : (dialogueText lineStart c rest).rest ≠ []) :
    dialogueText lineStart c (rest ++ more) = (dialogueText lineStart c rest).before more := by
  have hlength : textLength 0 rest < rest.length := by
    simpa [dialogueText] using h
  unfold dialogueText
  rw [textLength_before hmore (by omega)]
  dsimp only
  rw [List.take_append_of_le_length hlength.le, List.drop_append_of_le_length hlength.le]
  cases hrest : rest.drop (textLength 0 rest) with
  | nil => exact absurd hrest h
  | cons d tail =>
    rw [List.cons_append]
    by_cases hbreak : d = '\n'
    · subst hbreak
      rfl
    · by_cases hreturn : d = '\r'
      · subst hreturn
        rfl
      · simp [hbreak, hreturn, before]

lemma dialogueName_before (hmore : Closing more) :
    dialogueName (c :: (rest ++ more)) = (dialogueName (c :: rest)).map (before · more) := by
  unfold dialogueName
  simp only [List.drop_one, List.tail_cons, Text.drop_takeWhile]
  cases hclose : rest.dropWhile (· != ']') with
  | nil =>
    -- without a closing bracket in front of it, what follows begins with a character of no name
    have hall : ((rest ++ more).takeWhile (· != ']')).all isNameChar = false := by
      have hnone : ∀ d ∈ rest, (d != ']') = true := List.dropWhile_eq_nil_iff.mp hclose
      rw [List.takeWhile_append_of_pos hnone, List.all_append]
      rcases hmore with h | h <;> obtain ⟨tail, rfl⟩ := List.head?_eq_some_iff.mp h
      · simp [show isNameChar ')' = false by decide]
      · simp [show isNameChar '\n' = false by decide]
    simp [hall]
  | cons d tail =>
    obtain ⟨htake, hdrop⟩ := Text.takeWhile_append _ _ more
      (fun hnil => absurd (hclose.symm.trans hnil) (List.cons_ne_nil _ _))
    rw [htake, hdrop, hclose]
    simp only [List.cons_append, List.isEmpty_cons, Bool.false_or]
    split
    · rfl
    · rfl

theorem dialogue_before {lineStart : Bool} (hmore : Closing more)
    (h : (dialogue lineStart c rest).issue = none)
    (hrest : (dialogue lineStart c rest).kind = .markupText →
      (dialogue lineStart c rest).rest ≠ []) :
    dialogue lineStart c (rest ++ more) = (dialogue lineStart c rest).before more := by
  unfold dialogue at h hrest ⊢
  dsimp only at h hrest ⊢
  rw [looksLikeTag_before hmore]
  split_ifs at h hrest ⊢ with hbreak hreturn hbrace htag hname
  · rfl
  · rfl
  · rfl
  · have htag : tag (c :: (rest ++ more)) = (tag (c :: rest)).map (before · more) :=
      tag_before fun l hl => by rwa [hl] at h
    rw [htag]
    cases ht : tag (c :: rest) with
    | none =>
      rw [ht] at hrest
      exact dialogueText_before hmore (hrest rfl)
    | some l => rfl
  · rw [dialogueName_before hmore]
    cases hn : dialogueName (c :: rest) with
    | none =>
      rw [hn] at hrest
      exact dialogueText_before hmore (hrest rfl)
    | some l => rfl
  · exact dialogueText_before hmore (hrest rfl)

lemma code_congr {a b : Option TokenKind} (h : a.any endsOperand = b.any endsOperand) :
    code a c rest = code b c rest := by
  unfold code
  rw [h]

lemma issue_of_isSilent {lineStart : Bool} (h : (dialogue lineStart c rest).isSilent = true) :
    (dialogue lineStart c rest).issue = none := by
  revert h
  unfold dialogue
  dsimp only
  split_ifs with hbreak hreturn hbrace htag hname
  · exact fun _ => rfl
  · exact fun _ => rfl
  · exact fun _ => rfl
  · cases ht : tag (c :: rest) with
    | none => exact fun _ => rfl
    | some l => simp [Scanner.isSilent_of_tag ht]
  · cases hn : dialogueName (c :: rest) with
    | none => exact fun _ => rfl
    | some l => simp [Scanner.isSilent_of_dialogueName hn]
  · exact fun _ => rfl

lemma Solid.before (h : Solid c rest) (hmore : Closing more) : Solid c (rest ++ more) := by
  refine ⟨h.blank, fun hc => ?_⟩
  cases rest with
  | nil => rcases hmore with h | h <;> simp [h]
  | cons d rest => exact h.comment hc

end Lexeme

section Gaps

variable {gap tail more : List Char}

lemma Trivia.before (h : Trivia tail gap) (hmore : tail = [] → more.head? = some '\n') :
    Trivia (tail ++ more) gap := by
  induction h with
  | nil => exact .nil
  | blank hc _ ih => exact .blank hc ih
  | @line inside gap hinside hhead _ ih =>
    refine .line hinside (fun c hc => ?_) ih
    rw [← List.append_assoc] at hc
    cases hgap : gap ++ tail with
    | nil =>
      rw [hgap, List.nil_append, hmore (List.append_eq_nil_iff.mp hgap).2] at hc
      exact (Option.some.inj hc).symm
    | cons d rest =>
      rw [hgap] at hc
      exact hhead c (by rw [hgap]; exact hc)
  | block hinside _ ih => exact .block hinside ih

def Scanner.startsComment (cs : List Char) : Bool :=
  match cs.dropWhile Text.isBlank with
  | '/' :: '/' :: _ => true
  | '/' :: '*' :: _ => true
  | _ => false

lemma Trivia.anywhere (h : Trivia tail gap) (hcomment : Scanner.startsComment gap = false)
    (tail' : List Char) : Trivia tail' gap := by
  have hslash : Text.isBlank '/' = false := by decide
  induction h with
  | nil => exact .nil
  | blank hc _ ih =>
    refine .blank hc (ih ?_)
    rwa [Scanner.startsComment, List.dropWhile_cons_of_pos hc] at hcomment
  | line =>
    simp [Scanner.startsComment, hslash] at hcomment
  | block =>
    simp [Scanner.startsComment, hslash] at hcomment

lemma Scanner.commentLength_inside {n : Nat} {inside rest : List Char}
    (h : ¬ ['*', '/'] <:+: inside ++ ['*']) :
    commentLength n (inside ++ '*' :: '/' :: rest) = some (n + inside.length + 2) := by
  induction inside generalizing n with
  | nil => rfl
  | cons c inside ih =>
    rw [List.cons_append, List.infix_cons_iff, not_or] at h
    rw [List.cons_append, commentLength, ih h.2, List.length_cons]
    · congr 1
      omega
    · rintro tail rfl hrest
      refine h.1 ?_
      cases inside with
      | nil => cases (List.cons.inj hrest).1
      | cons d inside =>
        rw [List.cons_append] at hrest
        rw [(List.cons.inj hrest).1]
        exact ⟨inside ++ ['*'], rfl⟩

lemma Scanner.skipTrivia_trivia {s : Scanner} (h : Trivia tail gap) (hs : s.rest = gap ++ tail) :
    s.skipTrivia = (s.skip gap tail).skipTrivia := by
  induction h generalizing s with
  | nil =>
    have hskip : s.skip [] tail = s := by
      rw [List.nil_append] at hs
      simp [skip, Position.afterAll, ← hs]
    rw [hskip]
  | @blank c gap hc _ ih =>
    rw [List.cons_append] at hs
    rw [skipTrivia_blank hs hc, ih (s := s.skip [c] (gap ++ tail)) rfl, skip_skip]
    rfl
  | @line inside gap hinside hhead _ ih =>
    -- a comment of one line ends at the next line break or with the text
    have hline : ∀ c ∈ inside, (c != '\n') = true := fun c hc => by simpa using hinside c hc
    have hstop : ∀ c ∈ (gap ++ tail).head?, (c != '\n') = false := fun c hc => by
      simpa using hhead c hc
    have hrest : s.rest = '/' :: '/' :: (inside ++ (gap ++ tail)) := by rw [hs]; simp
    rw [skipTrivia]
    split
    · next line h =>
      obtain ⟨-, h⟩ := List.cons.inj (hrest.symm.trans h)
      obtain ⟨-, rfl⟩ := List.cons.inj h
      rw [Text.takeWhile_apart hline hstop, Text.dropWhile_apart hline hstop,
        ih (s := s.skip _ (gap ++ tail)) rfl, skip_skip]
      rfl
    · next inside h => simp [hrest] at h
    · next hnot _ h =>
      obtain ⟨hc, hline⟩ := List.cons.inj (h.symm.trans hrest)
      exact (hnot _ hc hline).elim
    · next h => simp [hrest] at h
  | @block inside gap hinside _ ih =>
    have hrest : s.rest = '/' :: '*' :: (inside ++ '*' :: '/' :: (gap ++ tail)) := by rw [hs]; simp
    rw [skipTrivia]
    split
    · next line h => simp [hrest] at h
    · next comment h =>
      obtain ⟨-, h⟩ := List.cons.inj (hrest.symm.trans h)
      obtain ⟨-, rfl⟩ := List.cons.inj h
      rw [commentLength_inside hinside]
      have htake : (inside ++ '*' :: '/' :: (gap ++ tail)).take (0 + inside.length + 2) =
          inside ++ ['*', '/'] := by
        simp [List.take_append]
      have hdrop : (inside ++ '*' :: '/' :: (gap ++ tail)).drop (0 + inside.length + 2) =
          gap ++ tail := by
        simp [List.drop_append]
      simp only [htake, hdrop]
      rw [ih (s := s.skip _ (gap ++ tail)) rfl, skip_skip]
      simp
    · next hnot h =>
      obtain ⟨hc, hblock⟩ := List.cons.inj (h.symm.trans hrest)
      exact (hnot _ hc hblock).elim
    · next h => simp [hrest] at h

end Gaps

namespace Scanner

variable {more : List Char} {s u : Scanner}

lemma solid_skipTrivia {c : Char} {rest : List Char} (h : s.skipTrivia.rest = c :: rest) :
    Lexeme.Solid c rest := by
  fun_induction skipTrivia s with
  | case1 s line _ ih => exact ih h
  | case2 s inside _ n hn ih => exact ih h
  | case3 s inside _ hn => cases h
  | case4 s d rest' _ _ _ hc ih => exact ih h
  | case5 s d rest' hline hblock hd hc =>
    obtain ⟨rfl, rfl⟩ := List.cons.inj (hd.symm.trans h)
    refine ⟨by simpa using hc, fun hslash => ⟨fun hhead => ?_, fun hhead => ?_⟩⟩
    · obtain ⟨tail, htail⟩ := List.head?_eq_some_iff.mp hhead
      exact hline tail hslash htail
    · obtain ⟨tail, htail⟩ := List.head?_eq_some_iff.mp hhead
      exact hblock tail hslash htail
  | case6 s hs => simp [hs] at h

structure Extends (more : List Char) (s u : Scanner) : Prop where
  rest : u.rest = s.rest ++ more
  place : ∃ p, s.At p ∧ u.At p
  operand : u.previous.any Lexeme.endsOperand = s.previous.any Lexeme.endsOperand

lemma Extends.modes (h : s.Extends more u) : u.modes = s.modes := by
  obtain ⟨p, hs, hu⟩ := h.place
  rw [hs.modes, hu.modes]

lemma Extends.skip (h : s.Extends more u) (chars chars' rest : List Char) :
    (s.skip chars rest).Extends more (u.skip chars' (rest ++ more)) := by
  obtain ⟨p, hs, hu⟩ := h.place
  exact ⟨rfl, ⟨p, ⟨hs.modes, hs.lineStart, hs.free⟩, ⟨hu.modes, hu.lineStart, hu.free⟩⟩, h.operand⟩

lemma Extends.lineStart (h : s.Extends more u) (hm : s.modes.head? = some .dialogue) :
    u.lineStart = s.lineStart := by
  obtain ⟨p, hs, hu⟩ := h.place
  have hp : p.modes.head? = some .dialogue := hs.modes ▸ hm
  rw [hs.lineStart hp, hu.lineStart hp]

structure Accords (more : List Char) (s u : Scanner) : Prop where
  shape : u.next.1.shape = s.next.1.shape
  behind : s.next.2.Extends more u.next.2
  diagnostics : u.next.2.diagnostics = u.diagnostics

lemma Extends.accept {s' u' : Scanner} (h : s'.Extends more u') {l : Lexeme}
    (hissue : l.issue = none) (hkind : s.next.1.kind ≠ .endOfFile) (hs : s.next = s'.accept l)
    (hu : u.next = u'.accept (l.before more)) (hdiagnostics : u'.diagnostics = u.diagnostics) :
    s.Accords more u := by
  rw [hs, accept_kind] at hkind
  have hgenuine : Genuine (l.kind, l.value) := by
    have hgenuine := (step_next s).genuine
    rwa [hs, accept_shape hkind] at hgenuine
  have htag := textual_of_genuine (t := Shape.token (l.kind, l.value)) hgenuine
  have hprevious (s : Scanner) (l : Lexeme) : (s.accept l).2.previous = some l.kind := by
    rw [← accept_kind (s := s) l]
    rfl
  obtain ⟨p, hps, hpu⟩ := h.place
  refine ⟨?_, ⟨?_, ⟨p.after (l.kind, l.value), ?_, ?_⟩, ?_⟩, ?_⟩ <;> simp only [hs, hu]
  · rw [accept_shape hkind, accept_shape (l := l.before more) hkind]
    rfl
  · rw [accept_rest, accept_rest]
    rfl
  · exact at_accept hps hkind htag
  · exact at_accept hpu (l := l.before more) hkind htag
  · rw [hprevious, hprevious]
    rfl
  · rw [accept_diagnostics (l := l.before more) hissue, hdiagnostics]

lemma issue_of_quiet {l : Lexeme} (h : (s.accept l).2.diagnostics = s.diagnostics) :
    l.issue = none := by
  cases hissue : l.issue with
  | none => rfl
  | some issue =>
    have hsize : (s.accept l).2.diagnostics.size = s.diagnostics.size + 1 := by
      simp [Scanner.accept, hissue, Scanner.skip, report]
    rw [h] at hsize
    omega

lemma next_code (hm : s.modes.head? ≠ some .dialogue) (hkind : s.next.1.kind ≠ .endOfFile) :
    ∃ gap c rest, s.rest = gap ++ c :: rest ∧ Trivia (c :: rest) gap ∧ Lexeme.Solid c rest ∧
      s.next = (s.skip gap (c :: rest)).accept (Lexeme.code s.previous c rest) := by
  have hm' : (s.modes.head? == some .dialogue) = false := by simpa using hm
  cases hrest : s.skipTrivia.rest with
  | nil =>
    have hend : s.next.1.kind = .endOfFile := by simp [next, hm', hrest, accept_kind]
    exact absurd hend hkind
  | cons c rest =>
    obtain ⟨gap, tail, hs, hgap, hskip | ⟨inside, rfl, hinside, hskip⟩⟩ := s.passesTrivia
    · obtain rfl : tail = c :: rest := by rw [hskip] at hrest; exact hrest
      refine ⟨gap, c, rest, hs, hgap, solid_skipTrivia hrest, ?_⟩
      simp [next, hm', hskip, skip]
    · rw [hskip] at hrest
      cases hrest

lemma Extends.accords_code (h : s.Extends more u) (hmore : Closing more)
    (hm : s.modes.head? ≠ some .dialogue) (hkind : s.next.1.kind ≠ .endOfFile)
    (hquiet : s.next.2.diagnostics = s.diagnostics) : s.Accords more u := by
  obtain ⟨gap, c, rest, hs, hgap, hsolid, hnext⟩ := next_code hm hkind
  have hissue : (Lexeme.code s.previous c rest).issue = none := by
    rw [hnext] at hquiet
    exact issue_of_quiet hquiet
  have hskip : u.skipTrivia = u.skip gap (c :: rest ++ more) := by
    have hu : u.rest = gap ++ (c :: rest ++ more) := by rw [h.rest, hs, List.append_assoc]
    rw [skipTrivia_trivia (hgap.before (by simp)) hu]
    exact skipTrivia_solid rfl (hsolid.before hmore)
  have hum : (u.modes.head? == some .dialogue) = false := by rw [h.modes]; simpa using hm
  refine (h.skip gap gap (c :: rest)).accept hissue hkind hnext ?_ rfl
  rw [← Lexeme.code_before hmore hissue, ← Lexeme.code_congr h.operand]
  simp [next, hum, hskip, Scanner.skip]

lemma skipSilence_nil (h : s.rest = []) : s.skipSilence = s := by
  rw [skipSilence]
  split
  · rfl
  · next hcons => cases h.symm.trans hcons

lemma skipSilence_cons {c : Char} {rest : List Char} (h : s.rest = c :: rest) : s.skipSilence =
    if (Lexeme.dialogue s.lineStart c rest).isSilent then
      (s.skip (Lexeme.dialogue s.lineStart c rest).chars
        (Lexeme.dialogue s.lineStart c rest).rest).skipSilence
    else s := by
  rw [skipSilence]
  split
  · next hnil => cases h.symm.trans hnil
  · next d tail htail =>
    obtain ⟨rfl, rfl⟩ := List.cons.inj (h.symm.trans htail)
    rfl

lemma skipSilence_before (h : s.Extends more u) (hmore : Closing more) {c : Char}
    {rest : List Char} (hrest : s.skipSilence.rest = c :: rest)
    (hissue : (Lexeme.dialogue s.lineStart c rest).issue = none)
    (hgoes : (Lexeme.dialogue s.lineStart c rest).kind = .markupText →
      (Lexeme.dialogue s.lineStart c rest).rest ≠ []) (hline : u.lineStart = s.lineStart) :
    s.skipSilence.Extends more u.skipSilence ∧ u.skipSilence.diagnostics = u.diagnostics := by
  revert u
  fun_induction skipSilence s with
  | case1 s hs => simp [hs] at hrest
  | case2 s d tail hs l hsilent ih =>
    intro u h hline
    have hu : u.rest = d :: (tail ++ more) := by rw [h.rest, hs]; rfl
    have hsame : Lexeme.dialogue u.lineStart d (tail ++ more) = l.before more := by
      rw [hline]
      refine Lexeme.dialogue_before hmore (Lexeme.issue_of_isSilent hsilent) fun _ hnil => ?_
      rw [skipSilence_nil (s := s.skip _ _) hnil] at hrest
      cases hnil.symm.trans hrest
    have hagain : (l.before more).isSilent = true := hsilent
    have hskip : u.skipSilence = (u.skip l.chars (l.rest ++ more)).skipSilence := by
      rw [skipSilence_cons hu, hsame, if_pos hagain]
      rfl
    rw [hskip]
    exact ih hrest hissue hgoes (h.skip _ _ _) hline
  | case3 s d tail hs l hloud =>
    intro u h hline
    obtain ⟨rfl, rfl⟩ := List.cons.inj (hs.symm.trans hrest)
    have hu : u.rest = d :: (tail ++ more) := by rw [h.rest, hs]; rfl
    have hsame := Lexeme.dialogue_before hmore hissue hgoes
    have hagain : (Lexeme.dialogue u.lineStart d (tail ++ more)).isSilent = l.isSilent := by
      rw [hline, hsame]
      rfl
    rw [skipSilence_cons hu, hagain, if_neg hloud]
    exact ⟨h, rfl⟩

lemma Extends.accords_dialogue (h : s.Extends more u) (hmore : Closing more)
    (hm : s.modes.head? = some .dialogue) (hkind : s.next.1.kind ≠ .endOfFile)
    (hquiet : s.next.2.diagnostics = s.diagnostics)
    (hgoes : s.next.1.kind = .markupText → s.next.2.rest ≠ []) : s.Accords more u := by
  have hm' : (s.modes.head? == some .dialogue) = true := by simpa using hm
  have hum : (u.modes.head? == some .dialogue) = true := by rw [h.modes]; exact hm'
  obtain ⟨-, -, hline, -⟩ := skipSilence_keeps s
  cases hrest : s.skipSilence.rest with
  | nil =>
    have hend : s.next.1.kind = .endOfFile := by simp [next, hm', hrest, accept_kind]
    exact absurd hend hkind
  | cons c rest =>
    have hnext : s.next = s.skipSilence.accept (Lexeme.dialogue s.lineStart c rest) := by
      simp [next, hm', hrest, hline]
    have hdiagnostics : s.skipSilence.diagnostics = s.diagnostics := by
      obtain ⟨gap, tail, -, -, hskip⟩ := s.passesSilence
      rw [hskip]
      rfl
    rw [hnext] at hquiet hgoes
    rw [accept_kind, accept_rest] at hgoes
    have hissue := issue_of_quiet (hquiet.trans hdiagnostics.symm)
    obtain ⟨hbehind, hsame⟩ := skipSilence_before h hmore hrest hissue hgoes (h.lineStart hm)
    refine hbehind.accept hissue hkind hnext ?_ hsame
    have hurest : u.skipSilence.rest = c :: (rest ++ more) := by rw [hbehind.rest, hrest]; rfl
    obtain ⟨-, -, huline, -⟩ := skipSilence_keeps u
    rw [← Lexeme.dialogue_before hmore hissue hgoes, ← h.lineStart hm]
    simp [next, hum, hurest, huline]

theorem Extends.accords (h : s.Extends more u) (hmore : Closing more)
    (hkind : s.next.1.kind ≠ .endOfFile) (hquiet : s.next.2.diagnostics = s.diagnostics)
    (hgoes : s.modes.head? = some .dialogue → s.next.1.kind = .markupText → s.next.2.rest ≠ []) :
    s.Accords more u := by
  by_cases hm : s.modes.head? = some .dialogue
  · exact h.accords_dialogue hmore hm hkind hquiet (hgoes hm)
  · exact h.accords_code hmore hm hkind hquiet

def atComment (s : Scanner) : Bool :=
  s.modes.head? != some .dialogue && startsComment s.rest

lemma Extends.ends (h : s.Extends more u) (hkind : s.next.1.kind = .endOfFile)
    (hquiet : s.next.2.diagnostics = s.diagnostics)
    (hmore : more.head? = some '\n' ∨ s.atComment = false) :
    u.next = (u.skip s.rest more).next := by
  rcases s.takes_or_ends with ⟨gap, htakes⟩ | ⟨gap, tail, issue, hends⟩
  · exact absurd hkind htakes.kind
  · have hissue : issue = none := by
      have hdiagnostics := hends.diagnostics
      rw [hquiet] at hdiagnostics
      cases issue with
      | none => rfl
      | some issue => simp at hdiagnostics
    subst hissue
    have hending := hends.ending
    have hbetween := hends.between
    have hchars := hends.chars
    cases hending with
    | code hm =>
      rw [Gap, if_neg hm] at hbetween
      rw [List.append_nil] at hchars
      have htrivia : Trivia more s.rest := by
        rw [hchars]
        rcases hmore with hbreak | hfree
        · exact hbetween.before fun _ => hbreak
        · rw [atComment, Bool.and_eq_false_imp] at hfree
          exact hbetween.anywhere (hchars ▸ hfree (by simpa using hm)) more
      have hum : (u.modes.head? == some .dialogue) = false := by rw [h.modes]; simpa using hm
      have hskip := skipTrivia_trivia htrivia h.rest
      simp only [next, hum, hskip, Scanner.skip]
      rfl

end Scanner

end Stagecraft
