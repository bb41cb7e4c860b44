import Stagecraft.Proofs.Script.Lawful

namespace Stagecraft

open Shape

def Unended (cs : List Char) : Prop :=
  ∀ c ∈ (cs.dropWhile Lexeme.isInTag).head?, c ≠ '>'

section Unended

variable {a b b' : List Char}

lemma isInTag_of_isBlank {c : Char} (h : Text.isBlank c = true) (hc : c ≠ '\n') :
    Lexeme.isInTag c = true := by
  by_contra hout
  have hnot : Text.isBlank c = false := by
    simp only [Lexeme.isInTag, Lexeme.endsTagSearch, Bool.and_eq_true, bne_iff_ne, ne_eq,
      Bool.not_eq_true', Bool.or_eq_false_iff, beq_eq_false_iff_ne, not_and_or, not_not] at hout
    rcases hout with rfl | ((((hout | rfl) | rfl) | rfl) | rfl) | rfl
    · decide
    · exact absurd hout hc
    all_goals decide
  rw [h] at hnot
  cases hnot

lemma unended_append (h : ∀ c ∈ a, Lexeme.isInTag c = true) : Unended (a ++ b) ↔ Unended b := by
  rw [Unended, List.dropWhile_append_of_pos h, Unended]

lemma Unended.change (h : Unended (a ++ b)) (hb : Unended b → Unended b') : Unended (a ++ b') := by
  obtain ha | ⟨x, d, y, rfl, hx, hd⟩ := Text.split_first Lexeme.isInTag a
  · rw [unended_append ha] at h ⊢
    exact hb h
  · rw [List.append_assoc, List.cons_append, Unended, Text.dropWhile_first hx hd] at h ⊢
    exact h

lemma Unended.closed (h : Unended b) : Closed b := by
  rintro x y rfl hx
  rw [unended_append hx] at h
  exact absurd rfl (h '>' rfl)

end Unended

def IsTag (t : Shape) : Prop :=
  (t.1 = .startTag ∨ t.1 = .endTag) ∧ ∃ content, t.2 = .text content ∧ FitsTag content

lemma isTag_of_genuine {t : Shape} (h : Genuine t) (ht : t.1 = .startTag ∨ t.1 = .endTag) :
    IsTag t := by
  obtain ⟨kind, value⟩ := t
  refine ⟨ht, ?_⟩
  rcases ht with rfl | rfl <;> exact h

inductive Voices (cs : List Char) (t : Shape) (rest : List Char) : Prop
  | silent : t.isSpoken = false → Voices cs t rest
  | tag : IsTag t → ¬ Unended cs → Voices cs t rest
  | plain (before behind : List Char) : t.1 ≠ .startTag ∧ t.1 ≠ .endTag →
    cs = before ++ (said t ++ (behind ++ rest)) →
    (∀ c ∈ before ++ behind, Lexeme.isInTag c = true) →
    (∀ x y, said t = x ++ '<' :: y → Lexeme.Stopped rest ∧
      (Lexeme.looksLikeTag ('<' :: (y ++ (behind ++ rest))) = true →
        Unended (y ++ (behind ++ rest)))) → Voices cs t rest

lemma Voices.append {front cs rest : List Char} {t : Shape} (h : Voices cs t rest)
    (hfront : ∀ c ∈ front, Lexeme.isInTag c = true) : Voices (front ++ cs) t rest := by
  cases h with
  | silent h => exact .silent h
  | tag h hended => exact .tag h fun hunended => hended ((unended_append hfront).mp hunended)
  | plain before behind hkind hchars hblank hangle =>
    refine .plain (front ++ before) behind hkind (by rw [hchars, List.append_assoc])
      (fun c hc => ?_) hangle
    rw [List.append_assoc] at hc
    exact (List.mem_append.mp hc).elim (hfront c) (hblank c)

namespace Lexeme

variable {lineStart : Bool} {c : Char} {rest : List Char}

lemma unended_of_tag (h : tag (c :: rest) = none) : Unended rest := by
  obtain hall | ⟨a, d, b, rfl, ha, hd⟩ := Text.split_first isInTag rest
  · rw [Unended, List.dropWhile_eq_nil_iff.mpr hall]
    simp
  · rw [tag_of_first ha hd] at h
    rw [unended_append ha, Unended, List.dropWhile_cons_of_neg (by simp [hd])]
    rintro _ ⟨⟩ rfl
    simp at h

variable {l : Lexeme}

lemma voices_tag (h : tag ('<' :: rest) = some l) :
    Voices ('<' :: rest) (l.kind, l.value) l.rest := by
  by_cases hend : l.kind = .endOfFile
  · exact .silent (by rw [hend]; rfl)
  have hkind := kind_tag h
  have hgenuine := genuine_tag h
  simp only [List.mem_cons, List.not_mem_nil, or_false, hend] at hkind
  obtain ⟨a, b, rfl, ha, -⟩ := eq_of_tag h hend
  refine .tag (isTag_of_genuine hgenuine hkind) fun hunended => ?_
  rw [← List.cons_append, unended_append (List.forall_mem_cons.mpr ⟨by decide, ha⟩)] at hunended
  exact hunended '>' rfl rfl

lemma voices_dialogueName (h : dialogueName ('[' :: rest) = some l) :
    Voices ('[' :: rest) (l.kind, l.value) l.rest := by
  obtain hall | ⟨a, d, b, rfl, ha, hd⟩ := Text.split_first (· != ']') rest
  · have htake : rest.takeWhile (· != ']') = rest := List.takeWhile_eq_self_iff.mpr hall
    simp [dialogueName, htake] at h
  · obtain rfl : d = ']' := by simpa using hd
    rw [dialogueName_of_first ha] at h
    split at h
    · next hname =>
      cases h
      have hsaid : said (.dialogueIdentifier, .text (String.ofList a)) = '[' :: (a ++ [']']) := by
        simp [said]
      refine .plain [] [] (by simp) (by simp [hsaid]) (by simp) fun x y hxy => ?_
      have hmem : '<' ∈ '[' :: (a ++ [']']) := by
        rw [← hsaid, hxy]
        simp
      simp only [List.mem_cons, List.mem_append, List.not_mem_nil, or_false] at hmem
      rcases hmem with hmem | hmem | hmem
      · cases hmem
      · exact absurd (List.all_eq_true.mp hname.2 _ hmem) (by decide +kernel)
      · cases hmem
    · cases h

lemma voices_text (hc : c ≠ '\n') (hangle : c = '<' → looksLikeTag ('<' :: rest) = true →
    Unended rest) (hloud : (dialogueText lineStart c rest).isSilent = false) :
    Voices (c :: rest) ((dialogueText lineStart c rest).kind,
      (dialogueText lineStart c rest).value) (dialogueText lineStart c rest).rest := by
  have hkind : (dialogueText lineStart c rest).kind = .markupText := rfl
  rcases value_dialogueText lineStart c rest with hvalue | ⟨s, hvalue⟩
  · simp [isSilent, hkind, hvalue] at hloud
  obtain ⟨-, before, behind, hchars, hblank⟩ := dialogueText_says hvalue
  obtain ⟨k, hk, hinside, hstop, hplain⟩ := textLength_stop 0 rest
  rw [Nat.zero_add] at hk
  have hrest : (dialogueText lineStart c rest).rest = rest.drop k := by rw [← hk]; rfl
  rw [hk] at hchars
  have hsaid : said ((dialogueText lineStart c rest).kind, (dialogueText lineStart c rest).value) =
      s.toList := by rw [hkind, hvalue]; rfl
  have hall : ∀ d ∈ c :: rest.take k, d ≠ '\n' :=
    List.forall_mem_cons.mpr ⟨hc, fun d hd => (hinside d hd).1⟩
  refine .plain before behind (by simp [hkind]) ?_
    (fun d hd => isInTag_of_isBlank (hblank d hd) ?_) fun x y hxy => ?_
  · rw [hsaid, hrest, ← List.append_assoc s.toList, ← List.append_assoc before, ← hchars,
      List.cons_append, List.take_append_drop]
  · refine hall d ?_
    rw [hchars]
    simp only [List.mem_append] at hd ⊢
    exact hd.imp_right .inr
  · rw [hsaid] at hxy
    rw [hrest]
    refine ⟨hstop, fun hlooks => ?_⟩
    rw [hxy, List.append_assoc, List.cons_append, ← List.append_assoc] at hchars
    rw [← List.append_assoc] at hlooks ⊢
    rcases hfront : before ++ x with _ | ⟨d, front⟩
    · -- the bracket is the first character of the run
      rw [hfront, List.nil_append, List.cons.injEq] at hchars
      obtain ⟨rfl, hchars⟩ := hchars
      rw [← hchars, List.take_append_drop] at hlooks ⊢
      exact hangle rfl hlooks
    · rw [hfront, List.cons_append, List.cons.injEq] at hchars
      rw [hplain front (y ++ behind) hchars.2] at hlooks
      cases hlooks

lemma voices (hloud : (dialogue lineStart c rest).isSilent = false) :
    Voices (c :: rest) ((dialogue lineStart c rest).kind, (dialogue lineStart c rest).value)
      (dialogue lineStart c rest).rest := by
  revert hloud
  unfold dialogue
  dsimp only
  split
  · next hc =>
    rw [beq_iff_eq] at hc
    subst hc
    refine fun _ => .plain [] [] (by simp [plain]) (by simp [plain, said]) (by simp)
      fun x y hxy => ?_
    rcases x with _ | ⟨d, x⟩ <;> simp [plain, said] at hxy
  next hbreak =>
  have hc : c ≠ '\n' := by simpa using hbreak
  split
  · intro hloud
    simp [isSilent, plain] at hloud
  split
  · exact fun _ => .silent rfl
  split
  · next hangle =>
    simp only [Bool.and_eq_true, beq_iff_eq] at hangle
    obtain ⟨rfl, -⟩ := hangle
    cases htag : tag ('<' :: rest) with
    | none => exact voices_text hc fun _ _ => unended_of_tag htag
    | some l => exact fun _ => voices_tag htag
  next hangle =>
  have htext : c = '<' → looksLikeTag ('<' :: rest) = true → Unended rest := by
    rintro rfl hlooks
    simp [hlooks] at hangle
  split
  · next hbracket =>
    simp only [Bool.and_eq_true, beq_iff_eq] at hbracket
    obtain ⟨rfl, -⟩ := hbracket
    cases hname : dialogueName ('[' :: rest) with
    | none => exact voices_text hc htext
    | some l => exact fun _ => voices_dialogueName hname
  · exact voices_text hc htext

lemma blank_of_isSilent (h : (dialogue lineStart c rest).isSilent = true) :
    ∃ front, c :: rest = front ++ (dialogue lineStart c rest).rest ∧
      ∀ d ∈ front, isInTag d = true := by
  revert h
  unfold dialogue
  dsimp only
  split
  · intro h
    simp [isSilent, plain] at h
  next hbreak =>
  have htext (h : (dialogueText lineStart c rest).isSilent = true) :
      ∃ front, c :: rest = front ++ (dialogueText lineStart c rest).rest ∧
        ∀ d ∈ front, isInTag d = true := by
    have hblank := dialogueText_silent h
    obtain ⟨k, hk, hinside, -⟩ := textLength_stop 0 rest
    rw [Nat.zero_add] at hk
    have hrest : (dialogueText lineStart c rest).rest = rest.drop k := by rw [← hk]; rfl
    rw [hk] at hblank
    refine ⟨c :: rest.take k, by simp [hrest],
      fun d hd => isInTag_of_isBlank (hblank d hd) ?_⟩
    rcases List.mem_cons.mp hd with rfl | hd
    · simpa using hbreak
    · exact (hinside d hd).1
  split
  · next hreturn =>
    obtain rfl : c = '\r' := by simpa using hreturn
    exact fun _ => ⟨['\r'], by simp [plain], by simp; decide⟩
  split
  · intro h
    cases h
  split
  · cases htag : tag (c :: rest) with
    | none => exact htext
    | some l =>
      intro h
      rw [Option.getD_some, Scanner.isSilent_of_tag htag] at h
      cases h
  split
  · cases hname : dialogueName (c :: rest) with
    | none => exact htext
    | some l =>
      intro h
      rw [Option.getD_some, Scanner.isSilent_of_dialogueName hname] at h
      cases h
  · exact htext

end Lexeme

namespace Scanner

variable {s : Scanner}

def heard (fuel : Nat) (s : Scanner) : List Shape :=
  (run fuel s #[]).1.toList.map (·.1.shape)

lemma heard_succ (fuel : Nat) (s : Scanner) : s.heard (fuel + 1) = s.next.1.shape ::
    if s.next.1.kind = .endOfFile then [] else s.next.2.heard fuel :=
  run_succ fuel s

lemma speech_cons (t : Shape) (ss : List Shape) :
    speech (t :: ss) = if t.isSpoken then said t ++ speech ss else [] := by
  unfold speech
  cases h : t.isSpoken <;> simp [h]

lemma speech_heard (fuel : Nat) (s : Scanner) : speech (s.heard (fuel + 1)) =
    if s.next.1.shape.isSpoken then said s.next.1.shape ++ speech (s.next.2.heard fuel) else [] := by
  rw [heard_succ, speech_cons]
  split
  · next hspoken =>
    rw [if_neg]
    intro hend
    rw [Token.shape, hend] at hspoken
    cases hspoken
  · rfl

lemma rest_skipSilence (s : Scanner) : ∃ front, s.rest = front ++ s.skipSilence.rest ∧
    ∀ d ∈ front, Lexeme.isInTag d = true := by
  fun_induction skipSilence s with
  | case1 s h => exact ⟨[], rfl, by simp⟩
  | case2 s c rest h l hl ih =>
    obtain ⟨front, hfront, hblank⟩ := Lexeme.blank_of_isSilent hl
    obtain ⟨front', hfront', hblank'⟩ := ih
    refine ⟨front ++ front', ?_, fun d hd => (List.mem_append.mp hd).elim (hblank d) (hblank' d)⟩
    rw [h, hfront, List.append_assoc, ← hfront']
    rfl
  | case3 s c rest h l hl => exact ⟨[], rfl, by simp⟩

lemma silent_end {t : Token} (h : t.kind = .endOfFile) : t.shape.isSpoken = false := by
  rw [Token.shape, h]
  rfl

lemma goesOn_accept {l : Lexeme} (hd : s.modes.head? = some .dialogue)
    (hspoken : l.kind.isSpoken = true) (hend : l.kind ≠ .endTag) :
    (s.accept l).2.modes.head? = some .dialogue := by
  obtain ⟨outer, houter⟩ := List.head?_eq_some_iff.mp hd
  have hkind := accept_kind (s := s) l
  change (modesAfter s.modes s.lineStart (s.accept l).1).1.head? = _
  have hgoesOn : (s.accept l).1.isDialogueEnd = false := by
    simp [Token.isDialogueEnd, hkind, hend]
  rw [houter, modesAfter, hgoesOn, hkind]
  split
  · rfl
  · next h =>
    rw [h] at hspoken
    cases hspoken
  · rfl

lemma next_dialogue (hd : s.modes.head? = some .dialogue) :
    s.next.1.shape.isSpoken = false ∨ ∃ c tail, s.skipSilence.rest = c :: tail ∧
      s.next = s.skipSilence.accept (Lexeme.dialogue s.lineStart c tail) ∧
      (Lexeme.dialogue s.lineStart c tail).isSilent = false ∧
      s.next.1.shape = ((Lexeme.dialogue s.lineStart c tail).kind,
        (Lexeme.dialogue s.lineStart c tail).value) := by
  obtain ⟨-, -, hline, hloud⟩ := skipSilence_keeps s
  cases hrest : s.skipSilence.rest with
  | nil =>
    refine .inl (silent_end ?_)
    simp [next, hd, hrest, accept_kind]
  | cons c tail =>
    have hnext : s.next = s.skipSilence.accept (Lexeme.dialogue s.lineStart c tail) := by
      simp [next, hd, hrest, hline]
    by_cases hend : (Lexeme.dialogue s.lineStart c tail).kind = .endOfFile
    · exact .inl (silent_end (by rw [hnext, accept_kind, hend]))
    · exact .inr ⟨c, tail, rfl, hnext, hloud c tail hrest, by rw [hnext, accept_shape hend]⟩

lemma voices_next (hd : s.modes.head? = some .dialogue) :
    Voices s.rest s.next.1.shape s.next.2.rest ∧ (s.next.1.shape.isSpoken = true →
      s.next.1.shape.1 ≠ .endTag → s.next.2.modes.head? = some .dialogue) := by
  obtain h | ⟨c, tail, hrest, hnext, hloud, hshape⟩ := next_dialogue hd
  · exact ⟨.silent h, fun hspoken => by simp [h] at hspoken⟩
  · obtain ⟨front, hfront, hblank⟩ := rest_skipSilence s
    rw [hrest] at hfront
    rw [hshape, hnext, accept_rest, hfront]
    exact ⟨(Lexeme.voices hloud).append hblank,
      goesOn_accept ((skipSilence_keeps s).2.1 ▸ hd)⟩

lemma isTag_next (hd : s.modes.head? ≠ some .dialogue) (h : s.next.1.shape.isSpoken = true) :
    IsTag s.next.1.shape := by
  refine isTag_of_genuine (step_next s).genuine ?_
  revert h
  unfold next
  simp only [beq_eq_false_iff_ne.mpr hd, Bool.false_eq_true, if_false]
  split
  · intro h
    cases h
  · next c tail hrest =>
    intro h
    have hkind := accept_kind (s := s.skipTrivia) (Lexeme.code s.skipTrivia.previous c tail)
    change (accept _ _).1.kind.isSpoken = true at h
    change (accept _ _).1.kind = _ ∨ (accept _ _).1.kind = _
    rw [hkind] at h ⊢
    rcases Lexeme.isSpoken_coded (Lexeme.coded s.skipTrivia.previous c tail) with hcode | ⟨-, hcode⟩
    · rw [hcode] at h
      cases h
    · simpa using hcode

lemma unended_heard (fuel : Nat) (s : Scanner) (hd : s.modes.head? = some .dialogue)
    (h : Unended s.rest) : Unended (speech (s.heard fuel)) := by
  induction fuel generalizing s with
  | zero => simp [heard, run, speech, Unended]
  | succ fuel ih =>
    rw [speech_heard]
    split
    swap
    · simp [Unended]
    next hspoken =>
    obtain ⟨hvoices, hgoesOn⟩ := voices_next hd
    cases hvoices with
    | silent hsilent => simp [hsilent] at hspoken
    | tag _ hended => exact (hended h).elim
    | plain before behind hkind hchars hblank _ =>
      rw [hchars, unended_append fun c hc => hblank c (List.mem_append_left _ hc)] at h
      exact h.change fun hrest => ih _ (hgoesOn hspoken hkind.2)
        ((unended_append fun c hc => hblank c (List.mem_append_right _ hc)).mp hrest)

lemma said_angle {lineStart : Bool} {tail : List Char}
    (hspoken : (Lexeme.dialogue lineStart '<' tail).kind.isSpoken = true) :
    ∃ more, said ((Lexeme.dialogue lineStart '<' tail).kind,
      (Lexeme.dialogue lineStart '<' tail).value) = '<' :: more := by
  have htext (hloud : (Lexeme.dialogueText lineStart '<' tail).isSilent = false) :
      ∃ more, said ((Lexeme.dialogueText lineStart '<' tail).kind,
        (Lexeme.dialogueText lineStart '<' tail).value) = '<' :: more := by
    have hkind : (Lexeme.dialogueText lineStart '<' tail).kind = .markupText := rfl
    rcases Lexeme.value_dialogueText lineStart '<' tail with
      hvalue | ⟨s, hvalue⟩
    · simp [Lexeme.isSilent, hkind, hvalue] at hloud
    obtain ⟨hne, before, behind, hchars, hblank⟩ := Lexeme.dialogueText_says hvalue
    obtain ⟨c, more, hs⟩ := List.exists_cons_of_ne_nil hne
    rw [hkind, hvalue]
    change ∃ more, s.toList = '<' :: more
    rcases before with _ | ⟨d, before⟩
    · rw [hs] at hchars ⊢
      exact ⟨more, by rw [(List.cons.inj hchars).1]⟩
    · rw [List.cons_append, List.cons.injEq] at hchars
      rw [← hchars.1] at hblank
      exact absurd (hblank '<' (by simp)) (by decide)
  have hloud := Lexeme.isSilent_angle lineStart tail
  revert hspoken hloud
  unfold Lexeme.dialogue
  simp only [show ('<' == '\n') = false from rfl, show ('<' == '\r') = false from rfl,
    show ('<' == '\x7b') = false from rfl, show ('<' == '[') = false from rfl, beq_self_eq_true,
    Bool.true_and, Bool.false_and, Bool.false_eq_true, if_false]
  split
  · cases h : Lexeme.tag ('<' :: tail) with
    | none => exact fun _ => htext
    | some l =>
      intro hspoken _
      have hgenuine := Lexeme.genuine_tag h
      have hkind := Lexeme.kind_tag h
      obtain ⟨kind, value, chars, rest, issue⟩ := l
      simp only [List.mem_cons, List.not_mem_nil, or_false] at hkind
      rcases hkind with rfl | rfl | rfl
      · obtain ⟨content, rfl, -⟩ := hgenuine
        exact ⟨_, rfl⟩
      · obtain ⟨content, rfl, -⟩ := hgenuine
        exact ⟨_, rfl⟩
      · cases hspoken
  · exact fun _ => htext

lemma head_heard (fuel : Nat) (hd : s.modes.head? = some .dialogue) (h : Lexeme.Stopped s.rest) :
    ∀ c ∈ (speech (s.heard fuel)).head?, c = '\n' ∨ c = '<' := by
  cases fuel with
  | zero => simp [heard, run, speech]
  | succ fuel =>
    rw [speech_heard]
    split
    swap
    · simp
    next hspoken =>
    obtain hsilent | ⟨c, tail, hrest, -, hloud, hshape⟩ := next_dialogue hd
    · simp [hsilent] at hspoken
    obtain ⟨front, hfront, hinside⟩ := rest_skipSilence s
    rw [hrest] at hfront
    rw [hshape] at hspoken ⊢
    -- what is passed over can stand in a tag, so a character that cannot is the next one
    have hfirst {front more : List Char} {d : Char} (hmore : d :: more = front ++ c :: tail)
        (hinside : ∀ e ∈ front, Lexeme.isInTag e = true) (hd : Lexeme.isInTag d = false) :
        d = c := by
      rcases front with _ | ⟨e, front⟩
      · exact (List.cons.inj hmore).1
      · rw [← (List.cons.inj hmore).1] at hinside
        simp [hd] at hinside
    generalize hs : s.rest = cs at h hfront
    cases h with
    | done => simp at hfront
    | lineBreak more =>
      obtain rfl := hfirst hfront hinside (by decide)
      rintro d ⟨⟩
      exact .inl rfl
    | carriageReturn more =>
      rcases front with _ | ⟨e, front⟩
      · obtain ⟨rfl, -⟩ := List.cons.inj hfront
        cases hloud
      · obtain rfl := hfirst (List.cons.inj hfront).2
          (fun e he => hinside e (List.mem_cons_of_mem _ he)) (by decide)
        rintro d ⟨⟩
        exact .inl rfl
    | code more =>
      obtain rfl := hfirst hfront hinside (by decide)
      cases hspoken
    | angle more =>
      rw [skipSilence_of_head (e := '<') (by rw [hs]; rfl) (.inr rfl), hs] at hrest
      obtain ⟨rfl, rfl⟩ := List.cons.inj hrest
      obtain ⟨more, hmore⟩ := said_angle hspoken
      rw [hmore]
      rintro d ⟨⟩
      exact .inr rfl

lemma looksLikeTag_of_head {y x b : List Char} (hx : ∀ c ∈ x.head?, c = '\n' ∨ c = '<')
    (h : Lexeme.looksLikeTag ('<' :: (y ++ x)) = true) :
    Lexeme.looksLikeTag ('<' :: (y ++ b)) = true := by
  have hletter : ∀ c ∈ x.head?, Text.isAlphabetic c = false ∧ c ≠ '/' := by
    intro c hc
    rcases hx c hc with rfl | rfl <;> decide +kernel
  rcases y with _ | ⟨c, _ | ⟨d, y⟩⟩
  · cases x with
    | nil => cases h
    | cons c x =>
      obtain ⟨hc, hslash⟩ := hletter c rfl
      simp [Lexeme.looksLikeTag, hc, hslash] at h
  · by_cases hc : c = '/'
    · subst hc
      cases x with
      | nil => cases h
      | cons d x => simp [Lexeme.looksLikeTag, (hletter d rfl).1] at h
    · simpa [Lexeme.looksLikeTag, hc] using h
  · exact (looksLikeTag_congr ..).trans h

lemma shut_isTag {t : Shape} {b : List Char} (h : IsTag t) (hb : Shut b) :
    Shut (said t ++ b) := by
  obtain ⟨kind, value⟩ := t
  obtain ⟨hkind, content, hvalue, hfits⟩ := h
  dsimp only at hkind hvalue
  subst hvalue
  have hbracket : '>' ∉ content.toList := fun hmem => (hfits.2 _ hmem).1 rfl
  rcases hkind with rfl | rfl
  · simpa [said] using Markup.shut_tag hbracket hfits.1.2 hb
  · have hlast : ∀ c ∈ ('/' :: content.toList).getLast?, Text.isBlank c = false := by
      rw [List.getLast?_cons]
      cases hcontent : content.toList.getLast? with
      | none => simp; decide
      | some c => simpa using hfits.1.2 c hcontent
    simpa [said] using Markup.shut_tag (a := '/' :: content.toList) (by simpa using hbracket) hlast hb

lemma shut_heard (fuel : Nat) (s : Scanner) : Shut (speech (s.heard fuel)) := by
  induction fuel generalizing s with
  | zero => simp [heard, run, speech, Shut]
  | succ fuel ih =>
    rw [speech_heard]
    split
    swap
    · simp [Shut]
    next hspoken =>
    by_cases hd : s.modes.head? = some .dialogue
    swap
    · exact shut_isTag (isTag_next hd hspoken) (ih _)
    obtain ⟨hvoices, hgoesOn⟩ := voices_next hd
    cases hvoices with
    | silent hsilent => simp [hsilent] at hspoken
    | tag htag _ => exact shut_isTag htag (ih _)
    | plain before behind hkind _ hblank hangle =>
      have hdialogue := hgoesOn hspoken hkind.2
      refine Markup.shut_append (ih _) fun x y hxy hlooks => ?_
      obtain ⟨hstop, hunended⟩ := hangle x y hxy
      have hrest := hunended (looksLikeTag_of_head (head_heard fuel hdialogue hstop) hlooks)
      exact (hrest.change fun hrest => unended_heard fuel _ hdialogue ((unended_append fun c hc =>
        hblank c (List.mem_append_right _ hc)).mp hrest)).closed

lemma heard_suffix (fuel : Nat) (s : Scanner) {u : List Shape} (hu : u <:+ s.heard fuel) :
    ∃ fuel' s', u = heard fuel' s' := by
  induction fuel generalizing s with
  | zero => exact ⟨0, s, by simpa [heard, run] using hu⟩
  | succ fuel ih =>
    rw [heard_succ, List.suffix_cons_iff] at hu
    rcases hu with rfl | hu
    · exact ⟨fuel + 1, s, (heard_succ fuel s).symm⟩
    · split at hu
      · exact ⟨0, s, by simpa [heard, run] using hu⟩
      · exact ih s.next.2 hu

theorem lawful_shapes (source : String) : Lawful (shapes source) := by
  obtain ⟨hgenuine, hfollows⟩ := genuine_shapes source
  refine ⟨hgenuine, hfollows, fun u hu => ?_⟩
  rw [shapes_eq_run] at hu
  obtain ⟨fuel, s, rfl⟩ := heard_suffix _ _ hu
  exact shut_heard fuel s

end Scanner

end Stagecraft
