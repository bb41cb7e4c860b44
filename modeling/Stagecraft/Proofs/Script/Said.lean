import Stagecraft.Proofs.Script.Numerals

namespace Stagecraft

open Shape

def Says (lineStart lineStart' : Bool) (text : List Char) (ss : List Shape) : Prop :=
  ∀ ⦃outer rest ss'⦄, Scans (.dialogue outer lineStart') rest ss' →
    Scans (.dialogue outer lineStart) (text ++ rest) (ss ++ ss')

structure IsSaid (s : Shape) : Prop where
  kind : s.1 ∈ [.startTag, .endTag, .markupText, .dialogueIdentifier]
  text : ∃ content, s.2 = .text content
  goesOn : s.token.isDialogueEnd = false

section Says

variable {a b c : Bool} {text text' : List Char} {ss ss' : List Shape}

lemma Says.append (h : Says a b text ss) (h' : Says b c text' ss') :
    Says a c (text ++ text') (ss ++ ss') := by
  intro outer rest more hmore
  rw [List.append_assoc, List.append_assoc]
  exact h (h' hmore)

end Says

section After

variable {outer : List Mode} {lineStart : Bool} {s : Shape}

lemma after_said (lineStart : Bool) (h : IsSaid s) :
    (Point.dialogue outer lineStart).after s = .dialogue outer false := by
  have hmodes : Scanner.modesAfter (.dialogue :: outer) lineStart s.token =
      (.dialogue :: outer, false) := by
    have hkind := h.kind
    simp only [List.mem_cons, List.not_mem_nil, or_false] at hkind
    rcases hkind with hkind | hkind | hkind | hkind <;>
      simp [Scanner.modesAfter, hkind, h.goesOn]
  rw [Point.after]
  simp only [Point.modes, Point.lineStart, hmodes]
  rfl

end After

namespace Lexeme

def isInTag (c : Char) : Bool :=
  c != '>' && !endsTagSearch c

def tagOf (inside rest : List Char) : Lexeme :=
  let (kind, inner) := match inside with
    | '/' :: inner => (TokenKind.endTag, inner)
    | inner => (TokenKind.startTag, inner)
  { kind, value := .text (String.ofList (Text.trimEnd (Text.trimStart inner))),
    chars := '<' :: (inside ++ ['>']), rest }

lemma tag_of_first {c d : Char} {a b : List Char} (ha : ∀ c ∈ a, isInTag c = true)
    (hd : isInTag d = false) :
    tag (c :: (a ++ d :: b)) = if d = '>' then some (tagOf a b) else none := by
  have htake : (a ++ d :: b).takeWhile (fun c => c != '>' && !endsTagSearch c) = a :=
    Text.takeWhile_first ha hd
  unfold tag
  simp only [List.drop_one, List.tail_cons, htake, List.drop_left]
  by_cases h : d = '>'
  · subst h
    rfl
  · rw [if_neg h]
    split <;> simp_all

lemma tag_before_break (c : Char) (tail : List Char) :
    (∃ inside after, tail = inside ++ '>' :: after ∧ ∀ rest,
      tag (c :: (tail ++ rest)) = some (tagOf inside (after ++ rest))) ∨
    ∀ rest, tag (c :: (tail ++ '\n' :: rest)) = none := by
  obtain hall | ⟨a, d, b, rfl, ha, hd⟩ := Text.split_first isInTag tail
  · exact .inr fun rest => tag_of_first hall rfl
  · by_cases h : d = '>'
    · subst h
      refine .inl ⟨a, b, rfl, fun rest => ?_⟩
      rw [List.append_assoc, List.cons_append, tag_of_first ha hd, if_pos rfl]
    · refine .inr fun rest => ?_
      rw [List.append_assoc, List.cons_append, tag_of_first ha hd, if_neg h]

lemma dialogueName_of_first {c : Char} {a b : List Char} (ha : ∀ c ∈ a, (c != ']') = true) :
    dialogueName (c :: (a ++ ']' :: b)) = if a ≠ [] ∧ a.all isNameChar = true then
      some { kind := .dialogueIdentifier, value := .text (String.ofList a),
             chars := '[' :: (a ++ [']']), rest := b }
      else none := by
  have htake : (a ++ ']' :: b).takeWhile (· != ']') = a := Text.takeWhile_first ha rfl
  unfold dialogueName
  simp only [List.drop_one, List.tail_cons, htake, List.drop_left]
  by_cases hname : a ≠ [] ∧ a.all isNameChar = true
  · rw [if_neg (by simp [hname]), if_pos hname]
  · rw [if_neg hname, if_pos]
    simpa [imp_iff_or_not, or_comm] using hname

lemma dialogueName_before_break (c : Char) (tail : List Char) :
    (∃ name after, tail = name ++ ']' :: after ∧ name ≠ [] ∧ ∀ rest,
      dialogueName (c :: (tail ++ rest)) =
        some { kind := .dialogueIdentifier, value := .text (String.ofList name),
               chars := '[' :: (name ++ [']']), rest := after ++ rest }) ∨
    ∀ rest, dialogueName (c :: (tail ++ '\n' :: rest)) = none := by
  obtain hall | ⟨a, d, b, rfl, ha, hd⟩ := Text.split_first (· != ']') tail
  · -- the name would have to go on over the break
    refine .inr fun rest => ?_
    have hname : ((tail ++ '\n' :: rest).takeWhile (· != ']')).all isNameChar = false := by
      rw [List.takeWhile_append_of_pos hall, List.takeWhile_cons_of_pos (by rfl), List.all_append]
      simp [show isNameChar '\n' = false by decide]
    simp [dialogueName, hname]
  · obtain rfl : d = ']' := by simpa using hd
    by_cases hname : a ≠ [] ∧ a.all isNameChar = true
    · refine .inl ⟨a, b, rfl, hname.1, fun rest => ?_⟩
      rw [List.append_assoc, List.cons_append, dialogueName_of_first ha, if_pos hname]
    · refine .inr fun rest => ?_
      rw [List.append_assoc, List.cons_append, dialogueName_of_first ha, if_neg hname]

lemma looksLikeTag_before_break (c : Char) (cs rest : List Char) :
    looksLikeTag (c :: (cs ++ '\n' :: rest)) = looksLikeTag (c :: cs) := by
  match cs with
  | [] => rfl
  | [d] =>
    by_cases hd : d = '/'
    · subst hd
      rfl
    · simp [looksLikeTag, hd]
  | d :: e :: cs => by_cases hd : d = '/' <;> simp [looksLikeTag, hd]

lemma textLength_before_break (cs : List Char) (hbrace : '\x7b' ∉ cs)
    (hreturn : ∀ a b, cs = a ++ '\r' :: b → b ≠ [] ∧ b.head? ≠ some '\n') :
    ∃ a b, cs = a ++ b ∧ '\n' ∉ a ∧ (b = [] ∨ ∃ tail, b = '\n' :: tail ∨ b = '<' :: tail) ∧
      ∀ n rest, textLength n (cs ++ '\n' :: rest) = n + a.length := by
  induction cs with
  | nil => exact ⟨[], [], rfl, by simp, .inl rfl, fun n rest => rfl⟩
  | cons c cs ih =>
    rw [List.mem_cons, not_or] at hbrace
    by_cases hstop : c = '\n' ∨ (c = '<' ∧ looksLikeTag (c :: cs) = true)
    · refine ⟨[], c :: cs, rfl, by simp, .inr ⟨cs, hstop.imp (by rintro rfl; rfl) ?_⟩,
        fun n rest => ?_⟩
      · rintro ⟨rfl, -⟩
        rfl
      · rw [List.cons_append, textLength]
        rcases hstop with rfl | ⟨rfl, hlooks⟩
        · rfl
        · simp [looksLikeTag_before_break, hlooks]
    · rw [not_or, not_and, Bool.not_eq_true] at hstop
      obtain ⟨a, b, rfl, ha, hb, hlength⟩ :=
        ih hbrace.2 fun a b h => hreturn (c :: a) b (by rw [h, List.cons_append])
      refine ⟨c :: a, b, rfl, by simp [ha, Ne.symm hstop.1], hb, fun n rest => ?_⟩
      have hcr : (c == '\r' && (a ++ b ++ '\n' :: rest).head? == some '\n') = false := by
        rw [Bool.and_eq_false_imp, beq_iff_eq]
        rintro rfl
        obtain ⟨hne, hhead⟩ := hreturn [] (a ++ b) rfl
        obtain ⟨d, tail, hd⟩ := List.exists_cons_of_ne_nil hne
        rw [hd] at hhead ⊢
        simpa using hhead
      have htag : (c == '<' && looksLikeTag (c :: (a ++ b ++ '\n' :: rest))) = false := by
        rw [Bool.and_eq_false_imp, beq_iff_eq, looksLikeTag_before_break]
        exact hstop.2
      rw [List.cons_append, textLength, if_neg (by simp [hstop.1, Ne.symm hbrace.1]), hcr, htag,
        if_neg Bool.false_ne_true, if_neg Bool.false_ne_true, hlength, List.length_cons]
      omega

lemma dialogueText_of_length {lineStart : Bool} {c : Char} {a b rest : List Char}
    (hlength : textLength 0 (a ++ b ++ '\n' :: rest) = a.length)
    (hstart : lineStart = true → Text.isBlank c = false)
    (hend : b.head? ≠ some '<' → ∀ d ∈ (c :: a).getLast?, Text.isBlank d = false) :
    dialogueText lineStart c (a ++ b ++ '\n' :: rest) =
      { kind := .markupText, value := .text (String.ofList (c :: a)), chars := c :: a,
        rest := b ++ '\n' :: rest } := by
  have htake : (a ++ b ++ '\n' :: rest).take a.length = a := by simp
  have hdrop : (a ++ b ++ '\n' :: rest).drop a.length = b ++ '\n' :: rest := by simp
  have hfirst : (if lineStart = true then Text.trimStart (c :: a) else c :: a) = c :: a := by
    split
    · next h => simp [Text.trimStart, hstart h]
    · rfl
  by_cases hb : b.head? = some '<'
  · obtain ⟨tail, rfl⟩ := List.head?_eq_some_iff.mp hb
    simp only [dialogueText, hlength, htake, hdrop, hfirst]
    rfl
  · have htrim := Text.trimEnd_of_getLast (hend hb)
    simp only [dialogueText, hlength, htake, hdrop, hfirst, htrim]
    split <;> rfl

end Lexeme

structure Flows (lineStart : Bool) (cs : List Char) : Prop where
  brace : '\x7b' ∉ cs
  abut : cs.IsChain Abut
  first : ∀ c ∈ cs.head?, c ≠ '\r' ∧ (lineStart = true → c = '\n' ∨ Text.isBlank c = false)
  last : ∀ c ∈ cs.getLast?, Text.isBlank c = false
  tags : ∀ tail, '<' :: tail <:+ cs → Lexeme.looksLikeTag ('<' :: tail) = true →
    ∀ l, Lexeme.tag ('<' :: tail) = some l → l.kind ≠ .endOfFile →
      said (l.kind, l.value) = l.chars ∧ (token (l.kind, l.value)).isDialogueEnd = false

lemma Steady.flows {cs : List Char} (h : Steady cs) : Flows true cs := by
  refine ⟨h.brace, h.abut, fun c hc => ⟨?_, fun _ => .inr (h.trimmed.1 c hc)⟩, h.trimmed.2, h.tags⟩
  rintro rfl
  exact absurd (h.trimmed.1 _ hc) (by decide)

section Flows

variable {lineStart : Bool}

lemma Flows.suffix {lineStart' : Bool} {a b : List Char} (h : Flows lineStart (a ++ b))
    (hfirst : ∀ c ∈ b.head?, c ≠ '\r' ∧ (lineStart' = true → c = '\n' ∨ Text.isBlank c = false)) :
    Flows lineStart' b := by
  refine ⟨fun hb => h.brace (List.mem_append_right _ hb), (List.isChain_append.mp h.abut).2.1,
    hfirst, fun c hc => h.last c ?_, fun tail htail => h.tags tail (htail.trans ⟨a, rfl⟩)⟩
  rw [List.getLast?_append, Option.mem_def.mp hc]
  rfl

lemma Flows.abut_of {a b : List Char} {c d : Char} (h : Flows lineStart (a ++ c :: d :: b)) :
    Abut c d :=
  (List.isChain_cons_cons.mp (List.isChain_append.mp h.abut).2.1).1

lemma Flows.not_return {a b : List Char} (h : Flows lineStart (a ++ '\r' :: b)) :
    b ≠ [] ∧ b.head? ≠ some '\n' := by
  refine ⟨?_, fun hhead => ?_⟩
  · rintro rfl
    exact absurd (h.last '\r' (by simp)) (by decide)
  · obtain ⟨tail, rfl⟩ := List.head?_eq_some_iff.mp hhead
    exact absurd (h.abut_of.1 rfl) (by decide)

lemma Flows.after_bracket {a b : List Char} {c : Char} (h : Flows lineStart (a ++ c :: b))
    (hc : c = '>' ∨ c = ']') : Flows false b := by
  rw [List.append_cons] at h
  refine h.suffix fun d hd => ⟨?_, fun h => absurd h Bool.false_ne_true⟩
  obtain ⟨tail, rfl⟩ := List.head?_eq_some_iff.mp (Option.mem_def.mp hd)
  rw [List.append_assoc] at h
  exact h.abut_of.2.2 hc

lemma says_cons {c : Char} {tail after : List Char} {s : Shape} {ss : List Shape} (hs : IsSaid s)
    (hl : ∀ rest, ∃ chars, Lexeme.dialogue lineStart c (tail ++ '\n' :: rest) =
      { kind := s.1, value := s.2, chars, rest := after ++ '\n' :: rest })
    (hlength : after.length ≤ tail.length) (h : Says false true (after ++ ['\n']) ss) :
    Says lineStart true (c :: tail ++ ['\n']) (s :: ss) := by
  intro outer rest more hmore
  obtain ⟨chars, hlexeme⟩ := hl rest
  have hnext := h hmore
  rw [← after_said lineStart hs] at hnext
  rw [List.append_assoc, List.cons_append]
  obtain ⟨content, hcontent⟩ := hs.text
  refine .said hlexeme ?_ ?_ rfl (by simpa using hlength) (fun _ => ⟨content, hcontent⟩)
    (by simpa using hnext)
  · intro hend
    have hkind := hs.kind
    rw [show s.1 = .endOfFile from hend] at hkind
    exact absurd hkind (by decide)
  · simp [Lexeme.isSilent, hcontent]

lemma says_newline : Says lineStart true ['\n'] [mark .markupLineBreak] := by
  intro outer rest ss hss
  have hl : Lexeme.dialogue lineStart '\n' rest =
      { kind := .markupLineBreak, chars := ['\n'], rest } := rfl
  exact .said hl (by simp) rfl rfl (Nat.le_refl _) (by simp) hss

def Opens (lineStart : Bool) (c : Char) (tail : List Char) : Prop :=
  ∃ s after, IsSaid s ∧ c :: tail = said s ++ after ∧ after.length ≤ tail.length ∧
    Flows false after ∧ (s.1 = .dialogueIdentifier → startsName (c :: tail) = true) ∧
    ∀ rest, ∃ chars, Lexeme.dialogue lineStart c (tail ++ '\n' :: rest) =
      { kind := s.1, value := s.2, chars, rest := after ++ '\n' :: rest }

section Opens

variable {c : Char} {tail : List Char} (h : Flows lineStart (c :: tail))
include h

lemma Flows.not_special (hc : c ≠ '\n') :
    c ≠ '\r' ∧ c ≠ '\x7b' ∧ (lineStart = true → Text.isBlank c = false) := by
  obtain ⟨hreturn, hblank⟩ := h.first c rfl
  exact ⟨hreturn, fun hbrace => h.brace (hbrace ▸ List.mem_cons_self),
    fun hstart => (hblank hstart).resolve_left hc⟩

lemma opens_text (hc : c ≠ '\n') (hl : ∀ rest, Lexeme.dialogue lineStart c (tail ++ '\n' :: rest) =
    Lexeme.dialogueText lineStart c (tail ++ '\n' :: rest)) : Opens lineStart c tail := by
  obtain ⟨-, -, hblank⟩ := h.not_special hc
  obtain ⟨a, b, rfl, ha, hb, hlength⟩ := Lexeme.textLength_before_break tail
    (fun hbrace => h.brace (List.mem_cons_of_mem _ hbrace))
    fun a b htail => Flows.not_return (a := c :: a) (by rwa [List.cons_append, ← htail])
  refine ⟨(.markupText, .text (String.ofList (c :: a))), b, ⟨by simp, ⟨_, rfl⟩, rfl⟩,
    by simp [said], by simp, ?_, by simp, fun rest => ⟨c :: a, ?_⟩⟩
  · refine Flows.suffix (a := c :: a) h fun d hd => ⟨?_, fun h => absurd h Bool.false_ne_true⟩
    rintro rfl
    rcases hb with rfl | ⟨tail, rfl | rfl⟩ <;> cases hd
  · rw [hl]
    refine Lexeme.dialogueText_of_length (by rw [hlength, Nat.zero_add]) hblank fun hhead d hd => ?_
    obtain ⟨init, hinit⟩ := List.getLast?_eq_some_iff.mp (Option.mem_def.mp hd)
    rcases hb with rfl | ⟨tail, rfl | rfl⟩
    · exact h.last d (by rwa [List.append_nil])
    · have hne : d ≠ '\n' := by
        rintro rfl
        have hmem : '\n' ∈ c :: a := hinit ▸ List.mem_concat_self
        exact (List.mem_cons.mp hmem).elim (fun hn => hc hn.symm) ha
      have habut : Abut d '\n' := by
        rw [← List.cons_append, hinit, List.append_assoc] at h
        exact h.abut_of
      exact (habut.1 rfl).resolve_left hne
    · exact absurd rfl hhead

lemma opens_tag {inside after : List Char} (hc : c = '<')
    (hlooks : Lexeme.looksLikeTag (c :: tail) = true) (htail : tail = inside ++ '>' :: after)
    (htag : ∀ rest, Lexeme.tag (c :: (tail ++ rest)) = some (Lexeme.tagOf inside (after ++ rest)))
    (hl : ∀ rest, Lexeme.dialogue lineStart c (tail ++ '\n' :: rest) =
      Lexeme.tagOf inside (after ++ '\n' :: rest)) : Opens lineStart c tail := by
  subst hc
  have halone := htag []
  rw [List.append_nil, List.append_nil] at halone
  have hkind (rest : List Char) : (Lexeme.tagOf inside rest).kind = .startTag ∨
      (Lexeme.tagOf inside rest).kind = .endTag := by
    rcases inside with _ | ⟨d, inside⟩
    · exact .inl rfl
    · by_cases hd : d = '/'
      · exact .inr (by subst hd; rfl)
      · exact .inl (by simp [Lexeme.tagOf, hd])
  obtain ⟨hsaid, hend⟩ := h.tags _ (List.suffix_refl _) hlooks _ halone (by
    rcases hkind after with hk | hk <;> simp [hk])
  have hchars : said ((Lexeme.tagOf inside after).kind, (Lexeme.tagOf inside after).value) =
      '<' :: (inside ++ ['>']) := hsaid
  refine ⟨((Lexeme.tagOf inside after).kind, (Lexeme.tagOf inside after).value), after,
    ⟨?_, ⟨_, rfl⟩, hend⟩, ?_, ?_, ?_, ?_, fun rest => ⟨'<' :: (inside ++ ['>']), ?_⟩⟩
  · rcases hkind after with hk | hk <;> simp [hk]
  · rw [hchars, htail]
    simp
  · simp only [htail, List.length_append, List.length_cons]
    omega
  · subst htail
    exact Flows.after_bracket (a := '<' :: inside) h (.inl rfl)
  · rcases hkind after with hk | hk <;> simp [hk]
  · rw [hl]
    rfl

lemma opens_name {name after : List Char} (hc : c = '[') (htail : tail = name ++ ']' :: after)
    (hname : (Lexeme.dialogueName (c :: tail)).isSome = true)
    (hl : ∀ rest, Lexeme.dialogue lineStart c (tail ++ '\n' :: rest) =
      { kind := .dialogueIdentifier, value := .text (String.ofList name),
        chars := '[' :: (name ++ [']']), rest := after ++ '\n' :: rest }) :
    Opens lineStart c tail := by
  refine ⟨(.dialogueIdentifier, .text (String.ofList name)), after, ⟨by simp, ⟨_, rfl⟩, rfl⟩,
    by simp [said, hc, htail], by simp [htail]; omega, ?_, ?_,
    fun rest => ⟨_, hl rest⟩⟩
  rotate_left
  · subst hc
    simp [startsName, hname]
  subst htail
  exact Flows.after_bracket (a := c :: name) h (.inr rfl)

theorem Flows.opens (hc : c ≠ '\n') : Opens lineStart c tail := by
  obtain ⟨hreturn, hbrace, -⟩ := h.not_special hc
  have hlexeme (rest : List Char) : Lexeme.dialogue lineStart c (tail ++ '\n' :: rest) =
      (if c == '<' && Lexeme.looksLikeTag (c :: tail) then
        Lexeme.tag (c :: (tail ++ '\n' :: rest))
      else if c == '[' && lineStart then Lexeme.dialogueName (c :: (tail ++ '\n' :: rest))
      else none).getD (Lexeme.dialogueText lineStart c (tail ++ '\n' :: rest)) := by
    simp only [Lexeme.dialogue, beq_eq_false_iff_ne.mpr hc, beq_eq_false_iff_ne.mpr hreturn,
      beq_eq_false_iff_ne.mpr hbrace, Bool.false_eq_true, if_false,
      Lexeme.looksLikeTag_before_break]
  by_cases htag : (c == '<' && Lexeme.looksLikeTag (c :: tail)) = true
  · simp only [htag, if_true] at hlexeme
    obtain ⟨inside, after, htail, hsome⟩ | hnone := Lexeme.tag_before_break c tail
    · rw [Bool.and_eq_true, beq_iff_eq] at htag
      exact opens_tag h htag.1 htag.2 htail hsome
        fun rest => by rw [hlexeme, hsome]; rfl
    · exact opens_text h hc fun rest => by rw [hlexeme, hnone]; rfl
  · by_cases hname : (c == '[' && lineStart) = true
    · simp only [htag, hname, if_true, Bool.false_eq_true, if_false] at hlexeme
      obtain ⟨name, after, htail, -, hsome⟩ | hnone := Lexeme.dialogueName_before_break c tail
      · have halone := hsome []
        rw [List.append_nil] at halone
        exact opens_name h (by simpa using (Bool.and_eq_true_iff.mp hname).1) htail
          (by rw [halone]; rfl) fun rest => by rw [hlexeme, hsome]; rfl
      · exact opens_text h hc fun rest => by rw [hlexeme, hnone]; rfl
    · simp only [htag, hname, Bool.false_eq_true, if_false] at hlexeme
      exact opens_text h hc fun rest => by rw [hlexeme]; rfl

end Opens

end Flows

theorem Flows.speaks {lineStart : Bool} {cs : List Char} (h : Flows lineStart cs) :
    ∃ ss, Says lineStart true (cs ++ ['\n']) ss ∧ ss.flatMap said = cs ++ ['\n'] ∧
      (∀ s ∈ ss, s = mark .markupLineBreak ∨ IsSaid s) ∧ ∀ s ∈ ss.head?, ∀ c ∈ cs.head?, c ≠ '\n' →
        s.1 ≠ .markupLineBreak ∧ (s.1 = .dialogueIdentifier → startsName cs = true) := by
  match cs with
  | [] => exact ⟨[mark .markupLineBreak], says_newline, rfl, by simp, by simp⟩
  | c :: tail =>
    by_cases hc : c = '\n'
    · subst hc
      have htail : Flows true tail := by
        refine Flows.suffix (a := ['\n']) h fun d hd => ?_
        obtain ⟨rest, rfl⟩ := List.head?_eq_some_iff.mp (Option.mem_def.mp hd)
        have hd := (Flows.abut_of (a := []) h).2.1 rfl
        refine ⟨?_, fun _ => hd⟩
        rintro rfl
        exact absurd hd (by decide)
      obtain ⟨ss, hss, htext, hall, -⟩ := htail.speaks
      exact ⟨mark .markupLineBreak :: ss, says_newline.append hss, by simp [htext, said],
        List.forall_mem_cons.mpr ⟨.inl rfl, hall⟩, by simp⟩
    · obtain ⟨s, after, hs, htext, hlength, hflows, hname, hl⟩ := h.opens hc
      obtain ⟨ss, hss, htext', hall, -⟩ := hflows.speaks
      refine ⟨s :: ss, says_cons hs hl hlength hss, by simp [htext, htext'],
        List.forall_mem_cons.mpr ⟨.inr hs, hall⟩, ?_⟩
      rintro s' ⟨⟩ c' - -
      refine ⟨fun hbreak => ?_, hname⟩
      have hkind := hs.kind
      rw [hbreak] at hkind
      exact absurd hkind (by decide)
termination_by cs.length

section Ends

variable {modes outer : List Mode} {lineStart : Bool} {box : String}

lemma trimmed_boxTag (h : FitsTag box) : Text.IsTrimmed (boxTag box).toList := by
  unfold boxTag
  have hletter : Text.isBlank 'P' = false ∧ Text.isBlank 'E' = false := by decide
  split
  · exact ⟨by simp [hletter], by simp [hletter]⟩
  · next hbox =>
    rw [String.toList_append]
    obtain ⟨c, tail, hc⟩ := List.exists_cons_of_ne_nil (l := box.toList) (by simpa using hbox)
    refine ⟨by simp [hletter], fun d hd => h.1.2 d ?_⟩
    simpa [hc] using hd

lemma inTag_boxTag (h : FitsTag box) : ∀ c ∈ (boxTag box).toList, Lexeme.isInTag c = true := by
  have hword : Lexeme.isInTag 'P' = true ∧ Lexeme.isInTag 'R' = true ∧
      Lexeme.isInTag 'E' = true ∧ Lexeme.isInTag ' ' = true := by decide
  unfold boxTag
  split
  · simp [hword]
  · intro c hc
    rw [String.toList_append, List.mem_append] at hc
    rcases hc with hc | hc
    · have hall : ∀ c ∈ "PRE ".toList, Lexeme.isInTag c = true := by simp [hword]
      exact hall c hc
    · obtain ⟨hclose, hsearch⟩ := h.2 c hc
      simp [Lexeme.isInTag, hclose, hsearch]

lemma boxTag_cons (box : String) : ∃ tail, (boxTag box).toList = 'P' :: tail := by
  unfold boxTag
  split
  · exact ⟨_, rfl⟩
  · exact ⟨_, by rw [String.toList_append]; rfl⟩

lemma isDialogueStart_boxTag (box : String) :
    (token (.startTag, .text (boxTag box))).isDialogueStart = true := by
  have hname : Token.firstWord? (boxTag box) = some "PRE" := by
    unfold boxTag
    split
    · rfl
    · simp [Token.firstWord?, String.toList_append, Text.trimStart,
        show Text.isBlank 'P' = false by decide, show Text.isBlank 'R' = false by decide,
        show Text.isBlank 'E' = false by decide, show Text.isBlank ' ' = true by decide]
  simp [Token.isDialogueStart, Token.namesDialogue, Token.tagName?, Token.content, Shape.token,
    hname, Token.sameIgnoringCase]

lemma after_boxTag (hm : IsCode modes) :
    (Point.code modes true).after (.startTag, .text (boxTag box)) = .dialogue modes true := by
  have hstart := isDialogueStart_boxTag box
  unfold IsCode at hm
  split at hm
  · simp [Point.after, Point.modes, Scanner.modesAfter, hstart, Point.of]
  · simp [Point.after, Point.modes, Scanner.modesAfter, hstart, Point.of]
  · exact hm.elim

lemma scans_opening {rest : List Char} {ss : List Shape} (hm : IsCode modes) (hbox : FitsTag box)
    (h : Scans (.dialogue modes true) rest ss) :
    Scans (.code modes true) ('<' :: ((boxTag box).toList ++ '>' :: rest))
      ((.startTag, .text (boxTag box)) :: ss) := by
  obtain ⟨tail, htail⟩ := boxTag_cons box
  have htag : Lexeme.tagOf (boxTag box).toList rest =
      { kind := .startTag, value := .text (boxTag box),
        chars := '<' :: ((boxTag box).toList ++ ['>']), rest } := by
    have htrim := Text.trim_of_isTrimmed (trimmed_boxTag hbox)
    have htext : String.ofList ('P' :: tail) = boxTag box := by rw [← htail, String.ofList_toList]
    rw [htail] at htrim ⊢
    simp [Lexeme.tagOf, htrim, htext]
  have hfirst : Lexeme.tag ('<' :: ((boxTag box).toList ++ '>' :: rest)) =
      some (Lexeme.tagOf (boxTag box).toList rest) := by
    rw [Lexeme.tag_of_first (inTag_boxTag hbox) rfl, if_pos rfl]
  rw [htag] at hfirst
  refine .tag hm ?_ (by simp; omega) hfirst (after_boxTag hm ▸ h)
  rw [htail]
  rfl

lemma scans_closing {rest : List Char} {ss : List Shape} (hm : IsCode outer)
    (h : Scans (.code outer true) rest ss) :
    Scans (.dialogue outer lineStart) ("</PRE>".toList ++ rest) ((.endTag, .text "PRE") :: ss) := by
  have hafter : (Point.dialogue outer lineStart).after (.endTag, .text "PRE") =
      .code outer true := by
    have hend : (token (.endTag, .text "PRE")).isDialogueEnd = true := by decide
    unfold IsCode at hm
    split at hm
    · simp [Point.after, Point.modes, Scanner.modesAfter, hend, Point.of, Lexeme.endsOperand]
    · simp [Point.after, Point.modes, Scanner.modesAfter, hend, Point.of, Lexeme.endsOperand]
    · exact hm.elim
  have htag : Lexeme.dialogue lineStart '<' ("/PRE>".toList ++ rest) =
      { kind := .endTag, value := .text "PRE", chars := "</PRE>".toList, rest } := by
    cases lineStart <;> rfl
  exact .said htag (by simp) rfl rfl (by simp; omega) (fun _ => ⟨"PRE", rfl⟩) (hafter ▸ h)

end Ends

theorem Steady.speaks {text : String} (h : Steady text.toList) :
    Says true true (text.toList ++ ['\n']) (Scanner.textShapes text) ∧
      (Scanner.textShapes text).flatMap said = text.toList ++ ['\n'] ∧
      (∀ s ∈ Scanner.textShapes text, s = mark .markupLineBreak ∨ IsSaid s) ∧
      ∀ s ∈ (Scanner.textShapes text).head?, s.1 ≠ .markupLineBreak ∧
        (s.1 = .dialogueIdentifier → startsName text.toList = true) := by
  obtain ⟨ss, hss, htext, hall, hfirst⟩ := h.flows.speaks
  have hscans : Scans .start ("<PRE>\n" ++ text ++ "\n</PRE>").toList
      ((.startTag, .text "PRE") :: mark .markupLineBreak :: (ss ++ [(.endTag, .text "PRE")])) := by
    have hclose : Scans (.dialogue [.code] true) ("</PRE>".toList ++ [])
        [(.endTag, .text "PRE")] :=
      scans_closing trivial .nil
    have hline : Says true true ['\n'] [mark .markupLineBreak] := says_newline
    have hbox : FitsTag "" := ⟨⟨by simp, by simp⟩, by simp⟩
    have hmode : IsCode [.code] := trivial
    have hopen := scans_opening hmode hbox (hline.append hss hclose)
    simpa [String.toList_append, boxTag, Point.start] using hopen
  have hshapes : Scanner.textShapes text = ss := by
    rw [Scanner.textShapes, (Scanner.tokens_scans hscans).1]
    simp [List.dropLast_append_of_ne_nil]
  obtain ⟨c, tail, hc⟩ := List.exists_cons_of_ne_nil h.nonempty
  have hbreak : c ≠ '\n' := by
    rintro rfl
    exact absurd (h.trimmed.1 '\n' (by rw [hc]; rfl)) (by decide)
  rw [hshapes]
  exact ⟨hss, htext, hall, fun s hs => hfirst s hs c (by rw [hc]; rfl) hbreak⟩

end Stagecraft
