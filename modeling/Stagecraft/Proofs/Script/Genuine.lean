import Stagecraft.Proofs.Script.Said

namespace Stagecraft

open Shape

def TokenKind.isSpoken (kind : TokenKind) : Bool :=
  kind == .dialogueIdentifier || kind.isMarkup

def Genuine : Shape → Prop
  | (.identifier, value) => ∃ s, value = .text s ∧ (Lexeme.isSigiled s.toList = true ∨
      (Script.isBare s = true ∧ TokenKind.keyword? s = none))
  | (.stringLiteral, value) => ∃ s, value = .text s ∧ Lexeme.isSigiled s.toList = false
  | (.startTag, value) => ∃ s, value = .text s ∧ FitsTag s
  | (.endTag, value) => ∃ s, value = .text s ∧ FitsTag s
  | (.dialogueIdentifier, value) => ∃ s, value = .text s ∧ FitsBrackets s
  | (.markupText, value) => ∃ s, value = .text s ∧ s.toList ≠ [] ∧
    ∀ c ∈ s.toList, c ≠ '\n' ∧ c ≠ '\x7b'
  | (.includeDirective, value) => ∃ s, value = .text s ∧ ∀ c ∈ s.toList, c ≠ '"' ∧ c ≠ '\n'
  | _ => True

structure Follows (s t : Shape) : Prop where
  tag : s.1 = .closeParen → t.1 ≠ .startTag
  start : s.1 = .markupLineBreak → ∀ c ∈ (said t).head?, c = '\n' ∨ Text.isBlank c = false
  stop : t.1 = .markupLineBreak → ∀ c ∈ (said s).getLast?, c = '\n' ∨ Text.isBlank c = false

lemma said_ends {s : Shape} (h : s.1 ≠ .markupText) :
    (∀ d ∈ (said s).head?, d = '\n' ∨ Text.isBlank d = false) ∧
      ∀ d ∈ (said s).getLast?, d = '\n' ∨ Text.isBlank d = false := by
  have hbracket : Text.isBlank '<' = false ∧ Text.isBlank '>' = false ∧
      Text.isBlank '[' = false ∧ Text.isBlank ']' = false := by decide
  unfold said
  split
  · exact absurd rfl h
  all_goals simp [List.getLast?_cons, hbracket]

namespace Lexeme

variable {previous : Option TokenKind} {c : Char} {cs rest : List Char}

lemma genuine_quoted : Genuine ((quoted cs).kind, (quoted cs).value) := by
  unfold quoted
  split
  · trivial
  · next content n _ =>
    by_cases h : isSigiled content.toList = true
    · simp only [h, if_true]
      exact ⟨_, rfl, .inl (by rwa [String.toList_ofList])⟩
    · simp only [h]
      exact ⟨_, rfl, by rwa [String.toList_ofList, ← Bool.not_eq_true]⟩

lemma genuine_includeDirective :
    Genuine ((includeDirective cs).kind, (includeDirective cs).value) := by
  unfold includeDirective
  dsimp only
  split
  · next more _ =>
    split
    · refine ⟨_, rfl, fun c hc => ?_⟩
      rw [String.toList_ofList] at hc
      have hpath := List.mem_takeWhile_imp (p := fun c => c != '"' && c != '\n') hc
      simpa using hpath
    · trivial
  · trivial

lemma genuine_sigiled (hc : isSigil c = true) :
    Genuine ((sigiled c rest).kind, (sigiled c rest).value) := by
  unfold sigiled
  dsimp only
  split
  · trivial
  · next hname =>
    refine ⟨_, rfl, .inl ?_⟩
    have hall : (rest.takeWhile isNameChar).all isNameChar = true :=
      List.all_eq_true.mpr fun d hd => List.mem_takeWhile_imp hd
    simp [isSigiled, hc, hname, hall]

lemma genuine_word (hc : isNameStart c = true) :
    Genuine ((word (c :: rest)).kind, (word (c :: rest)).value) := by
  have hcons : (c :: rest).takeWhile isNameChar = c :: rest.takeWhile isNameChar := by
    simp [isNameChar_of_isNameStart hc]
  have hall : (rest.takeWhile isNameChar).all isNameChar = true :=
    List.all_eq_true.mpr fun d hd => List.mem_takeWhile_imp hd
  have hbare : Script.isBare (String.ofList ((c :: rest).takeWhile isNameChar)) = true := by
    simp [hcons, Script.isBare, hc, hall, isNameChar_of_isNameStart hc]
  unfold word
  dsimp only
  split
  · next kind hkind =>
    have hword : ∀ w ∈ TokenKind.keywords, Genuine (w.2, .none) := by
      simp [TokenKind.keywords, Genuine]
    exact hword _ (mem_keywords hkind)
  · next hkind => exact ⟨_, rfl, .inr ⟨hbare, hkind⟩⟩

lemma genuine_operator : Genuine ((operator c rest).kind, (operator c rest).value) := by
  unfold operator
  split
  · next kind hkind =>
    cases rest with
    | nil => cases hkind
    | cons d rest =>
      rw [List.head?_cons, Option.bind_some] at hkind
      unfold twoCharOperator at hkind
      split at hkind <;> cases hkind <;> trivial
  · split
    · next kind hkind =>
      unfold oneCharOperator at hkind
      split at hkind <;> cases hkind <;> trivial
    · trivial

lemma genuine_tag {l : Lexeme} (h : tag cs = some l) : Genuine (l.kind, l.value) := by
  unfold tag at h
  dsimp only at h
  split at h
  · cases h
    trivial
  · have hinside : ∀ c ∈ (cs.drop 1).takeWhile (fun c => c != '>' && !endsTagSearch c),
        c ≠ '>' ∧ endsTagSearch c = false := by
      intro c hc
      simpa using List.mem_takeWhile_imp hc
    have hfits {inner : List Char} (hinner : ∀ c ∈ inner, c ≠ '>' ∧ endsTagSearch c = false) :
        FitsTag (String.ofList (Text.trimEnd (Text.trimStart inner))) := by
      rw [FitsTag, String.toList_ofList]
      exact ⟨Text.isTrimmed_trim, fun c hc => hinner c (Text.mem_of_mem_trim hc)⟩
    split at h
    · next inner hinner =>
      cases h
      exact ⟨_, rfl, hfits fun c hc => hinside c (hinner ▸ List.mem_cons_of_mem _ hc)⟩
    · cases h
      exact ⟨_, rfl, hfits hinside⟩
  · cases h

lemma genuine_dialogueName {l : Lexeme} (h : dialogueName cs = some l) :
    Genuine (l.kind, l.value) := by
  unfold dialogueName at h
  dsimp only at h
  split at h
  · cases h
  · next hname =>
    cases h
    refine ⟨_, rfl, ?_⟩
    rw [FitsBrackets, String.toList_ofList]
    simp only [Bool.or_eq_true, not_or, Bool.not_eq_true', Bool.not_eq_false] at hname
    exact ⟨by simpa using hname.1.2, List.all_eq_true.mp hname.2⟩

lemma isSpoken_operator (c : Char) (rest : List Char) :
    (operator c rest).kind.isSpoken = false := by
  unfold operator
  split
  · next kind hkind =>
    obtain ⟨next, -, hkind⟩ := Option.bind_eq_some_iff.mp hkind
    unfold twoCharOperator at hkind
    split at hkind <;> cases hkind <;> rfl
  · split
    · next kind hkind =>
      unfold oneCharOperator at hkind
      split at hkind <;> cases hkind <;> rfl
    · rfl

lemma genuine_coded {l : Lexeme} (h : Coded c rest l) : Genuine (l.kind, l.value) := by
  cases h with
  | quoted => exact genuine_quoted
  | directive => exact genuine_includeDirective
  | sigiled hc => exact genuine_sigiled hc
  | delta =>
    have hkind := kind_delta (c :: rest)
    simp only [List.mem_cons, List.not_mem_nil, or_false] at hkind
    rcases hkind with hkind | hkind <;> rw [hkind] <;> trivial
  | number => trivial
  | word hc => exact genuine_word hc
  | tag _ htag => exact genuine_tag htag
  | operator => exact genuine_operator

lemma isSpoken_coded {l : Lexeme} (h : Coded c rest l) :
    l.kind.isSpoken = false ∨ c = '<' ∧ l.kind ∈ [.startTag, .endTag] := by
  have hmem {kinds : List TokenKind} {kind : TokenKind} (hkind : kind ∈ kinds)
      (hall : ∀ k ∈ kinds, k.isSpoken = false) : kind.isSpoken = false :=
    hall kind hkind
  cases h with
  | quoted => exact .inl (hmem (kind_quoted _) (by decide))
  | directive => exact .inl (hmem (kind_includeDirective _) (by decide))
  | sigiled => exact .inl (hmem (kind_sigiled _ _) (by decide))
  | delta => exact .inl (hmem (kind_delta _) (by decide))
  | number => exact .inl rfl
  | word =>
    rcases kind_word (c :: rest) with hkind | hkind
    · exact .inl (hkind ▸ rfl)
    · exact .inl (hmem hkind (by decide))
  | tag hc htag =>
    have hkind := kind_tag htag
    generalize l.kind = kind at hkind ⊢
    simp only [List.mem_cons, List.not_mem_nil, or_false] at hkind
    rcases hkind with rfl | rfl | rfl <;> simp [hc, TokenKind.isSpoken, TokenKind.isMarkup]
  | operator => exact .inl (isSpoken_operator _ _)

lemma code_closeParen (c : Char) (rest : List Char) :
    (code (some .closeParen) c rest).kind ≠ .startTag := by
  intro hkind
  rcases isSpoken_coded (coded (some .closeParen) c rest) with h | ⟨rfl, -⟩
  · rw [hkind] at h
    cases h
  · have hcode : code (some .closeParen) '<' rest = operator '<' rest := by
      simp [code, isSigil, endsOperand, show isNameStart '<' = false by decide]
    have hoperator := isSpoken_operator '<' rest
    rw [← hcode, hkind] at hoperator
    cases hoperator

section Dialogue

variable {lineStart : Bool}

inductive Stopped : List Char → Prop
  | done : Stopped []
  | lineBreak (rest : List Char) : Stopped ('\n' :: rest)
  | carriageReturn (rest : List Char) : Stopped ('\r' :: '\n' :: rest)
  | code (rest : List Char) : Stopped ('\x7b' :: rest)
  | angle (rest : List Char) : Stopped ('<' :: rest)

lemma textLength_stop (n : Nat) (cs : List Char) : ∃ k, textLength n cs = n + k ∧
    (∀ c ∈ cs.take k, c ≠ '\n' ∧ c ≠ '\x7b') ∧ Stopped (cs.drop k) ∧
      ∀ x y, cs.take k = x ++ '<' :: y → looksLikeTag ('<' :: (y ++ cs.drop k)) = false := by
  induction cs generalizing n with
  | nil => exact ⟨0, rfl, by simp, .done, by simp⟩
  | cons c cs ih =>
    rw [textLength]
    split
    · next hc =>
      refine ⟨0, rfl, by simp, ?_, by simp⟩
      simp only [Bool.or_eq_true, beq_iff_eq] at hc
      rcases hc with rfl | rfl
      · exact .lineBreak cs
      · exact .code cs
    next hfirst =>
    simp only [Bool.or_eq_true, beq_iff_eq, not_or] at hfirst
    split
    · next hc =>
      refine ⟨0, rfl, by simp, ?_, by simp⟩
      simp only [Bool.and_eq_true, beq_iff_eq] at hc
      obtain ⟨rfl, hnext⟩ := hc
      obtain ⟨rest, rfl⟩ := List.head?_eq_some_iff.mp hnext
      exact .carriageReturn rest
    split
    · next hc =>
      refine ⟨0, rfl, by simp, ?_, by simp⟩
      simp only [Bool.and_eq_true, beq_iff_eq] at hc
      obtain ⟨rfl, -⟩ := hc
      exact .angle cs
    · next hangle =>
      obtain ⟨k, hk, hinside, hstop, hplain⟩ := ih (n + 1)
      refine ⟨k + 1, by omega, List.forall_mem_cons.mpr ⟨hfirst, hinside⟩, hstop, fun x y hxy => ?_⟩
      rw [List.take_succ_cons] at hxy
      rcases x with _ | ⟨d, x⟩
      · obtain ⟨rfl, rfl⟩ := List.cons.inj hxy
        rw [List.drop_succ_cons, List.take_append_drop]
        simpa using hangle
      · exact hplain x y (List.cons.inj hxy).2

lemma dialogueText_parts (lineStart : Bool) (c : Char) (rest : List Char) :
    ∃ before text behind, c :: rest.take (textLength 0 rest) = before ++ (text ++ behind) ∧
      (∀ d ∈ before ++ behind, Text.isBlank d = true) ∧
      (dialogueText lineStart c rest).value =
        if text.isEmpty then .none else .text (String.ofList text) := by
  have hstart (chars : List Char) : ∃ before, chars = before ++
      (if lineStart = true then Text.trimStart chars else chars) ∧
        ∀ d ∈ before, Text.isBlank d = true := by
    split
    · exact Text.exists_trimStart chars
    · exact ⟨[], rfl, by simp⟩
  obtain ⟨before, hbefore, hblank⟩ := hstart (c :: rest.take (textLength 0 rest))
  simp only [dialogueText]
  generalize (if lineStart = true then Text.trimStart (c :: rest.take (textLength 0 rest))
    else c :: rest.take (textLength 0 rest)) = inner at hbefore
  have hparts {text : List Char} (htext : ∃ behind, inner = text ++ behind ∧
      ∀ d ∈ behind, Text.isBlank d = true) : ∃ before text' behind,
        c :: rest.take (textLength 0 rest) = before ++ (text' ++ behind) ∧
          (∀ d ∈ before ++ behind, Text.isBlank d = true) ∧
          (if text.isEmpty then TokenValue.none else .text (String.ofList text)) =
            if text'.isEmpty then .none else .text (String.ofList text') := by
    obtain ⟨behind, rfl, hblank'⟩ := htext
    exact ⟨before, text, behind, hbefore,
      fun d hd => (List.mem_append.mp hd).elim (hblank d) (hblank' d), rfl⟩
  split
  · exact hparts (Text.exists_trimEnd inner)
  · exact hparts (Text.exists_trimEnd inner)
  · exact hparts (Text.exists_trimEnd inner)
  · exact hparts ⟨[], by simp, by simp⟩

lemma dialogueText_says {s : String} (h : (dialogueText lineStart c rest).value = .text s) :
    s.toList ≠ [] ∧ ∃ before behind, c :: rest.take (textLength 0 rest) =
      before ++ (s.toList ++ behind) ∧ ∀ d ∈ before ++ behind, Text.isBlank d = true := by
  obtain ⟨before, text, behind, hchars, hblank, hvalue⟩ := dialogueText_parts lineStart c rest
  rw [h] at hvalue
  split at hvalue
  · cases hvalue
  · next hne =>
    obtain rfl := TokenValue.text.inj hvalue
    rw [String.toList_ofList]
    exact ⟨by simpa using hne, before, behind, hchars, hblank⟩

lemma dialogueText_silent (h : (dialogueText lineStart c rest).isSilent = true) :
    ∀ d ∈ c :: rest.take (textLength 0 rest), Text.isBlank d = true := by
  obtain ⟨before, text, behind, hchars, hblank, hvalue⟩ := dialogueText_parts lineStart c rest
  have hkind : (dialogueText lineStart c rest).kind = .markupText := rfl
  have hempty : text = [] := by
    by_contra hne
    simp [isSilent, hkind, hvalue, hne] at h
  rw [hchars, hempty]
  exact hblank

lemma dialogueText_ends {s : String} (h : (dialogueText lineStart c rest).value = .text s) :
    (lineStart = true → ∀ d ∈ s.toList.head?, Text.isBlank d = false) ∧
      ∀ d ∈ s.toList.getLast?, Text.isBlank d = false ∨
        ∃ e ∈ (dialogueText lineStart c rest).rest.head?, e = '\x7b' ∨ e = '<' := by
  obtain ⟨k, hk, -, hstop, -⟩ := textLength_stop 0 rest
  rw [Nat.zero_add] at hk
  simp only [dialogueText, hk] at h ⊢
  generalize hsaid : (if lineStart = true then Text.trimStart (c :: rest.take k)
    else c :: rest.take k) = text at h
  have hfirst : lineStart = true → ∀ d ∈ text.head?, Text.isBlank d = false := by
    rintro rfl
    rw [← hsaid, if_pos rfl]
    exact Text.head_trimStart _
  generalize rest.drop k = after at h hstop ⊢
  have htrimmed {text' : List Char} (htext : text' = Text.trimEnd text)
      (h : (if text'.isEmpty = true then TokenValue.none else .text (String.ofList text')) =
        .text s) : (lineStart = true → ∀ d ∈ s.toList.head?, Text.isBlank d = false) ∧
          ∀ d ∈ s.toList.getLast?, Text.isBlank d = false := by
    split at h
    · cases h
    · obtain rfl := TokenValue.text.inj h
      rw [String.toList_ofList, htext]
      exact ⟨fun hstart d hd => hfirst hstart d (Text.head_trimEnd hd), Text.getLast_trimEnd⟩
  split at h
  · exact ⟨(htrimmed rfl h).1, fun d hd => .inl ((htrimmed rfl h).2 d hd)⟩
  · exact ⟨(htrimmed rfl h).1, fun d hd => .inl ((htrimmed rfl h).2 d hd)⟩
  · exact ⟨(htrimmed rfl h).1, fun d hd => .inl ((htrimmed rfl h).2 d hd)⟩
  · next hnil hbreak hreturn =>
    split at h
    · cases h
    obtain rfl := TokenValue.text.inj h
    rw [String.toList_ofList]
    refine ⟨hfirst, fun d hd => .inr ?_⟩
    cases hstop with
    | done => exact (hnil rfl).elim
    | lineBreak more => exact (hbreak more rfl).elim
    | carriageReturn more => exact (hreturn _ rfl).elim
    | code more => exact ⟨_, rfl, .inl rfl⟩
    | angle more => exact ⟨_, rfl, .inr rfl⟩

lemma dialogueText_genuine {s : String} (hc : c ≠ '\n' ∧ c ≠ '\x7b')
    (h : (dialogueText lineStart c rest).value = .text s) :
    s.toList ≠ [] ∧ ∀ c ∈ s.toList, c ≠ '\n' ∧ c ≠ '\x7b' := by
  obtain ⟨hne, before, behind, hchars, -⟩ := dialogueText_says h
  obtain ⟨k, hk, hinside, -⟩ := textLength_stop 0 rest
  rw [Nat.zero_add] at hk
  rw [hk] at hchars
  have hall : ∀ d ∈ c :: rest.take k, d ≠ '\n' ∧ d ≠ '\x7b' :=
    List.forall_mem_cons.mpr ⟨hc, hinside⟩
  refine ⟨hne, fun d hd => hall d ?_⟩
  rw [hchars]
  exact List.mem_append_right _ (List.mem_append_left _ hd)

structure Spoken (lineStart : Bool) (c : Char) (l : Lexeme) : Prop where
  genuine : Genuine (l.kind, l.value)
  kind : l.kind ≠ .closeParen
  start : lineStart = true → ∀ d ∈ (said (l.kind, l.value)).head?,
    d = '\n' ∨ Text.isBlank d = false
  stop : ∀ d ∈ (said (l.kind, l.value)).getLast?, d = '\n' ∨ Text.isBlank d = false ∨
    l.kind = .markupText ∧ ∃ e ∈ l.rest.head?, e = '\x7b' ∨ e = '<'
  lineBreak : l.kind = .markupLineBreak → c = '\n'

lemma value_dialogueText (lineStart : Bool) (c : Char) (rest : List Char) :
    (dialogueText lineStart c rest).value = .none ∨
    ∃ s, (dialogueText lineStart c rest).value = .text s := by
  obtain ⟨_, text, _, -, -, hvalue⟩ := dialogueText_parts lineStart c rest
  rw [hvalue]
  cases text.isEmpty <;> simp

lemma spoken_text (hc : c ≠ '\n' ∧ c ≠ '\x7b')
    (h : (dialogueText lineStart c rest).isSilent = false) :
    Spoken lineStart c (dialogueText lineStart c rest) := by
  have hkind : (dialogueText lineStart c rest).kind = .markupText := rfl
  rcases value_dialogueText lineStart c rest with hvalue | ⟨s, hvalue⟩
  · simp [isSilent, hkind, hvalue] at h
  · obtain ⟨hstart, hstop⟩ := dialogueText_ends hvalue
    refine ⟨?_, by simp [hkind], fun hline d hd => ?_, fun d hd => ?_, by simp [hkind]⟩
    · rw [hkind, hvalue]
      exact ⟨s, rfl, dialogueText_genuine hc hvalue⟩
    · rw [hkind, hvalue] at hd
      exact .inr (hstart hline d hd)
    · rw [hkind, hvalue] at hd
      exact .inr ((hstop d hd).imp_right fun he => ⟨hkind, he⟩)

lemma spoken_bracketed {l : Lexeme} (hgenuine : Genuine (l.kind, l.value))
    (hkind : l.kind ∈ [.startTag, .endTag, .endOfFile, .dialogueIdentifier]) :
    Spoken lineStart c l := by
  have hne (kind : TokenKind) (hmem : kind ∉ [.startTag, .endTag, .endOfFile, .dialogueIdentifier]) :
      l.kind ≠ kind := by
    rintro rfl
    exact hmem hkind
  obtain ⟨hstart, hstop⟩ := said_ends (s := (l.kind, l.value)) (hne _ (by decide))
  exact ⟨hgenuine, hne _ (by decide), fun _ => hstart,
    fun d hd => (hstop d hd).imp_right .inl, fun h => absurd h (hne _ (by decide))⟩

lemma isSilent_angle (lineStart : Bool) (rest : List Char) :
    (dialogue lineStart '<' rest).isSilent = false := by
  have htext : (dialogueText lineStart '<' rest).isSilent = false := by
    have hblank : Text.isBlank '<' = false := by decide
    have hfirst (tail : List Char) :
        (if lineStart = true then Text.trimStart ('<' :: tail) else '<' :: tail) = '<' :: tail := by
      simp [Text.trimStart, hblank]
    have htrim (tail : List Char) : Text.trimEnd ('<' :: tail) ≠ [] := by
      simp only [Text.trimEnd, ne_eq, List.reverse_eq_nil_iff, List.dropWhile_eq_nil_iff,
        List.mem_reverse]
      exact fun hall => absurd (hall '<' List.mem_cons_self) (by simp [hblank])
    unfold dialogueText
    simp only [hfirst]
    split <;> simp [isSilent, htrim]
  unfold dialogue
  dsimp only
  split
  · rfl
  split
  · next hc => exact absurd hc (by decide)
  split
  · rfl
  split
  · cases htag : tag ('<' :: rest) with
    | none => exact htext
    | some l => exact Scanner.isSilent_of_tag htag
  split
  · next hc => exact absurd (Bool.and_eq_true_iff.mp hc).1 (by decide)
  · exact htext

lemma spoken (h : (dialogue lineStart c rest).isSilent = false) :
    Spoken lineStart c (dialogue lineStart c rest) := by
  revert h
  unfold dialogue
  dsimp only
  split
  · next hc =>
    intro _
    rw [beq_iff_eq] at hc
    subst hc
    exact ⟨trivial, by simp [plain], by simp [plain, said], by simp [plain, said], fun _ => rfl⟩
  next hbreak =>
  split
  · intro h
    simp [isSilent, plain] at h
  split
  · intro _
    exact ⟨trivial, by simp [plain], by simp [plain, said], by simp [plain, said], by simp [plain]⟩
  next hbrace =>
  have hc : c ≠ '\n' ∧ c ≠ '\x7b' := ⟨by simpa using hbreak, by simpa using hbrace⟩
  split
  · cases htag : tag (c :: rest) with
    | none => exact spoken_text hc
    | some l =>
      intro _
      refine spoken_bracketed (genuine_tag htag) ?_
      have hkind := kind_tag htag
      simp only [List.mem_cons, List.not_mem_nil, or_false] at hkind
      rcases hkind with hkind | hkind | hkind <;> simp [hkind]
  split
  · cases hname : dialogueName (c :: rest) with
    | none => exact spoken_text hc
    | some l =>
      intro _
      refine spoken_bracketed (genuine_dialogueName hname) ?_
      unfold dialogueName at hname
      dsimp only at hname
      split at hname
      · cases hname
      · cases hname
        simp
  · exact spoken_text hc

end Dialogue

end Lexeme

namespace Scanner

variable {s : Scanner} {t : Shape}

lemma previous_skipTrivia (s : Scanner) : s.skipTrivia.previous = s.previous := by
  fun_induction skipTrivia s with
  | case1 s line h ih => exact ih
  | case2 s inside h n hn ih => exact ih
  | case3 s inside h hn => rfl
  | case4 s c rest _ _ h hc ih => exact ih
  | case5 s c rest _ _ h hc => rfl
  | case6 s h => rfl

lemma skipSilence_keeps (s : Scanner) : s.skipSilence.previous = s.previous ∧
    s.skipSilence.modes = s.modes ∧ s.skipSilence.lineStart = s.lineStart ∧
    ∀ c rest, s.skipSilence.rest = c :: rest →
      (Lexeme.dialogue s.lineStart c rest).isSilent = false := by
  fun_induction skipSilence s with
  | case1 s h => exact ⟨rfl, rfl, rfl, fun c rest hrest => by simp [h] at hrest⟩
  | case2 s c rest h l hl ih => exact ih
  | case3 s c rest h l hl =>
    refine ⟨rfl, rfl, rfl, fun d more hrest => ?_⟩
    obtain ⟨rfl, rfl⟩ := List.cons.inj (h.symm.trans hrest)
    simpa using hl

lemma skipSilence_of_head {e : Char} (h : e ∈ s.rest.head?) (he : e = '\x7b' ∨ e = '<') :
    s.skipSilence = s := by
  obtain ⟨rest, hrest⟩ := List.head?_eq_some_iff.mp (Option.mem_def.mp h)
  have hloud : (Lexeme.dialogue s.lineStart e rest).isSilent = false := by
    rcases he with rfl | rfl
    · rfl
    · exact Lexeme.isSilent_angle _ _
  rw [skipSilence]
  split
  · rfl
  · next c tail htail =>
    obtain ⟨rfl, rfl⟩ := List.cons.inj (hrest.symm.trans htail)
    simp [hloud]

structure After (t : Shape) (s : Scanner) : Prop where
  previous : s.previous = some t.1
  code : t.1 = .closeParen → s.modes.head? ≠ some .dialogue
  start : t.1 = .markupLineBreak → s.modes.head? = some .dialogue ∧ s.lineStart = true
  stop : ∀ d ∈ (said t).getLast?, d = '\n' ∨ Text.isBlank d = false ∨
    s.modes.head? = some .dialogue ∧ ∃ e ∈ s.rest.head?, e = '\x7b' ∨ e = '<'

lemma modesAfter_of_kind {modes : List Mode} {lineStart : Bool} {t : Token}
    (h : t.kind = .closeParen ∨ t.kind = .markupText) : (modesAfter modes lineStart t).1 = modes := by
  have hstart : t.isDialogueStart = false := by
    rcases h with h | h <;> simp [Token.isDialogueStart, h]
  have hend : t.isDialogueEnd = false := by
    rcases h with h | h <;> simp [Token.isDialogueEnd, h]
  unfold modesAfter
  rcases h with h | h <;> rw [h] <;> simp only [hstart, hend] <;> split <;> rfl

lemma after_accept {l : Lexeme} (hcode : l.kind = .closeParen → s.modes.head? ≠ some .dialogue)
    (hstart : l.kind = .markupLineBreak → s.modes.head? = some .dialogue)
    (hstop : ∀ d ∈ (said (l.kind, l.value)).getLast?, d = '\n' ∨ Text.isBlank d = false ∨
      l.kind = .markupText ∧ s.modes.head? = some .dialogue ∧
        ∃ e ∈ l.rest.head?, e = '\x7b' ∨ e = '<') :
    After (s.accept l).1.shape (s.accept l).2 := by
  by_cases hend : l.kind = .endOfFile
  · have hshape : (s.accept l).1.shape = mark .endOfFile := by
      simp [accept, hend, Token.endAt, Token.shape]
    rw [hshape]
    refine ⟨?_, by simp, by simp, by simp [said]⟩
    change some (s.accept l).1.kind = _
    rw [accept_kind, hend]
  · rw [accept_shape hend]
    have hmodes : ((s.accept l).2.modes, (s.accept l).2.lineStart) =
        modesAfter s.modes s.lineStart (s.accept l).1 := rfl
    have hkind := accept_kind (s := s) l
    refine ⟨congrArg some hkind, fun h => ?_, fun h => ?_, fun d hd => ?_⟩
    · rw [show (s.accept l).2.modes = _ from congrArg Prod.fst hmodes,
        modesAfter_of_kind (.inl (hkind.trans h))]
      exact hcode h
    · obtain ⟨outer, houter⟩ := List.head?_eq_some_iff.mp (hstart h)
      have hnext : modesAfter s.modes s.lineStart (s.accept l).1 = (.dialogue :: outer, true) := by
        rw [houter]
        simp [modesAfter, hkind, show l.kind = .markupLineBreak from h]
      rw [hnext, Prod.mk.injEq] at hmodes
      exact ⟨by rw [hmodes.1]; rfl, hmodes.2⟩
    · refine (hstop d hd).imp_right fun h => h.imp_right fun hlast => ?_
      obtain ⟨htext, hdialogue, he⟩ := hlast
      rw [show (s.accept l).2.modes = _ from congrArg Prod.fst hmodes,
        modesAfter_of_kind (.inr (hkind.trans htext)), accept_rest]
      exact ⟨hdialogue, he⟩

lemma shape_accept (l : Lexeme) : (s.accept l).1.shape = (l.kind, l.value) ∨
    (s.accept l).1.shape = mark .endOfFile := by
  by_cases hend : l.kind = .endOfFile
  · exact .inr (by simp [accept, hend, Token.endAt, Token.shape])
  · exact .inl (accept_shape hend)

lemma follows_end (t : Shape) : Follows t (mark .endOfFile) :=
  ⟨by simp, by simp [said], by simp⟩

structure Step (s : Scanner) (t : Shape) (s' : Scanner) : Prop where
  genuine : Genuine t
  after : After t s'
  follows : ∀ u, After u s → Follows u t

lemma step_end (s' : Scanner) :
    Step s (s'.accept { kind := .endOfFile, chars := [], rest := [] }).1.shape
      (s'.accept { kind := .endOfFile, chars := [], rest := [] }).2 :=
  ⟨trivial, after_accept (by simp) (by simp) (by simp [said]), fun u _ => follows_end u⟩

lemma step_code {s' : Scanner} {c : Char} {tail : List Char} (hp : s'.previous = s.previous)
    (hm : s'.modes = s.modes) (hd : s.modes.head? ≠ some .dialogue) :
    Step s (s'.accept (Lexeme.code s'.previous c tail)).1.shape
      (s'.accept (Lexeme.code s'.previous c tail)).2 := by
  have hcoded := Lexeme.coded s'.previous c tail
  have hmarkup := Lexeme.isSpoken_coded hcoded
  have hkind {kind : TokenKind} (hkind : (Lexeme.code s'.previous c tail).kind = kind)
      (hm : kind.isSpoken = true) (htag : kind ∉ [.startTag, .endTag]) : False := by
    rcases hmarkup with h | ⟨-, h⟩
    · rw [hkind, hm] at h
      cases h
    · exact htag (hkind ▸ h)
  have hgenuine := Lexeme.genuine_coded hcoded
  generalize hl : Lexeme.code s'.previous c tail = l at hgenuine hmarkup hkind hcoded
  refine ⟨?_, after_accept (fun _ => hm ▸ hd) (fun h => (hkind h rfl (by decide)).elim) ?_, ?_⟩
  · rcases shape_accept (s := s') l with h | h <;> rw [h]
    · exact hgenuine
    · trivial
  · intro d hd
    have htext : l.kind ≠ .markupText := fun h => hkind h rfl (by decide)
    exact ((said_ends (s := (l.kind, l.value)) htext).2 d hd).imp_right .inl
  · intro u hu
    rcases shape_accept (s := s') l with h | h <;> rw [h]
    · refine ⟨fun hclose htag => ?_, fun hbreak => absurd (hu.start hbreak).1 hd,
        fun hbreak => (hkind hbreak rfl (by decide)).elim⟩
      rw [hp, hu.previous, hclose] at hl
      exact Lexeme.code_closeParen c tail (hl ▸ htag)
    · exact follows_end u

lemma step_dialogue {c : Char} {tail : List Char} (hd : s.modes.head? = some .dialogue)
    (hrest : s.skipSilence.rest = c :: tail) :
    Step s (s.skipSilence.accept (Lexeme.dialogue s.skipSilence.lineStart c tail)).1.shape
      (s.skipSilence.accept (Lexeme.dialogue s.skipSilence.lineStart c tail)).2 := by
  obtain ⟨-, hmodes, hline, hloud⟩ := skipSilence_keeps s
  have hspoken := Lexeme.spoken (hloud c tail hrest)
  rw [hline]
  generalize Lexeme.dialogue s.lineStart c tail = l at hspoken
  refine ⟨?_, after_accept (fun h => absurd h hspoken.kind) (fun _ => hmodes ▸ hd) ?_, ?_⟩
  · rcases shape_accept (s := s.skipSilence) l with h | h <;> rw [h]
    · exact hspoken.genuine
    · trivial
  · intro d hd'
    exact (hspoken.stop d hd').imp_right fun h => h.imp_right fun ⟨htext, he⟩ =>
      ⟨htext, hmodes ▸ hd, he⟩
  · intro u hu
    rcases shape_accept (s := s.skipSilence) l with h | h <;> rw [h]
    · refine ⟨fun hclose => absurd hd (hu.code hclose), fun hbreak d hd' =>
        hspoken.start (hu.start hbreak).2 d hd', fun hbreak d hd' => ?_⟩
      obtain h | h | ⟨-, e, he, hbracket⟩ := hu.stop d hd'
      · exact .inl h
      · exact .inr h
      · -- what is behind such a text is no line break
        rw [skipSilence_of_head he hbracket] at hrest
        rw [hrest, hspoken.lineBreak hbreak] at he
        cases he
        exact absurd hbracket (by decide)
    · exact follows_end u

theorem step_next (s : Scanner) : Step s s.next.1.shape s.next.2 := by
  unfold next
  by_cases hd : s.modes.head? = some .dialogue
  · simp only [hd, beq_self_eq_true, if_true]
    split
    · exact step_end _
    · next c tail hrest => exact step_dialogue hd hrest
  · simp only [beq_eq_false_iff_ne.mpr hd, Bool.false_eq_true, if_false]
    split
    · exact step_end _
    · next c tail hrest =>
      exact step_code (previous_skipTrivia s) (modes_skipTrivia s) hd

lemma genuine_run (fuel : Nat) (s : Scanner) :
    (∀ t ∈ (run fuel s #[]).1.toList.map (·.1.shape), Genuine t) ∧
      ((run fuel s #[]).1.toList.map (·.1.shape)).IsChain Follows ∧
      ∀ u, After u s → ∀ t ∈ ((run fuel s #[]).1.toList.map (·.1.shape)).head?, Follows u t := by
  induction fuel generalizing s with
  | zero => simp [run]
  | succ fuel ih =>
    obtain ⟨hgenuine, hafter, hfollows⟩ := step_next s
    rw [run_succ]
    have hhead (u : Shape) (hu : After u s) (ss : List Shape) :
        ∀ t ∈ (s.next.1.shape :: ss).head?, Follows u t := by
      rintro _ ⟨⟩
      exact hfollows u hu
    split
    · exact ⟨by simpa using hgenuine, .singleton _, fun u hu => hhead u hu []⟩
    · obtain ⟨hall, hchain, hfirst⟩ := ih s.next.2
      exact ⟨List.forall_mem_cons.mpr ⟨hgenuine, hall⟩,
        List.isChain_cons.mpr ⟨hfirst _ hafter, hchain⟩, fun u hu => hhead u hu _⟩

theorem genuine_shapes (source : String) :
    (∀ t ∈ shapes source, Genuine t) ∧ (shapes source).IsChain Follows := by
  rw [shapes_eq_run]
  obtain ⟨hall, hchain, -⟩ := genuine_run (source.toList.length + 1) (ofString source)
  exact ⟨hall, hchain⟩

end Scanner

end Stagecraft
