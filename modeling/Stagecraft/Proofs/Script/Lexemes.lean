import Stagecraft.Proofs.Script.Scanned

namespace Stagecraft

open Shape

namespace Lexeme

lemma isBlank_of_isNameStart {c : Char} (h : isNameStart c = true) : Text.isBlank c = false :=
  Text.isBlank_of h (by decide +kernel)

lemma isNameChar_of_isNameStart {c : Char} (h : isNameStart c = true) : isNameChar c = true := by
  simp only [isNameStart, isNameChar, Text.isAlphanumeric, Bool.or_eq_true] at h ⊢
  tauto

lemma of_isDigit {p : Char → Bool} {b : Bool}
    (hall : ∀ n < 58, 48 ≤ n → p (Char.ofNat n) = b) {c : Char} (h : c.isDigit = true) :
    p c = b := by
  have hdigit : 48 ≤ c.toNat ∧ c.toNat ≤ 57 := by
    simpa [Char.isDigit, UInt32.le_iff_toNat_le] using h
  rw [← Char.ofNat_toNat c]
  exact hall _ (by omega) hdigit.1

lemma isNameChar_of_isDigit {c : Char} (h : c.isDigit = true) : isNameChar c = true :=
  of_isDigit (by decide) h

lemma isNameStart_of_isDigit {c : Char} (h : c.isDigit = true) : isNameStart c = false :=
  of_isDigit (by decide) h

lemma isBlank_of_isDigit {c : Char} (h : c.isDigit = true) : Text.isBlank c = false :=
  of_isDigit (by decide) h

lemma ne_of_isNameStart {c d : Char} (h : isNameStart c = true) (hd : isNameStart d = false) :
    c ≠ d := by
  rintro rfl
  exact Bool.false_ne_true (hd.symm.trans h)

lemma solid_of_isNameStart {c : Char} {rest : List Char} (h : isNameStart c = true) :
    Solid c rest :=
  ⟨isBlank_of_isNameStart h, fun hc => absurd hc (ne_of_isNameStart h (by decide))⟩

lemma code_word {previous : Option TokenKind} {c : Char} {rest : List Char}
    (h : isNameStart c = true) : code previous c rest = word (c :: rest) := by
  have hquote := ne_of_isNameStart h (by decide : isNameStart '"' = false)
  have hdollar := ne_of_isNameStart h (by decide : isNameStart '$' = false)
  have hhash := ne_of_isNameStart h (by decide : isNameStart '#' = false)
  have hat := ne_of_isNameStart h (by decide : isNameStart '@' = false)
  have hdigit : c.isDigit = false := by
    by_contra hc
    rw [Bool.not_eq_false] at hc
    exact Bool.false_ne_true ((isNameStart_of_isDigit hc).symm.trans h)
  simp [code, isSigil, hquote, hdollar, hhash, hat, hdigit, h]

def operatorChars : List Char :=
  ['(', ')', '\x7b', '\x7d', ',', ';', ':', '+', '-', '*', '/', '%', '!', '=', '<', '>', '&', '|']

lemma code_operator {previous : Option TokenKind} {c : Char} {rest : List Char}
    (h : c ∈ operatorChars) (htag : c = '<' → looksLikeTag (c :: rest) = false) :
    code previous c rest = operator c rest := by
  have hall : operatorChars.all (fun c => c != '"' && c != '#' && !isSigil c && c != '@' &&
      !c.isDigit && !isNameStart c) = true := by decide
  have hc := List.all_eq_true.mp hall c h
  simp only [Bool.and_eq_true, bne_iff_ne, Bool.not_eq_true'] at hc
  obtain ⟨⟨⟨⟨⟨hquote, hhash⟩, hsigil⟩, hat⟩, hdigit⟩, hname⟩ := hc
  by_cases hlt : c = '<'
  · simp only [code, hsigil, hdigit, hname, htag hlt]
    simp [hquote, hhash, hat]
  · simp only [code, hsigil, hdigit, hname]
    simp [hquote, hhash, hat, hlt]

def joins (c next : Char) : Bool :=
  (twoCharOperator c next).isSome || (c == '/' && (next == '/' || next == '*')) ||
    (c == '<' && (next == '/' || Text.isAlphabetic next))

lemma starts_operator {c : Char} {tail rest chars : List Char} {kind : TokenKind}
    (hc : c ∈ operatorChars) (hcomment : c = '/' → tail.head? ≠ some '/' ∧ tail.head? ≠ some '*')
    (htag : c = '<' → looksLikeTag (c :: tail) = false)
    (hop : operator c tail = { kind, chars, rest })
    (hkind : kind ∉ [.startTag, .endTag, .endOfFile]) (hlength : rest.length ≤ tail.length) :
    Starts c tail (mark kind) rest := by
  have hblank : operatorChars.all (fun c => !Text.isBlank c) = true := by decide
  refine ⟨⟨by simpa using List.all_eq_true.mp hblank c hc, hcomment⟩, fun previous => ?_, hlength,
    hkind⟩
  exact ⟨chars, (code_operator hc htag).trans hop⟩

lemma starts_single {c : Char} {rest : List Char} {kind : TokenKind}
    (hc : oneCharOperator c = some kind) (h : ∀ next ∈ rest.head?, joins c next = false) :
    Starts c rest (mark kind) rest := by
  have hop : operator c rest = { kind, chars := [c], rest } := by
    have htwo : rest.head?.bind (twoCharOperator c) = none := by
      cases rest with
      | nil => rfl
      | cons next rest =>
        have := h next rfl
        simp only [joins, Bool.or_eq_false_iff, Option.isSome_eq_false_iff] at this
        simpa using this.1.1
    simp [operator, htwo, hc, plain]
  have hkind : kind ∉ [.startTag, .endTag, .endOfFile] ∧ c ∈ operatorChars := by
    unfold oneCharOperator at hc
    split at hc <;> cases hc <;> decide
  refine starts_operator hkind.2 ?_ ?_ hop hkind.1 (Nat.le_refl _)
  · rintro rfl
    cases rest with
    | nil => simp
    | cons next rest =>
      have := h next rfl
      simp only [joins, Bool.or_eq_false_iff] at this
      simpa using this.1.2
  · rintro rfl
    cases rest with
    | nil => rfl
    | cons next rest =>
      have := h next rfl
      simp only [joins, Bool.or_eq_false_iff] at this
      have hnext : next ≠ '/' ∧ Text.isAlphabetic next = false := by simpa using this.2
      simp [looksLikeTag, hnext]

lemma starts_double {c next : Char} {rest : List Char} {kind : TokenKind}
    (h : twoCharOperator c next = some kind) : Starts c (next :: rest) (mark kind) rest := by
  have hop : operator c (next :: rest) = { kind, chars := [c, next], rest } := by
    simp [operator, h, plain]
  unfold twoCharOperator at h
  split at h <;> cases h <;>
    exact starts_operator (by decide) (by simp) (fun _ => rfl) hop (by decide) (by simp)

end Lexeme

open Lexeme

def frees (free : Bool) (ss : List Shape) : Bool :=
  match ss.getLast? with
  | some s => !endsOperand s.1
  | none => free

lemma frees_append (free : Bool) (ss ts : List Shape) :
    frees free (ss ++ ts) = frees (frees free ss) ts := by
  unfold frees
  rw [List.getLast?_append]
  cases ts.getLast? <;> rfl

lemma frees_concat (free : Bool) (ss : List Shape) (t : Shape) :
    frees free (ss ++ [t]) = !endsOperand t.1 := by
  simp [frees]

lemma frees_mono {free free' : Bool} {ss : List Shape} (h : frees free ss = true)
    (hf : free = true → free' = true) : frees free' ss = true := by
  unfold frees at h ⊢
  split
  · next s hs => simpa [hs] using h
  · next hs => exact hf (by simpa [hs] using h)

def SpellsFrom (start : Bool) (fits : List Char → Prop) (text : String) (ss : List Shape) : Prop :=
  ∀ ⦃modes free rest ss'⦄, IsCode modes → (start = true → free = true) → fits rest →
    Scans (.code modes (frees free ss)) rest ss' →
    Scans (.code modes free) (text.toList ++ rest) (ss ++ ss')

abbrev Spells (fits : List Char → Prop) (text : String) (ss : List Shape) : Prop :=
  SpellsFrom false fits text ss

abbrev Anything : List Char → Prop :=
  fun _ => True

def Apart (rest : List Char) : Prop :=
  ∀ c ∈ rest.head?, isNameChar c = false ∧ c ≠ '.'

def Unjoined (rest : List Char) : Prop :=
  ∀ c ∈ rest.head?, c ≠ '+' ∧ c ≠ '-' ∧ c ≠ '='

def braces : List TokenKind :=
  [.openBrace, .closeBrace]

lemma after_code {modes : List Mode} {free : Bool} {shape : Shape} (hm : IsCode modes)
    (hkind : shape.1 ∉ [.startTag, .endTag, .endOfFile]) (hbrace : shape.1 ∉ braces) :
    (Point.code modes free).after shape = .code modes (frees free [shape]) := by
  obtain ⟨kind, value⟩ := shape
  simp only [braces, List.mem_cons, List.not_mem_nil, or_false, not_or] at hkind hbrace
  have hstart : (Shape.token (kind, value)).isDialogueStart = false := by
    simp [Token.isDialogueStart, hkind.1]
  unfold IsCode at hm
  split at hm
  · simp [Point.after, Point.modes, Scanner.modesAfter, hstart, Point.of, frees]
  · simp only [Point.after, Point.modes, Scanner.modesAfter, Shape.kind_token]
    split
    · exact absurd rfl hbrace.1
    · exact absurd rfl hbrace.2
    · simp [hstart, Point.of, frees]
  · exact hm.elim

section Spells

variable {start start' : Bool} {fits fits' : List Char → Prop} {a b : String} {s t : List Shape}

lemma SpellsFrom.append (ha : SpellsFrom start fits a s) (hb : SpellsFrom start' fits' b t)
    (h : ∀ rest, fits' rest → fits (b.toList ++ rest))
    (hstart : start' = true → frees start s = true := by simp) :
    SpellsFrom start fits' (a ++ b) (s ++ t) := by
  intro modes free rest ss hm hfree hrest hss
  rw [String.toList_append, List.append_assoc, List.append_assoc]
  rw [frees_append] at hss
  exact ha hm hfree (h rest hrest) (hb hm (fun h => frees_mono (hstart h) hfree) hrest hss)

lemma SpellsFrom.mono (h : SpellsFrom start fits a s) (hf : ∀ rest, fits' rest → fits rest) :
    SpellsFrom start fits' a s :=
  fun _ _ _ _ hm hfree hrest hss => h hm hfree (hf _ hrest) hss

lemma spells_of_starts {shape : Shape} (hbrace : shape.1 ∉ braces) (h : ∀ rest, fits rest →
    ∃ c tail, a.toList ++ rest = c :: tail ∧ Starts c tail shape rest) : Spells fits a [shape] := by
  intro modes free rest ss hm _ hrest hss
  obtain ⟨c, tail, hcons, hstarts⟩ := h rest hrest
  rw [hcons]
  rw [← after_code hm hstarts.kind hbrace] at hss
  exact .token hm hstarts hss

end Spells

lemma spells_blank : Spells Anything " " [] :=
  fun _ _ _ _ hm _ _ hss => .blank hm (by decide) hss

lemma spells_newline : Spells Anything "\n" [] :=
  fun _ _ _ _ hm _ _ hss => .blank hm (by decide) hss

lemma spells_single {c : Char} {kind : TokenKind} (hc : oneCharOperator c = some kind)
    (hbrace : kind ∉ braces) :
    Spells (fun rest => ∀ next ∈ rest.head?, joins c next = false) (String.ofList [c])
      [mark kind] :=
  spells_of_starts hbrace fun rest hrest => ⟨c, rest, by simp, starts_single hc hrest⟩

lemma spells_double {c next : Char} {kind : TokenKind}
    (h : twoCharOperator c next = some kind) :
    Spells Anything (String.ofList [c, next]) [mark kind] := by
  have hbrace : kind ∉ braces := by
    unfold twoCharOperator at h
    split at h <;> cases h <;> decide
  exact spells_of_starts hbrace fun rest _ => ⟨c, next :: rest, by simp, starts_double h⟩

lemma spells_mark {c : Char} {kind : TokenKind} (hc : oneCharOperator c = some kind)
    (hbrace : kind ∉ braces) (hjoins : ∀ next, joins c next = false) :
    Spells Anything (String.ofList [c]) [mark kind] :=
  (spells_single hc hbrace).mono fun _ _ next _ => hjoins next

lemma spells_spaced {symbol : String} {kind : TokenKind} (hbrace : kind ∉ braces)
    (h : (∃ c, symbol = .ofList [c] ∧ oneCharOperator c = some kind ∧ joins c ' ' = false) ∨
      ∃ c next, symbol = .ofList [c, next] ∧ twoCharOperator c next = some kind) :
    Spells Anything (symbol ++ " ") [mark kind] := by
  rcases h with ⟨c, rfl, hc, hjoins⟩ | ⟨c, next, rfl, h⟩
  · refine (spells_single hc hbrace).append spells_blank fun rest _ next hnext => ?_
    cases hnext
    exact hjoins
  · exact (spells_double h).append spells_blank fun _ _ => trivial

lemma spells_binary (op : BinaryOperator) : Spells Anything (op.symbol ++ " ") [mark op.token] := by
  apply spells_spaced
  · cases op <;> decide
  · cases op <;> first | exact .inl ⟨_, rfl, rfl, rfl⟩ | exact .inr ⟨_, _, rfl, rfl⟩

lemma spells_assign (op : AssignOperator) : Spells Anything (op.symbol ++ " ") [mark op.token] := by
  apply spells_spaced
  · cases op <;> decide
  · cases op <;> first | exact .inl ⟨_, rfl, rfl, rfl⟩ | exact .inr ⟨_, _, rfl, rfl⟩

lemma spells_step (op : StepOperator) : Spells Anything op.symbol [mark op.token] := by
  cases op
  · exact @spells_double '+' '+' .plusPlus rfl
  · exact @spells_double '-' '-' .minusMinus rfl

lemma spells_sign (op : UnaryOperator) : Spells Unjoined op.symbol [mark op.token] := by
  have hjoins {c next : Char} (hc : c = '+' ∨ c = '-' ∨ c = '!')
      (h : next ≠ '+' ∧ next ≠ '-' ∧ next ≠ '=') : joins c next = false := by
    have htwo : twoCharOperator c next = none := by
      unfold twoCharOperator
      split <;> simp_all
    rcases hc with rfl | rfl | rfl <;> simp [joins, htwo]
  have hsingle {c : Char} {kind : TokenKind} (hc : oneCharOperator c = some kind)
      (hbrace : kind ∉ braces) (h : c = '+' ∨ c = '-' ∨ c = '!') :
      Spells Unjoined (.ofList [c]) [mark kind] :=
    (spells_single hc hbrace).mono fun rest hrest next hnext => hjoins h (hrest next hnext)
  cases op
  · exact hsingle (c := '-') rfl (by decide) (by simp)
  · exact hsingle (c := '+') rfl (by decide) (by simp)
  · exact hsingle (c := '!') rfl (by decide) (by simp)

lemma Apart.isNameChar {rest : List Char} (h : Apart rest) :
    ∀ c ∈ rest.head?, Lexeme.isNameChar c = false :=
  fun c hc => (h c hc).1

def IsName (s : String) : Prop :=
  (isSigiled s.toList = true ∧ s.toList ≠ includeWord) ∨
    (Script.isBare s = true ∧ TokenKind.keyword? s = none)

lemma exists_of_isBare {s : String} (h : Script.isBare s = true) :
    ∃ c tail, s.toList = c :: tail ∧ isNameStart c = true ∧
      ∀ d ∈ c :: tail, isNameChar d = true := by
  unfold Script.isBare at h
  split at h
  · cases h
  · next c tail heq =>
    simp only [Bool.and_eq_true, List.all_eq_true] at h
    exact ⟨c, tail, heq, h⟩

lemma exists_of_isSigiled {cs : List Char} (h : isSigiled cs = true) :
    ∃ c tail, cs = c :: tail ∧ isSigil c = true ∧ tail ≠ [] ∧ ∀ d ∈ tail, isNameChar d = true := by
  unfold isSigiled at h
  split at h
  · next c tail =>
    simp only [Bool.and_eq_true, List.all_eq_true] at h
    exact ⟨c, tail, rfl, h.1.1, by simpa using h.1.2, h.2⟩
  · cases h

lemma mem_keywords {s : String} {kind : TokenKind} (h : TokenKind.keyword? s = some kind) :
    (s, kind) ∈ TokenKind.keywords := by
  rw [TokenKind.keyword?, List.lookup_eq_some_iff] at h
  obtain ⟨before, after, heq, -⟩ := h
  simp [heq]

lemma starts_bare {s : String} {shape : Shape} {rest : List Char} (h : Script.isBare s = true)
    (hshape : (∃ kind, TokenKind.keyword? s = some kind ∧ shape = mark kind) ∨
      TokenKind.keyword? s = none ∧ shape = name s) (hrest : Apart rest) :
    ∃ c tail, s.toList ++ rest = c :: tail ∧ Starts c tail shape rest := by
  obtain ⟨c, tail, hs, hstart, hall⟩ := exists_of_isBare h
  have hword : word (c :: (tail ++ rest)) =
      { kind := shape.1, value := shape.2, chars := s.toList, rest } := by
    rw [word, ← List.cons_append, Text.takeWhile_apart hall hrest.isNameChar,
      Text.dropWhile_apart hall hrest.isNameChar, ← hs, String.ofList_toList]
    rcases hshape with ⟨kind, hkind, rfl⟩ | ⟨hkind, rfl⟩ <;> simp [hkind]
  have hkind : shape.1 ∉ [.startTag, .endTag, .endOfFile] := by
    rcases hshape with ⟨kind, hkind, rfl⟩ | ⟨-, rfl⟩
    · have hall : ∀ w ∈ TokenKind.keywords, w.2 ∉ [.startTag, .endTag, .endOfFile] := by decide
      exact hall _ (mem_keywords hkind)
    · simp
  exact ⟨c, tail ++ rest, by simp [hs], solid_of_isNameStart hstart,
    fun previous => ⟨s.toList, (code_word hstart).trans hword⟩, by simp, hkind⟩

lemma spells_keyword {s : String} {kind : TokenKind} (h : TokenKind.keyword? s = some kind) :
    Spells Apart s [mark kind] := by
  have hall : ∀ w ∈ TokenKind.keywords, Script.isBare w.1 = true ∧ w.2 ∉ braces := by decide
  obtain ⟨hbare, hbrace⟩ := hall _ (mem_keywords h)
  exact spells_of_starts hbrace fun _ => starts_bare hbare (.inl ⟨kind, h, rfl⟩)

lemma startsInclude_sigiled {cs rest : List Char} (h : isSigiled cs = true) (hcs : cs ≠ includeWord)
    (hrest : Apart rest) : startsInclude (cs ++ rest) = false := by
  obtain ⟨c, tail, rfl, hsigil, htail, hall⟩ := exists_of_isSigiled h
  rw [startsInclude, Bool.and_eq_false_imp]
  intro hinclude
  rw [List.isPrefixOf_iff_prefix] at hinclude
  rcases List.prefix_or_prefix_of_prefix hinclude (List.prefix_append _ rest) with hp | hp
  · obtain ⟨more, hmore⟩ := hp
    obtain ⟨d, more, rfl⟩ := List.exists_cons_of_ne_nil (l := more) (by rintro rfl; simp_all)
    have htail : includeWord.tail ++ d :: more = tail := congrArg List.tail hmore
    have hd : isNameChar d = true := hall d (by simp [← htail])
    have hlength : includeWord.length = 8 := rfl
    rw [← hmore, List.append_assoc, ← hlength, List.drop_left]
    simp [hd]
  · -- the directive would have to go on in what follows, but its letters belong to names
    obtain ⟨more, hmore⟩ := hp
    obtain ⟨d, more, rfl⟩ := List.exists_cons_of_ne_nil (l := more) (by rintro rfl; simp_all)
    rw [← hmore, List.prefix_append_right_inj] at hinclude
    obtain ⟨after, rfl⟩ := hinclude
    have htail : tail ++ d :: more = includeWord.tail := congrArg List.tail hmore
    have hletters : includeWord.tail.all isNameChar = true := by decide
    have hd := List.all_eq_true.mp hletters d (by simp [← htail])
    exact absurd (hrest d rfl).1 (by simp [hd])

lemma spells_name {s : String} (h : IsName s) : Spells Apart s [name s] := by
  refine spells_of_starts (by simp [braces]) fun rest hrest => ?_
  rcases h with ⟨hsigiled, hinclude⟩ | ⟨hbare, hkeyword⟩
  · have hdirective := startsInclude_sigiled hsigiled hinclude hrest
    obtain ⟨c, tail, hs, hsigil, htail, hall⟩ := exists_of_isSigiled hsigiled
    have hc : c = '$' ∨ c = '#' := by simpa [isSigil] using hsigil
    have hsolid : Solid c (tail ++ rest) := by
      rcases hc with rfl | rfl <;> exact ⟨by decide, by simp⟩
    refine ⟨c, tail ++ rest, by simp [hs], hsolid, fun previous => ⟨c :: tail, ?_⟩, by simp,
      by simp⟩
    have hsigiled : sigiled c (tail ++ rest) =
        { kind := .identifier, value := .text s, chars := c :: tail, rest } := by
      rw [sigiled, Text.takeWhile_apart hall hrest.isNameChar, Text.dropWhile_apart hall hrest.isNameChar,
        ← hs]
      simp [htail]
    rw [hs] at hdirective
    rcases hc with rfl | rfl <;> simp_all [code]
  · exact starts_bare hbare (.inr ⟨hkeyword, rfl⟩) hrest

lemma quotedInside_quoteChar (cs rest : List Char) (content : Array Char) (n : Nat) :
    quotedInside content n (cs.flatMap Script.quoteChar ++ '"' :: rest) =
      some (content ++ cs.toArray, n + (cs.flatMap Script.quoteChar).length + 1) := by
  induction cs generalizing content n with
  | nil => simp [quotedInside]
  | cons c cs ih =>
    have hpush : content.push c ++ cs.toArray = content ++ (c :: cs).toArray := by simp
    rw [List.flatMap_cons, List.append_assoc]
    by_cases hescaped : c = '"' ∨ c = '\\' ∨ c = '\n' ∨ c = '\t'
    · rcases hescaped with rfl | rfl | rfl | rfl <;>
        simp only [Script.quoteChar, List.cons_append, List.nil_append, quotedInside, ih, hpush,
          List.length_cons] <;>
        simp only [Option.some.injEq, Prod.mk.injEq, true_and] <;> omega
    · have hquote : Script.quoteChar c = [c] := by
        unfold Script.quoteChar
        split <;> simp_all
      rw [hquote, List.singleton_append, quotedInside, ih, hpush]
      · simp only [List.singleton_append, List.length_cons, Option.some.injEq, Prod.mk.injEq,
          true_and]
        omega
      all_goals tauto

lemma kind_shape_quoted (s : String) :
    (Shape.quoted s).1 = .identifier ∨ (Shape.quoted s).1 = .stringLiteral := by
  unfold Shape.quoted
  split <;> simp

lemma spells_quote (s : String) : Spells Anything (Script.quote s) [quoted s] := by
  have hkind := kind_shape_quoted s
  refine spells_of_starts (by rcases hkind with h | h <;> simp [h, braces]) fun rest _ => ?_
  have hinside := quotedInside_quoteChar s.toList rest #[] 0
  have hquote : Script.quote s = .ofList ('"' :: (s.toList.flatMap Script.quoteChar ++ ['"'])) :=
    rfl
  generalize s.toList.flatMap Script.quoteChar = body at hinside hquote
  refine ⟨'"', body ++ '"' :: rest, by simp [hquote], ⟨by decide, by simp⟩,
    fun previous => ⟨'"' :: (body ++ ['"']), ?_⟩, by simp; omega, ?_⟩
  · have hcode (cs : List Char) : code previous '"' cs = Lexeme.quoted ('"' :: cs) := rfl
    rw [hcode, Lexeme.quoted, List.drop_one, List.tail_cons, hinside]
    simp [Shape.quoted, List.take_length_add_append]
  · rcases hkind with h | h <;> simp [h]

namespace Lexeme

lemma kind_quoted (cs : List Char) :
    (quoted cs).kind ∈ [.endOfFile, .identifier, .stringLiteral] := by
  unfold quoted
  split
  · simp
  · simp only
    split <;> simp

lemma kind_includeDirective (cs : List Char) :
    (includeDirective cs).kind ∈ [.includeDirective, .bad] := by
  unfold includeDirective
  simp only
  split
  · split <;> simp
  · simp

lemma kind_sigiled (c : Char) (cs : List Char) : (sigiled c cs).kind ∈ [.identifier, .bad] := by
  unfold sigiled
  simp only
  split <;> simp

lemma kind_delta (cs : List Char) : (delta cs).kind ∈ [.numericLiteral, .bad] := by
  unfold delta
  split
  split
  · split <;> simp [numeric]
  · simp

lemma kind_tag {cs : List Char} {l : Lexeme} (h : tag cs = some l) :
    l.kind ∈ [.startTag, .endTag, .endOfFile] := by
  unfold tag at h
  simp only at h
  split at h
  · cases h
    simp
  · cases h
    simp only
    split <;> simp
  · cases h

lemma kind_operator (c : Char) (cs : List Char) :
    (operator c cs).kind ∉ [.identifier, .numericLiteral, .endOfFile] := by
  have hone {kind : TokenKind} (h : oneCharOperator c = some kind) :
      kind ∉ [.identifier, .numericLiteral, .endOfFile] := by
    unfold oneCharOperator at h
    split at h <;> cases h <;> decide
  have htwo {next : Char} {kind : TokenKind} (h : twoCharOperator c next = some kind) :
      kind ∉ [.identifier, .numericLiteral, .endOfFile] := by
    unfold twoCharOperator at h
    split at h <;> cases h <;> decide
  unfold operator
  split
  · next kind h =>
    obtain ⟨next, -, h⟩ := Option.bind_eq_some_iff.mp h
    exact htwo h
  · split
    · next kind h => exact hone h
    · simp

inductive Coded (c : Char) (tail : List Char) : Lexeme → Prop
  | quoted : c = '"' → Coded c tail (Lexeme.quoted (c :: tail))
  | directive : startsInclude (c :: tail) = true → Coded c tail (includeDirective (c :: tail))
  | sigiled : isSigil c = true → startsInclude (c :: tail) = false →
    Coded c tail (Lexeme.sigiled c tail)
  | delta : c = '@' → Coded c tail (Lexeme.delta (c :: tail))
  | number : c.isDigit = true → Coded c tail (numeric [] .number (c :: tail))
  | word : isNameStart c = true → Coded c tail (Lexeme.word (c :: tail))
  | tag {l : Lexeme} : c = '<' → Lexeme.tag (c :: tail) = some l → Coded c tail l
  | operator : Coded c tail (Lexeme.operator c tail)

lemma coded (previous : Option TokenKind) (c : Char) (tail : List Char) :
    Coded c tail (code previous c tail) := by
  have hhash (h : startsInclude (c :: tail) = true) : c = '#' := by
    rw [startsInclude, Bool.and_eq_true, List.isPrefixOf_iff_prefix] at h
    obtain ⟨more, hmore⟩ := h.1
    exact (Option.some.inj (congrArg List.head? hmore : some '#' = some c)).symm
  unfold code
  simp only
  simp only [Bool.and_eq_true, beq_iff_eq, Bool.not_eq_true']
  split_ifs with hquote hinclude hsigil hat hdigit hname htag
  · exact .quoted hquote
  · exact .directive hinclude.2
  · refine .sigiled hsigil ?_
    by_contra h
    rw [Bool.not_eq_false] at h
    exact hinclude ⟨hhash h, h⟩
  · exact .delta hat
  · exact .number hdigit
  · exact .word hname
  · cases h : tag (c :: tail) with
    | none => exact .operator
    | some l => exact .tag htag.1.1 h
  · exact .operator

lemma isSigiled_of_quoted {cs : List Char} {s : String} (hkind : (quoted cs).kind = .identifier)
    (hvalue : (quoted cs).value = .text s) : isSigiled s.toList = true := by
  unfold quoted at hkind hvalue
  split at hkind
  · cases hkind
  · next content n h =>
    simp only [h, TokenValue.text.injEq] at hvalue
    rw [← hvalue, String.toList_ofList]
    by_contra hsigiled
    simp [hsigiled] at hkind

lemma isBare_of_word {c : Char} {tail : List Char} {s : String} (hc : isNameStart c = true)
    (hvalue : (word (c :: tail)).value = .text s) :
    Script.isBare s = true ∧ TokenKind.keyword? s = none := by
  unfold word at hvalue
  simp only at hvalue
  split at hvalue
  · cases hvalue
  · next hkeyword =>
    obtain rfl := TokenValue.text.inj hvalue
    refine ⟨?_, hkeyword⟩
    rw [List.takeWhile_cons_of_pos (isNameChar_of_isNameStart hc)]
    simp [Script.isBare, hc, isNameChar_of_isNameStart hc]

lemma eq_of_sigiled {c : Char} {tail : List Char} {s : String}
    (hkind : (sigiled c tail).kind = .identifier)
    (hvalue : (sigiled c tail).value = .text s) :
    s.toList = c :: tail.takeWhile isNameChar ∧ tail.takeWhile isNameChar ≠ [] := by
  unfold sigiled at hkind hvalue
  simp only at hkind hvalue
  split at hkind
  · cases hkind
  · next hname =>
    rw [if_neg hname] at hvalue
    obtain rfl := TokenValue.text.inj hvalue
    exact ⟨String.toList_ofList, by simpa using hname⟩

lemma isName_of_coded {c : Char} {tail : List Char} {s : String} {l : Lexeme} (h : Coded c tail l)
    (hkind : l.kind = .identifier) (hvalue : l.value = .text s) (hs : c :: tail <:+ s.toList) :
    IsName s := by
  cases h with
  | quoted hc =>
    -- the quote would be a character of the name
    obtain ⟨d, rest, hd, hsigil, -, hall⟩ :=
      exists_of_isSigiled (isSigiled_of_quoted hkind hvalue)
    have hmem := hs.subset (List.mem_cons_self : c ∈ c :: tail)
    rw [hd, List.mem_cons, hc] at hmem
    rcases hmem with rfl | hmem
    · exact absurd hsigil (by decide)
    · exact absurd (hall _ hmem) (by decide)
  | directive => simpa [hkind] using kind_includeDirective (c :: tail)
  | sigiled hsigil hinclude =>
    obtain ⟨hname, hne⟩ := eq_of_sigiled hkind hvalue
    have hwhole : c :: tail = s.toList := by
      refine hs.eq_of_length_le ?_
      rw [hname, List.length_cons, List.length_cons]
      exact Nat.succ_le_succ (List.takeWhile_prefix _).length_le
    refine .inl ⟨?_, fun hdirective => ?_⟩
    · rw [hname]
      simp [isSigiled, hsigil, hne]
    · rw [hwhole, hdirective] at hinclude
      exact absurd hinclude (by decide)
  | delta => simpa [hkind] using kind_delta (c :: tail)
  | number => simp [numeric] at hkind
  | word hstart => exact .inr (isBare_of_word hstart hvalue)
  | tag _ htag => simpa [hkind] using kind_tag htag
  | operator => simpa [hkind] using kind_operator c tail

end Lexeme

theorem isIdentifier_iff {s : String} : IsIdentifier s ↔ IsName s := by
  constructor
  · intro h
    obtain ⟨previous, c, tail, htrivia, hshape, -⟩ := ReadsAs.first h (by simp) (by simp)
    rw [Prod.mk.injEq] at hshape
    exact isName_of_coded (coded previous c tail) hshape.1.symm hshape.2.symm
      (htrivia ▸ Scanner.rest_skipTrivia_suffix (Scanner.ofString s))
  · intro h
    have hscans : Scans .start (s.toList ++ []) [name s] :=
      spells_name h trivial (fun _ => rfl) (by simp [Apart]) .nil
    rw [List.append_nil] at hscans
    exact (Scanner.tokens_scans hscans).1

/-- Scanning undoes quoting. A text in quotes is one token that says the text, an identifier if the
text is a name with its sigil, and nothing is reported. -/
theorem Scanner.tokens_quote (s : String) : ∃ t eof, tokens (Script.quote s) = ([t, eof], []) ∧
    t.kind = (if isSigiled s.toList then .identifier else .stringLiteral) ∧ t.value = .text s ∧
    eof.kind = .endOfFile := by
  have hscans : Scans .start ((Script.quote s).toList ++ []) [quoted s] :=
    spells_quote s trivial (fun _ => rfl) trivial .nil
  rw [List.append_nil] at hscans
  obtain ⟨hshapes, hquiet⟩ := tokens_scans hscans
  obtain ⟨t, eof, htokens, ht, heof⟩ : ∃ t eof, (tokens (Script.quote s)).1 = [t, eof] ∧
      t.shape = quoted s ∧ eof.shape = mark .endOfFile := by
    simpa [shapes, List.map_eq_cons_iff] using hshapes
  exact ⟨t, eof, Prod.ext htokens hquiet, congrArg Prod.fst ht, congrArg Prod.snd ht,
    congrArg Prod.fst heof⟩

lemma unjoined_name {s : String} (h : IsName s) (rest : List Char) :
    Unjoined (s.toList ++ rest) := by
  intro d hd
  rcases h with ⟨hsigiled, -⟩ | ⟨hbare, -⟩
  · obtain ⟨c, tail, hs, hsigil, -⟩ := exists_of_isSigiled hsigiled
    obtain rfl : c = d := by simpa [hs] using hd
    rcases (by simpa [isSigil] using hsigil : c = '$' ∨ c = '#') with rfl | rfl <;> decide
  · obtain ⟨c, tail, hs, hstart, -⟩ := exists_of_isBare hbare
    obtain rfl : c = d := by simpa [hs] using hd
    exact ⟨ne_of_isNameStart hstart (by decide), ne_of_isNameStart hstart (by decide),
      ne_of_isNameStart hstart (by decide)⟩

end Stagecraft
