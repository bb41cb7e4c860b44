import Stagecraft.Proofs.Script.Said

namespace Stagecraft

open Shape

section Texts

lemma apart_of {s : String}
    (h : s.toList.head?.any (fun c => !Lexeme.isNameChar c && c != '.') = true) (rest : List Char) :
    Apart (s.toList ++ rest) := by
  intro c hc
  cases hs : s.toList with
  | nil => simp [hs] at h
  | cons d tail =>
    obtain rfl : d = c := by simpa [hs] using hc
    simpa [hs] using h

lemma SpellsFrom.of_eq {start : Bool} {fits : List Char → Prop} {a : String} {s t : List Shape}
    (h : SpellsFrom start fits a s) (hs : s = t) : SpellsFrom start fits a t :=
  hs ▸ h

lemma SpellsFrom.apart {start start' : Bool} {fits : List Char → Prop} {a b : String}
    {s t : List Shape} (ha : SpellsFrom start Apart a s) (hb : SpellsFrom start' fits b t)
    (h : b.toList.head?.any (fun c => !Lexeme.isNameChar c && c != '.') = true)
    (hstart : start' = true → frees start s = true := by simp) :
    SpellsFrom start fits (a ++ b) (s ++ t) :=
  ha.append hb (fun _ _ => apart_of h _) hstart

lemma SpellsFrom.then {start start' : Bool} {fits : List Char → Prop} {a b : String}
    {s t : List Shape} (ha : SpellsFrom start Anything a s) (hb : SpellsFrom start' fits b t)
    (hstart : start' = true → frees start s = true := by simp) :
    SpellsFrom start fits (a ++ b) (s ++ t) :=
  ha.append hb (fun _ _ => trivial) hstart

lemma SpellsFrom.weaken {start : Bool} {fits : List Char → Prop} {a : String}
    {s : List Shape} (h : SpellsFrom start fits a s) (start' : Bool)
    (hstart : start = true → start' = true) : SpellsFrom start' fits a s :=
  fun _ _ _ _ hm hfree => h hm fun hs => hfree (hstart hs)

lemma spells_reserved {s : String} {kind : TokenKind} (h : TokenKind.keyword? s = some kind) :
    Spells Anything (s ++ " ") [mark kind] :=
  (spells_keyword h).apart spells_blank (by decide)

lemma spells_openParen : Spells Anything "(" [mark .openParen] :=
  spells_mark (c := '(') rfl (by decide) fun _ => rfl

lemma spells_closeParen : Spells Anything ")" [mark .closeParen] :=
  spells_mark (c := ')') rfl (by decide) fun _ => rfl

lemma spells_comma : Spells Anything ", " [mark .comma] :=
  (spells_mark (c := ',') rfl (by decide) fun _ => rfl).then spells_blank

lemma spells_semicolon : Spells Anything ";" [mark .semicolon] :=
  spells_mark (c := ';') rfl (by decide) fun _ => rfl

lemma spells_colon : Spells Anything ":\n" [mark .colon] :=
  (spells_mark (c := ':') rfl (by decide) fun _ => rfl).then spells_newline

def inner : List Mode → List Mode
  | .embedded depth :: outer => .embedded (depth + 1) :: outer
  | modes => modes

lemma isCode_inner {modes : List Mode} (hm : IsCode modes) : IsCode (inner modes) := by
  unfold IsCode at hm
  split at hm
  · trivial
  · exact Nat.le_add_left 1 _
  · exact hm.elim

lemma after_openBrace {modes : List Mode} {free : Bool} (hm : IsCode modes) :
    (Point.code modes free).after (mark .openBrace) = .code (inner modes) true := by
  unfold IsCode at hm
  split at hm
  · rfl
  · rfl
  · exact hm.elim

lemma after_closeBrace {modes : List Mode} {free : Bool} (hm : IsCode modes) :
    (Point.code (inner modes) free).after (mark .closeBrace) = .code modes true := by
  unfold IsCode at hm
  split at hm
  · rfl
  · next depth outer =>
    have hdepth : ¬depth + 1 ≤ 1 := by omega
    simp [Point.after, Point.modes, inner, Scanner.modesAfter, hdepth, Point.of,
      Lexeme.endsOperand]
  · exact hm.elim

lemma SpellsFrom.braced {a : String} {s : List Shape} (h : SpellsFrom true Anything a s) :
    Spells Anything ("\x7b\n" ++ a ++ "\x7d") (mark .openBrace :: (s ++ [mark .closeBrace])) := by
  intro modes free rest ss hm _ hrest hss
  rw [frees, List.getLast?_cons, List.getLast?_concat] at hss
  have hstarts {c : Char} {kind : TokenKind} (hc : Lexeme.oneCharOperator c = some kind)
      (hjoins : ∀ next, Lexeme.joins c next = false) (rest : List Char) :
      Lexeme.Starts c rest (mark kind) rest :=
    Lexeme.starts_single hc fun next _ => hjoins next
  have hclose : Scans (.code (inner modes) (frees true s)) ("\x7d".toList ++ rest)
      (mark .closeBrace :: ss) :=
    .token (isCode_inner hm) (hstarts (c := '\x7d') rfl (fun _ => rfl) rest)
      (after_closeBrace hm ▸ hss)
  have hinside := h (isCode_inner hm) (fun _ => rfl) trivial hclose
  have hopen : Scans (.code modes free) ('\x7b' :: '\n' :: (a.toList ++ ("\x7d".toList ++ rest)))
      (mark .openBrace :: (s ++ mark .closeBrace :: ss)) :=
    .token hm (hstarts (c := '\x7b') rfl (fun _ => rfl) _)
      (after_openBrace hm ▸ .blank (isCode_inner hm) (by decide) hinside)
  simpa [String.toList_append, List.append_assoc] using hopen

lemma SpellsFrom.embedded {a : String} {s : List Shape} (h : SpellsFrom true Anything a s)
    (lineStart : Bool) :
    Says lineStart false ("\x7b\n" ++ a ++ "\x7d").toList
      (mark .openBrace :: (s ++ [mark .closeBrace])) := by
  intro outer rest ss hss
  have hm : IsCode (.embedded 1 :: .dialogue :: outer) := Nat.le_refl 1
  have hclose : Scans (.code (.embedded 1 :: .dialogue :: outer) (frees true s))
      ("\x7d".toList ++ rest) (mark .closeBrace :: ss) :=
    .token hm (Lexeme.starts_single (c := '\x7d') rfl fun _ _ => rfl) hss
  have hopen : Scans (.dialogue outer lineStart)
      ('\x7b' :: '\n' :: (a.toList ++ ("\x7d".toList ++ rest)))
      (mark .openBrace :: (s ++ mark .closeBrace :: ss)) :=
    .said (l := { kind := .openBrace, chars := ['\x7b'], rest := _ }) rfl (by simp) rfl rfl
      (Nat.le_refl _) (by simp) (.blank hm (by decide) (h hm (fun _ => rfl) trivial hclose))
  simpa [String.toList_append, List.append_assoc] using hopen

end Texts

section Trees

variable {same : Float → Float → Prop}

lemma isNumeral_delta (x : Float) : IsNumeral ("@" ++ Number.display x).toList := by
  rw [String.toList_append]
  exact (isNumeral_of_all (by decide)).append (isNumeral_display x)

lemma Literal.spells {value : Literal} (h : value.Legible same) :
    Spells Apart value.render [value.shape] := by
  cases value with
  | null => exact spells_keyword (s := "null") rfl
  | flag b =>
    cases b
    · exact spells_keyword (s := "false") rfl
    · exact spells_keyword (s := "true") rfl
  | number x =>
    obtain ⟨y, -, hy⟩ := h
    rw [shape_number hy]
    exact spells_numeral hy (isNumeral_display x)
  | delta x =>
    obtain ⟨y, -, hy⟩ := h
    rw [shape_delta hy]
    exact spells_numeral hy (isNumeral_delta x)
  | text s =>
    have hs : quoted s = (text s).shape := by
      rw [quoted, show Lexeme.isSigiled s.toList = false from h]
      rfl
    rw [← hs]
    exact (spells_quote s).mono fun _ _ => trivial

lemma unjoined_of {s : String} {c : Char} {tail : List Char} (hs : s.toList = c :: tail)
    (hc : c ≠ '+' ∧ c ≠ '-' ∧ c ≠ '=') (rest : List Char) : Unjoined (s.toList ++ rest) := by
  intro d hd
  obtain rfl : c = d := by simpa [hs] using hd
  exact hc

lemma unjoined_numeral {text : String} {value : TokenValue}
    (h : ReadsAs text (.numericLiteral, value)) (htext : IsNumeral text.toList)
    (rest : List Char) : Unjoined (text.toList ++ rest) := by
  obtain ⟨c, tail, hc, hopening⟩ := opening_numeral h htext
  refine unjoined_of hc ?_ rest
  refine ⟨?_, ?_, ?_⟩ <;> rintro rfl <;> exact absurd hopening (by decide)

lemma Literal.unjoined {value : Literal} (h : value.Legible same) (rest : List Char) :
    Unjoined (value.render.toList ++ rest) := by
  cases value with
  | null => exact unjoined_of rfl (by decide) rest
  | flag b => cases b <;> exact unjoined_of rfl (by decide) rest
  | number x =>
    obtain ⟨y, -, hy⟩ := h
    exact unjoined_numeral hy (isNumeral_display x) rest
  | delta x =>
    obtain ⟨y, -, hy⟩ := h
    exact unjoined_numeral hy (isNumeral_delta x) rest
  | text s => exact unjoined_of String.toList_ofList (by decide) rest

namespace Expression

lemma spells_wrap {needed : Bool} {s : String} {ss : List Shape} (h : Spells Apart s ss) :
    Spells Apart (wrap needed s) (enclose needed ss) := by
  cases needed
  · exact h
  · exact ((spells_openParen.then h).apart spells_closeParen (by decide)).mono fun _ _ => trivial

lemma unjoined_wrap {e : Expression} (h : e.Legible same) (rest : List Char) :
    Unjoined ((wrap (e.precedence < 9) e.render).toList ++ rest) := by
  by_cases hwrap : e.precedence < 9
  · simp only [hwrap, decide_true, wrap, if_true, String.append_assoc]
    rw [String.toList_append, List.append_assoc]
    exact unjoined_of rfl (by decide) _
  · simp only [hwrap, decide_false, wrap, Bool.false_eq_true, if_false]
    obtain ⟨_, value, rfl⟩ | ⟨_, n, rfl⟩ | ⟨_, callee, arguments, rfl⟩ :=
      primary_of_precedence (Nat.not_lt.mp hwrap)
    · exact Literal.unjoined h rest
    · exact unjoined_name (isIdentifier_iff.mp h) rest
    · rw [render, String.append_assoc, String.append_assoc, String.toList_append,
        List.append_assoc]
      exact unjoined_name (isIdentifier_iff.mp h.1) _

lemma append_spaced (a op b : String) :
    a ++ " " ++ op ++ " " ++ b = a ++ " " ++ (op ++ " ") ++ b := by
  simp only [String.append_assoc]

lemma wrap_unary (e : Expression) :
    (e.isUnary || decide (e.precedence < unaryPrecedence)) = decide (e.precedence < 9) := by
  cases e with
  | binary _ op a b => cases op <;> rfl
  | _ => rfl

mutual

theorem spells {e : Expression} (h : e.Legible same) : Spells Apart e.render e.shapes := by
  cases e with
  | literal _ value => exact Literal.spells h
  | name _ n => exact spells_name (isIdentifier_iff.mp h)
  | unary _ op e =>
    rw [render, wrap_unary]
    exact (spells_sign op).append (spells_wrap (spells h)) fun rest _ =>
      unjoined_wrap (e := e) h rest
  | binary _ op a b =>
    rw [render, append_spaced]
    have hleft : Spells Apart (wrap (a.precedence < op.precedence) a.render) _ :=
      spells_wrap (spells h.1)
    have hoperator := (hleft.apart spells_blank (by decide)).then (spells_binary op)
    exact (hoperator.then (spells_wrap (spells h.2))).of_eq (by simp [shapes])
  | assign _ target op e =>
    rw [render, append_spaced]
    have htarget := (spells_name (isIdentifier_iff.mp h.1)).apart spells_blank (by decide)
    exact (htarget.then (spells_assign op)).then (spells h.2)
  | step _ target op =>
    refine ((spells_name (isIdentifier_iff.mp h)).apart (spells_step op) ?_).mono
      fun _ _ => trivial
    cases op <;> decide
  | call _ callee arguments =>
    have hcallee := (spells_name (isIdentifier_iff.mp h.1)).apart spells_openParen (by decide)
    exact ((hcallee.then (spells_arguments h.2)).apart spells_closeParen (by decide)).mono
      fun _ _ => trivial

theorem spells_arguments {es : List Expression} (h : AllLegible same es) :
    Spells Apart (renderArguments es) (argumentShapes es) := by
  cases es with
  | nil => exact fun _ _ _ _ _ _ _ hss => hss
  | cons e rest =>
    cases rest with
    | nil => exact spells h.1
    | cons e' rest =>
      refine (((spells h.1).apart spells_comma (by decide)).then
        (spells_arguments h.2)).of_eq ?_
      simp [argumentShapes]

end

end Expression

lemma spells_label {s : String} (hkeyword : TokenKind.keyword? s = none)
    (hinclude : s.toList ≠ Lexeme.includeWord) :
    Spells Apart (Script.label s) [label s] := by
  unfold Script.label label
  split
  · next hname =>
    refine spells_name ?_
    rw [Bool.or_eq_true] at hname
    exact hname.elim (fun h => .inr ⟨h, hkeyword⟩) fun h => .inl ⟨h, hinclude⟩
  · exact (spells_quote s).mono fun _ _ => trivial

lemma spells_if : Spells Anything "if (" [mark .ifWord, mark .openParen] :=
  (spells_reserved (s := "if") rfl).then spells_openParen

lemma spells_while : Spells Anything "while (" [mark .whileWord, mark .openParen] :=
  (spells_reserved (s := "while") rfl).then spells_openParen

lemma spells_close : Spells Anything ")\n" [mark .closeParen] :=
  spells_closeParen.then spells_newline

lemma spells_else : Spells Anything "\nelse\n" [mark .elseWord] :=
  (spells_newline.then (spells_keyword (s := "else") rfl)).apart spells_newline (by decide)

lemma spells_select : Spells Anything "select\n" [mark .select] :=
  (spells_keyword (s := "select") rfl).apart spells_newline (by decide)

mutual

theorem Statement.Legible.stable {s : Statement} (h : s.Legible same) :
    s.Stable same ∧ s.isDialogue = false := by
  cases s with
  | block _ b => exact ⟨Block.Legible.stable h, rfl⟩
  | ifThen _ c s =>
    obtain ⟨hs, hdialogue⟩ := Statement.Legible.stable h.2
    exact ⟨⟨h.1, hs, hdialogue⟩, rfl⟩
  | ifElse _ c s t =>
    obtain ⟨hc, hs, ht, hopen⟩ := h
    obtain ⟨hs, hdialogue⟩ := Statement.Legible.stable hs
    exact ⟨⟨hc, hs, hdialogue, (Statement.Legible.stable ht).1, hopen⟩, rfl⟩
  | loop _ c s =>
    obtain ⟨hs, hdialogue⟩ := Statement.Legible.stable h.2
    exact ⟨⟨h.1, hs, hdialogue⟩, rfl⟩
  | select _ cases => exact ⟨Choice.AllLegible.stable h, rfl⟩
  | ret _ value => cases value <;> exact ⟨h, rfl⟩
  | dialogue _ d => exact h.elim
  | _ => exact ⟨h, rfl⟩

theorem Statement.AllLegible.stable {ss : List Statement} (h : Statement.AllLegible same ss) :
    Statement.AllStable same ss := by
  cases ss with
  | nil => trivial
  | cons s rest => exact ⟨(Statement.Legible.stable h.1).1, Statement.AllLegible.stable h.2⟩

theorem Block.Legible.stable {b : Block} (h : b.Legible same) : b.Stable same := by
  cases b with
  | mk _ ss => exact Statement.AllLegible.stable h

theorem Choice.AllLegible.stable {cases : List Choice} (h : Choice.AllLegible same cases) :
    Choice.AllStable same cases := by
  cases cases with
  | nil => trivial
  | cons c rest =>
    obtain ⟨_, label, body⟩ := c
    obtain ⟨⟨hkeyword, hinclude, hbody⟩, hrest⟩ := h
    exact ⟨⟨hkeyword, hinclude, (Statement.Legible.stable hbody).1⟩,
      Choice.AllLegible.stable hrest⟩

end

lemma Statement.frees_shapes (free : Bool) (s : Statement) : frees free s.shapes = true := by
  have hlast (ss : List Shape) {t : Shape} (ht : Lexeme.endsOperand t.1 = false) :
      frees free (ss ++ [t]) = true := by
    rw [frees_concat, ht]
    rfl
  have happend (ss : List Shape) {t : Statement} (ht : frees (frees free ss) t.shapes = true) :
      frees free (ss ++ t.shapes) = true := by
    rw [frees_append, ht]
  cases s with
  | block _ b =>
    cases b
    exact hlast (mark .openBrace :: _) rfl
  | ifThen _ c s =>
    have := happend (mark .ifWord :: mark .openParen :: (c.shapes ++ [mark .closeParen]))
      (frees_shapes _ s)
    simpa [shapes] using this
  | ifElse _ c s t =>
    have := happend (mark .ifWord :: mark .openParen ::
      (c.shapes ++ mark .closeParen :: (s.shapes ++ [mark .elseWord]))) (frees_shapes _ t)
    simpa [shapes] using this
  | loop _ c s =>
    have := happend (mark .whileWord :: mark .openParen :: (c.shapes ++ [mark .closeParen]))
      (frees_shapes _ s)
    simpa [shapes] using this
  | select _ cases => exact hlast (mark .select :: mark .openBrace :: Choice.allShapes cases) rfl
  | callChapter _ target => exact hlast [mark .callChapter, quoted target] rfl
  | callScene _ target => exact hlast [mark .callScene, quoted target] rfl
  | ret _ value =>
    cases value with
    | none => rfl
    | some e => exact hlast (mark .returnWord :: e.shapes) rfl
  | exit _ => rfl
  | expression _ e => exact hlast e.shapes rfl
  | dialogue _ d =>
    obtain ⟨_, box, name, parts⟩ := d
    have := hlast ((.startTag, .text (boxTag box)) :: mark .markupLineBreak ::
      (nameShapes name ++ DialoguePart.allShapes parts)) (t := (.endTag, .text "PRE")) rfl
    simpa [shapes, Dialogue.shapes] using this
  | empty _ => rfl

def nameLine : Option String → String
  | some name => "[" ++ name ++ "]\n"
  | none => ""

lemma says_name {name : String} (h : FitsBrackets name) :
    Says true true (nameLine (some name)).toList (nameShapes (some name)) := by
  intro outer rest ss hss
  have hall : ∀ c ∈ name.toList, (c != ']') = true := by
    intro c hc
    have := h.2 c hc
    rw [bne_iff_ne]
    rintro rfl
    exact absurd this (by decide)
  have hname : name.toList.all Lexeme.isNameChar = true := List.all_eq_true.mpr h.2
  have hl : Lexeme.dialogue true '[' (name.toList ++ ']' :: '\n' :: rest) =
      { kind := .dialogueIdentifier, value := .text name,
        chars := '[' :: (name.toList ++ [']']), rest := '\n' :: rest } := by
    simp [Lexeme.dialogue, Lexeme.dialogueName_of_first hall, h.1, hname]
  have hbreak : Scans (.dialogue outer false) (['\n'] ++ rest) (mark .markupLineBreak :: ss) :=
    says_newline hss
  have hline : Scans (.dialogue outer true) ('[' :: (name.toList ++ ']' :: '\n' :: rest))
      ((.dialogueIdentifier, .text name) :: mark .markupLineBreak :: ss) :=
    .said hl (by simp) rfl rfl (by simp; omega) (by simp) hbreak
  simpa [String.toList_append, nameShapes, nameLine] using hline

lemma says_nameLine {name : Option String} (h : ∀ n, name = some n → FitsBrackets n) :
    Says true true (nameLine name).toList (nameShapes name) := by
  cases name with
  | none => exact fun _ _ _ hss => hss
  | some name => exact says_name (h name rfl)

mutual

theorem Statement.spells {s : Statement} (h : s.Stable same) :
    SpellsFrom s.isDialogue Anything s.render s.shapes := by
  cases s with
  | block _ b => exact Block.spells h
  | ifThen _ c s =>
    obtain ⟨hc, hs, hdialogue⟩ := h
    have hcondition := (spells_if.then (Expression.spells hc)).apart spells_close (by decide)
    exact (hcondition.then (Statement.spells hs) (by simp [hdialogue])).of_eq
      (by simp [Statement.shapes])
  | ifElse _ c s t =>
    obtain ⟨hc, hs, hdialogue, ht, -⟩ := h
    have hcondition := (spells_if.then (Expression.spells hc)).apart spells_close (by decide)
    have hthen := hcondition.then (Statement.spells hs) (by simp [hdialogue])
    exact ((hthen.then spells_else).then (Statement.spells ht) fun _ => by
      rw [frees_concat]; rfl).of_eq (by simp [Statement.shapes])
  | loop _ c s =>
    obtain ⟨hc, hs, hdialogue⟩ := h
    have hcondition := (spells_while.then (Expression.spells hc)).apart spells_close (by decide)
    exact (hcondition.then (Statement.spells hs) (by simp [hdialogue])).of_eq
      (by simp [Statement.shapes])
  | select _ cases =>
    have hcases := ((Choice.spells_all h).weaken true (by simp)).braced
    have hselect := spells_select.then hcases
    rw [← String.append_assoc, ← String.append_assoc] at hselect
    exact hselect
  | callChapter _ target =>
    exact ((spells_reserved (s := "call_chapter") rfl).then (spells_quote target)).then
      spells_semicolon
  | callScene _ target =>
    exact ((spells_reserved (s := "call_scene") rfl).then (spells_quote target)).then
      spells_semicolon
  | ret _ value =>
    cases value with
    | none => exact (spells_keyword (s := "return") rfl).apart spells_semicolon (by decide)
    | some e =>
      exact ((spells_reserved (s := "return") rfl).then (Expression.spells h)).apart
        spells_semicolon (by decide)
  | exit _ => exact (spells_keyword (s := "break") rfl).apart spells_semicolon (by decide)
  | expression _ e => exact (Expression.spells h).apart spells_semicolon (by decide)
  | dialogue _ d => exact Dialogue.spells h
  | empty _ => exact spells_semicolon

theorem Statement.spells_all {ss : List Statement} (h : Statement.AllStable same ss) :
    SpellsFrom true Anything (Statement.renderAll ss) (Statement.allShapes ss) := by
  cases ss with
  | nil => exact fun _ _ _ _ _ _ _ hss => hss
  | cons s rest =>
    have hline := ((Statement.spells h.1).weaken true (by simp)).then spells_newline
    exact (hline.then (Statement.spells_all h.2) fun _ => by
      rw [List.append_nil, Statement.frees_shapes]).of_eq (by simp [Statement.allShapes])

theorem Block.spells {b : Block} (h : b.Stable same) : Spells Anything b.render b.shapes := by
  cases b with
  | mk _ ss => exact (Statement.spells_all h).braced

theorem Choice.spells {c : Choice} (h : c.Stable same) : Spells Anything c.render c.shapes := by
  cases c with
  | mk _ name body =>
    have hlabel := ((spells_reserved (s := "case") rfl).then
      (spells_label h.1 h.2.1)).apart spells_colon (by decide)
    have hbody := hlabel.then (Statement.spells h.2.2) fun _ => by rw [frees_concat]; rfl
    exact (hbody.then spells_newline).of_eq (by simp [Choice.shapes])

theorem Choice.spells_all {cases : List Choice} (h : Choice.AllStable same cases) :
    Spells Anything (Choice.renderAll cases) (Choice.allShapes cases) := by
  cases cases with
  | nil => exact fun _ _ _ _ _ _ _ hss => hss
  | cons c rest => exact (Choice.spells h.1).then (Choice.spells_all h.2)

theorem Dialogue.spells {d : Dialogue} (h : d.Stable same) :
    SpellsFrom true Anything d.render d.shapes := by
  obtain ⟨node, box, name, parts⟩ := d
  obtain ⟨hbox, hname, hparts⟩ := h
  intro modes free rest ss hm hfree _ hss
  rw [show frees free (Dialogue.mk node box name parts).shapes = true from
    Statement.frees_shapes free (.dialogue node _)] at hss
  obtain rfl : free = true := hfree rfl
  have hend : Scans (.dialogue modes true) ("</PRE>".toList ++ rest)
      ((.endTag, .text "PRE") :: ss) :=
    scans_closing hm hss
  have hinside := ((says_nameLine hname).append (DialoguePart.says_all hparts)) hend
  have hopen := scans_opening hm hbox (says_newline hinside)
  have htag : (if box.isEmpty = true then "<PRE>\n" else "<PRE " ++ box ++ ">\n").toList =
      '<' :: ((boxTag box).toList ++ ['>', '\n']) := by
    unfold boxTag
    split
    · rfl
    · simp [String.toList_append]
  have hrender : (Dialogue.mk node box name parts).render =
      (if box.isEmpty = true then "<PRE>\n" else "<PRE " ++ box ++ ">\n") ++ nameLine name ++
        DialoguePart.renderAll parts ++ "</PRE>" := by
    cases name <;> rfl
  rw [hrender, String.toList_append, String.toList_append, String.toList_append, htag]
  simpa [Dialogue.shapes, List.append_assoc] using hopen

theorem DialoguePart.says_all {nameless text : Bool} {parts : List DialoguePart}
    (h : DialoguePart.AllStable same nameless text parts) :
    Says true true (DialoguePart.renderAll parts).toList (DialoguePart.allShapes parts) := by
  cases parts with
  | nil => exact fun _ _ _ hss => hss
  | cons part rest =>
    rw [DialoguePart.renderAll, String.toList_append]
    cases part with
    | markup pieces span =>
      obtain ⟨-, hsteady, -, -, hrest⟩ := h
      rw [DialoguePart.render, String.toList_append]
      exact hsteady.speaks.1.append (DialoguePart.says_all hrest)
    | code body =>
      obtain ⟨hbody, hrest⟩ := h
      obtain ⟨node, ss⟩ := body
      have hcode := (Statement.spells_all hbody).embedded true
      rw [DialoguePart.render, String.toList_append]
      exact (hcode.append says_newline).append (DialoguePart.says_all hrest)

end

theorem Statement.scans {s : Statement} (h : s.Legible same) :
    Scans .start s.render.toList s.shapes := by
  have hspells := (Statement.spells h.stable.1).weaken true (by simp)
  have hscans : Scans (.code [.code] true) (s.render.toList ++ []) (s.shapes ++ []) :=
    hspells trivial (fun _ => rfl) trivial .nil
  simpa [Point.start] using hscans

lemma spells_parameters (names : List String) (h : ∀ n ∈ names, IsIdentifier n) :
    Spells Apart (Text.join ", " names) (Member.parameterShapes names) := by
  match names with
  | [] => exact fun _ _ _ _ _ _ _ hss => hss
  | [n] =>
    rw [Text.join, String.intercalate_singleton]
    exact spells_name (isIdentifier_iff.mp (h n List.mem_cons_self))
  | n :: n' :: rest =>
    have hname := spells_name (isIdentifier_iff.mp (h n List.mem_cons_self))
    have hmore := spells_parameters (n' :: rest) fun m hm => h m (List.mem_cons_of_mem n hm)
    have hboth := (hname.apart spells_comma (by decide)).then hmore
    rw [Text.join, String.intercalate_cons_cons]
    exact hboth.of_eq (by simp [Member.parameterShapes])

namespace Member

theorem spells {m : Member} (h : m.Stable same) : SpellsFrom true Anything m.render m.shapes := by
  cases m with
  | chapter _ name body =>
    have hname := (spells_reserved (s := "chapter") rfl).then
      (spells_name (isIdentifier_iff.mp h.1))
    exact ((hname.apart spells_newline (by decide)).then (Block.spells h.2)).weaken true (by simp)
  | scene _ name body =>
    have hname := (spells_reserved (s := "scene") rfl).then
      (spells_name (isIdentifier_iff.mp h.1))
    exact ((hname.apart spells_newline (by decide)).then (Block.spells h.2)).weaken true (by simp)
  | function _ name parameters body =>
    obtain ⟨hname, hparameters, hbody⟩ := h
    have hname := (spells_reserved (s := "function") rfl).then
      (spells_name (isIdentifier_iff.mp hname))
    have hlist := (hname.apart spells_openParen (by decide)).then
      (spells_parameters (parameters.map (·.name)) (by simpa using hparameters))
    have hhead := hlist.apart spells_close (by decide)
    exact ((hhead.then (Block.spells hbody)).of_eq (by simp [shapes, parameterNames])).weaken
      true (by simp)
  | dialogue d => exact Dialogue.spells h

lemma frees_shapes (free : Bool) (m : Member) : frees free m.shapes = true := by
  have hbody (ss : List Shape) (b : Block) : frees free (ss ++ b.shapes) = true := by
    rw [frees_append]
    exact Statement.frees_shapes _ (.block default b)
  cases m with
  | chapter _ name body => exact hbody [mark .chapter, Shape.name name] body
  | scene _ name body => exact hbody [mark .scene, Shape.name name] body
  | function node name parameters body =>
    have := hbody (mark .function :: Shape.name name :: mark .openParen ::
      (parameterShapes ((function node name parameters body).parameterNames) ++
        [mark .closeParen])) body
    simpa [shapes] using this
  | dialogue d => exact Statement.frees_shapes free (.dialogue default d)

theorem spells_all {ms : List Member} (h : ∀ m ∈ ms, m.Stable same) (isFirst : Bool) :
    SpellsFrom true Anything (Script.renderMembers isFirst ms) (allShapes ms) := by
  induction ms generalizing isFirst with
  | nil => exact fun _ _ _ _ _ _ _ hss => hss
  | cons m ms ih =>
    obtain ⟨hm, hms⟩ := List.forall_mem_cons.mp h
    have hgap : Spells Anything (if isFirst then "" else "\n") [] := by
      cases isFirst
      · exact spells_newline
      · exact fun _ _ _ _ _ _ _ hss => hss
    have hline := ((hgap.weaken true (by simp)).then (spells hm) fun _ => rfl).then
      spells_newline
    exact (hline.then (ih hms false) fun _ => by
      rw [List.nil_append, List.append_nil, frees_shapes]).of_eq (by simp [allShapes])

end Member

lemma quoteInside_of_fits {path : String} (h : FitsDirective path) :
    path.toList.flatMap Script.quoteChar = path.toList := by
  have hchar : ∀ c ∈ path.toList, Script.quoteChar c = [c] := by
    intro c hc
    obtain ⟨hquote, hslash, hbreak, htab⟩ := h c hc
    unfold Script.quoteChar
    split <;> simp_all
  rw [List.flatMap_congr hchar, List.flatMap_singleton']

lemma includeWord_eq : Lexeme.includeWord = ['#', 'i', 'n', 'c', 'l', 'u', 'd', 'e'] :=
  rfl

lemma code_directive (previous : Option TokenKind) {path : List Char}
    (h : ∀ c ∈ path, (c != '"' && c != '\n') = true) (rest : List Char) :
    Lexeme.code previous '#'
        ('i' :: 'n' :: 'c' :: 'l' :: 'u' :: 'd' :: 'e' :: ' ' :: '"' :: (path ++ '"' :: rest)) =
      { kind := .includeDirective, value := .text (String.ofList path),
        chars := Lexeme.includeWord ++ ' ' :: '"' :: (path ++ ['"']), rest } := by
  have htake : (path ++ '"' :: rest).takeWhile (fun c => c != '"' && c != '\n') = path :=
    Text.takeWhile_first h rfl
  have hdrop : (path ++ '"' :: rest).dropWhile (fun c => c != '"' && c != '\n') = '"' :: rest :=
    Text.dropWhile_apart h (by simp)
  have hblank : Lexeme.isNameChar ' ' = false := by decide
  have hstarts : Lexeme.startsInclude ('#' :: 'i' :: 'n' :: 'c' :: 'l' :: 'u' :: 'd' :: 'e' :: ' ' ::
      '"' :: (path ++ '"' :: rest)) = true := by
    rw [Lexeme.startsInclude, includeWord_eq]
    simp only [List.drop_succ_cons, List.drop_zero, List.head?_cons, Option.any_some, hblank]
    rfl
  rw [Lexeme.code, hstarts, includeWord_eq]
  unfold Lexeme.includeDirective
  simp [htake, hdrop]

lemma spells_directive {path : String} (h : FitsDirective path) :
    Spells Anything ("#include " ++ Script.quote path) [(.includeDirective, .text path)] := by
  have hinside : ∀ c ∈ path.toList, (c != '"' && c != '\n') = true := by
    intro c hc
    obtain ⟨hquote, -, hbreak, -⟩ := h c hc
    simp [hquote, hbreak]
  refine spells_of_starts (by simp [braces]) fun rest _ => ?_
  refine ⟨'#', 'i' :: 'n' :: 'c' :: 'l' :: 'u' :: 'd' :: 'e' :: ' ' :: '"' ::
    (path.toList ++ '"' :: rest), ?_, ⟨by decide, by simp⟩, fun previous => ?_, ?_, by simp⟩
  · simp [String.toList_append, Script.quote, quoteInside_of_fits h]
  · have hcode := code_directive previous hinside rest
    rw [String.ofList_toList] at hcode
    exact ⟨_, hcode⟩
  · simp only [List.length_cons, List.length_append]
    omega

namespace Script

theorem spells_includes {includes : List Include} (h : ∀ i ∈ includes, FitsDirective i.path)
    {text : String} {ss : List Shape} (htext : Spells Anything text ss) :
    Spells Anything
      (includes.foldl (fun text i => text ++ "#include " ++ quote i.path ++ "\n") text)
      (ss ++ includes.map fun i => (.includeDirective, .text i.path)) := by
  induction includes generalizing text ss with
  | nil => simpa using htext
  | cons i includes ih =>
    obtain ⟨hi, hincludes⟩ := List.forall_mem_cons.mp h
    have hline := (htext.then (spells_directive hi)).then spells_newline
    rw [← String.append_assoc] at hline
    exact (ih hincludes hline).of_eq (by simp)

theorem scans {s : Script} (h : s.Stable same) : Scans .start s.render.toList s.shapes := by
  have hnothing : Spells Anything "" [] := fun _ _ _ _ _ _ _ hss => hss
  have hincludes := spells_includes h.includes hnothing
  have hfree : frees true ([] ++ s.includes.map fun i => (.includeDirective, .text i.path)) =
      true := by
    obtain hnil | ⟨init, i, hlast⟩ := s.includes.eq_nil_or_concat
    · simp [hnil, frees]
    · simp [hlast, frees, Lexeme.endsOperand]
  have hfile := (hincludes.weaken true (by simp)).then
    (Member.spells_all h.members s.includes.isEmpty) fun _ => hfree
  have hscans := @hfile [.code] true [] [] trivial (fun _ => rfl) trivial .nil
  simpa [Script.render, shapes, Point.start] using hscans

end Script

end Trees

end Stagecraft
