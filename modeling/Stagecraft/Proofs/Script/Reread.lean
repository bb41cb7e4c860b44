import Stagecraft.Proofs.Script.Gathered
import Stagecraft.Proofs.Script.Parsed
import Stagecraft.Proofs.Script.Progress
import Stagecraft.Proofs.Script.Spelled

namespace Stagecraft

open Shape

def statementOpenings : List TokenKind :=
  openings ++ [.openBrace, .ifWord, .whileWord, .select, .callChapter, .callScene, .returnWord,
    .breakWord, .semicolon, .startTag]

variable {same : Float → Float → Prop}

lemma Statement.headKind_shapes {s : Statement} (h : s.Stable same) (rest : List Shape) :
    headKind (s.shapes ++ rest) ∈ statementOpenings := by
  have hmark {kind : TokenKind} {ss : List Shape} (hkind : kind ∈ statementOpenings) :
      headKind (mark kind :: ss ++ rest) ∈ statementOpenings :=
    hkind
  cases s with
  | expression _ e =>
    rw [shapes, List.append_assoc]
    exact List.mem_append_left _ (Expression.headKind_shapes h _)
  | block _ b =>
    cases b with
    | mk _ ss => exact hmark (by decide)
  | ret _ value => cases value <;> exact hmark (by decide)
  | dialogue _ d =>
    cases d with
    | mk _ box name parts =>
      have hopening : TokenKind.startTag ∈ statementOpenings := by decide
      exact hopening
  | _ => exact hmark (by decide)

lemma Statement.headKind_all {ss : List Statement} (h : AllStable same ss) (rest : List Shape) :
    headKind (allShapes ss ++ mark .closeBrace :: rest) ≠ .elseWord := by
  cases ss with
  | nil => simp [allShapes]
  | cons s ss =>
    rw [allShapes, List.append_assoc]
    exact fun helse => absurd (helse ▸ headKind_shapes h.1 _) (by decide)

lemma Choice.headKind_all (cases : List Choice) (rest : List Shape) :
    headKind (allShapes cases ++ mark .closeBrace :: rest) ≠ .elseWord := by
  cases cases with
  | nil => simp [allShapes]
  | cons c cases =>
    cases c
    simp [allShapes, shapes]

lemma Statement.shapes_ne_nil {s : Statement} (h : s.Stable same) : s.shapes ≠ [] := by
  intro hnil
  have := headKind_shapes h []
  rw [hnil] at this
  exact absurd this (by decide)

lemma DialoguePart.headKind_all {nameless text : Bool} {parts : List DialoguePart}
    (h : AllStable same nameless text parts) (rest : List Shape) :
    headKind (allShapes parts ++ (.endTag, .text "PRE") :: rest) ≠ .markupLineBreak ∧
      (nameless = true →
        headKind (allShapes parts ++ (.endTag, .text "PRE") :: rest) ≠ .dialogueIdentifier) := by
  cases parts with
  | nil => simp [allShapes]
  | cons part parts =>
    rw [allShapes, List.append_assoc]
    cases part with
    | markup pieces span =>
      obtain ⟨-, hsteady, hname, -, -⟩ := h
      obtain ⟨-, hsaid, -, hfirst⟩ := hsteady.speaks
      rw [shapes]
      cases hss : Scanner.textShapes (Markup.renderAll pieces) with
      | nil => simp [hss] at hsaid
      | cons s ss =>
        obtain ⟨hbreak, hnames⟩ := hfirst s (by rw [hss]; rfl)
        refine ⟨hbreak, fun hnameless hkind => ?_⟩
        exact Bool.false_ne_true ((hname hnameless).symm.trans (hnames hkind))
    | code body =>
      cases body
      simp [shapes, Block.shapes]

section Alike

mutual

theorem Statement.Agrees.alike {s s' : Statement} (h : s'.Agrees same s) (hs : s.Legible same) :
    s'.Alike same s := by
  cases h with
  | block hb => exact .block (Block.Agrees.alike hb hs)
  | ifThen hc ht => exact .ifThen hc (Statement.Agrees.alike ht hs.2)
  | ifElse hc ht he =>
    exact .ifElse hc (Statement.Agrees.alike ht hs.2.1) (Statement.Agrees.alike he hs.2.2.1)
  | loop hc hb => exact .loop hc (Statement.Agrees.alike hb hs.2)
  | select hcases => exact .select (Choice.Agrees.alike_all hcases hs)
  | callChapter target => exact .callChapter target
  | callScene target => exact .callScene target
  | ret hvalue => exact .ret hvalue
  | exit => exact .exit
  | expression he => exact .expression he
  | dialogue _ => exact hs.elim
  | empty => exact .empty
termination_by sizeOf s

theorem Statement.Agrees.alike_all {ss ss' : List Statement}
    (h : List.Forall₂ (Statement.Agrees same) ss' ss) (hss : Statement.AllLegible same ss) :
    List.Forall₂ (Statement.Alike same) ss' ss := by
  cases h with
  | nil => exact .nil
  | cons hs hrest =>
    exact .cons (Statement.Agrees.alike hs hss.1) (Statement.Agrees.alike_all hrest hss.2)
termination_by sizeOf ss

theorem Block.Agrees.alike {b b' : Block} (h : b'.Agrees same b) (hb : b.Legible same) :
    b'.Alike same b := by
  cases h with
  | mk hss => exact .mk (Statement.Agrees.alike_all hss hb)
termination_by sizeOf b

theorem Choice.Agrees.alike_all {cs cs' : List Choice}
    (h : List.Forall₂ (Choice.Agrees same) cs' cs) (hcs : Choice.AllLegible same cs) :
    List.Forall₂ (Choice.Alike same) cs' cs := by
  cases h with
  | nil => exact .nil
  | cons hc hrest =>
    cases hc with
    | mk label hbody =>
      exact .cons (.mk label (Statement.Agrees.alike hbody hcs.1.2.2))
        (Choice.Agrees.alike_all hrest hcs.2)
termination_by sizeOf cs

end

end Alike

namespace Parse

variable {total : Nat}

lemma boxName_boxTag {box : String} (h : FitsTag box) : boxName (boxTag box) = box := by
  unfold boxTag boxName
  split
  · next hbox =>
    obtain rfl : box = "" := by simpa using hbox
    rfl
  · have hblank : Text.isBlank 'P' = false ∧ Text.isBlank 'R' = false ∧ Text.isBlank 'E' = false ∧
        Text.isBlank ' ' = true := by decide
    simp [String.toList_append, hblank, Text.trim, Text.trim_of_isTrimmed h.1]

lemma yields_get {ss : List Shape} :
    Yields total ss get (fun p => p.taken + ss.length = total) ss :=
  fun _ hp => ⟨hp, hp.taken⟩

lemma yields_condition {fuel : Nat} {c : Expression} {rest : List Shape} (h : c.Legible same)
    (hf : 12 * c.shapes.length ≤ fuel) :
    Yields total (mark .openParen :: (c.shapes ++ mark .closeParen :: rest)) (condition fuel)
      (Expression.Alike same · c) rest :=
  (yields_expect rfl).bind fun _ _ => (yields_expression fuel h hf (closes_cons (by decide))).bind
    fun _ hc => (yields_expect rfl).bind fun _ _ => yields_pure hc

lemma yields_expressionStatement {fuel : Nat} {node : Node} {e : Expression} {rest : List Shape}
    (h : e.Legible same) (hf : 12 * e.shapes.length ≤ fuel) :
    Yields total (e.shapes ++ mark .semicolon :: rest) (statement (fuel + 1))
      (Statement.Agrees same · (.expression node e)) rest := by
  have hopening := Expression.headKind_shapes h (mark .semicolon :: rest)
  have he : Yields total (e.shapes ++ mark .semicolon :: rest) (expression fuel)
      (Expression.Alike same · e) (mark .semicolon :: rest) :=
    yields_expression fuel h hf (closes_cons (by decide))
  obtain ⟨s, ss, hss⟩ := List.exists_cons_of_ne_nil
    (List.append_ne_nil_of_left_ne_nil e.shapes_ne_nil (mark .semicolon :: rest))
  rw [hss] at hopening he ⊢
  refine yields_peek.bind fun t ht => ?_
  rw [show headKind (s :: ss) = t.kind from (congrArg Prod.fst ht).symm] at hopening
  have hdialogue : t.isDialogueStart = false := by
    have hkind : t.kind ≠ .startTag := fun hkind => absurd (hkind ▸ hopening) (by decide)
    simp [Token.isDialogueStart, hkind]
  split
  iterate 9
    next hkind =>
      rw [hkind] at hopening
      exact absurd hopening (by decide)
  rw [if_neg (by simp [hdialogue])]
  exact he.bind fun _ he => yields_endNode fun _ => .expression he

mutual

theorem restores_statement (fuel : Nat) {s : Statement} {rest : List Shape} (h : s.Stable same)
    (hf : 12 * s.shapes.length ≤ fuel) (hopen : s.endsOpen = true → headKind rest ≠ .elseWord) :
    Yields total (s.shapes ++ rest) (statement fuel) (Statement.Agrees same · s) rest := by
  have hpos := List.length_pos_iff.mpr (Statement.shapes_ne_nil h)
  cases fuel with
  | zero => omega
  | succ fuel =>
    cases s with
    | block _ b =>
      have hblock : Yields total (b.shapes ++ rest) (block fuel) (Block.Agrees same · b) rest :=
        restores_block fuel h hf
      obtain ⟨node, ss⟩ := b
      refine yields_peek_mark.bind fun t hkind => ?_
      simp only [hkind]
      exact hblock.bind fun _ hb => yields_node fun _ => .block hb
    | ifThen _ c s =>
      simp only [Statement.shapes, List.length_cons, List.length_append] at hf
      simp only [Statement.shapes, List.cons_append, List.append_assoc]
      refine yields_peek_mark.bind fun t hkind => ?_
      simp only [hkind]
      -- an `else` behind it would be read as its own
      have helse := hopen rfl
      refine yields_advance.bind fun _ _ => (yields_condition h.1 (by omega)).bind fun _ hc =>
        (restores_statement fuel h.2.1 (by omega) fun _ => helse).bind fun _ hs =>
          (yields_not_eat helse).bind fun more hmore => ?_
      rw [if_neg (by simp [hmore])]
      exact yields_node fun _ => .ifThen hc hs
    | ifElse _ c s t =>
      obtain ⟨hc, hs, -, ht, hends⟩ := h
      simp only [Statement.shapes, List.length_cons, List.length_append] at hf
      simp only [Statement.shapes, List.cons_append, List.append_assoc]
      refine yields_peek_mark.bind fun token hkind => ?_
      simp only [hkind]
      refine yields_advance.bind fun _ _ => (yields_condition hc (by omega)).bind fun _ hc =>
        (restores_statement fuel hs (by omega) (by simp [hends])).bind fun _ hs =>
          (yields_eat rfl).bind fun more hmore => ?_
      rw [if_pos hmore]
      exact (restores_statement fuel ht (by omega) hopen).bind fun _ ht =>
        yields_node fun _ => .ifElse hc hs ht
    | loop _ c s =>
      simp only [Statement.shapes, List.length_cons, List.length_append] at hf
      simp only [Statement.shapes, List.cons_append, List.append_assoc]
      refine yields_peek_mark.bind fun t hkind => ?_
      simp only [hkind]
      exact yields_advance.bind fun _ _ => (yields_condition h.1 (by omega)).bind fun _ hc =>
        (restores_statement fuel h.2.1 (by omega) hopen).bind fun _ hs =>
          yields_node fun _ => .loop hc hs
    | select _ cases =>
      simp only [Statement.shapes, List.length_cons, List.length_append] at hf
      simp only [Statement.shapes, List.cons_append, List.append_assoc, List.nil_append]
      refine yields_peek_mark.bind fun t hkind => ?_
      simp only [hkind]
      refine yields_advance.bind fun _ _ => (yields_expect rfl).bind fun opened hopened => ?_
      rw [if_pos hopened]
      exact (restores_choices fuel h .nil (by omega)).bind fun _ hcases =>
        (yields_expect rfl).bind fun _ _ => yields_node fun _ => .select hcases
    | callChapter _ target =>
      refine yields_peek_mark.bind fun t hkind => ?_
      simp only [hkind]
      refine yields_advance.bind fun _ _ => yields_quoted.bind fun _ hname =>
        yields_endNode fun _ => ?_
      rw [hname]
      exact .callChapter target
    | callScene _ target =>
      refine yields_peek_mark.bind fun t hkind => ?_
      simp only [hkind]
      refine yields_advance.bind fun _ _ => yields_quoted.bind fun _ hname =>
        yields_endNode fun _ => ?_
      rw [hname]
      exact .callScene target
    | ret _ value =>
      cases value with
      | none =>
        refine yields_peek_mark.bind fun t hkind => ?_
        simp only [hkind]
        refine yields_advance.bind fun _ _ => yields_peekKind.bind fun next hnext => ?_
        rw [if_pos (by rw [hnext]; rfl)]
        exact yields_endNode fun _ => .ret .none
      | some e =>
        simp only [Statement.shapes, List.length_cons, List.length_append] at hf
        simp only [Statement.shapes, List.cons_append, List.append_assoc, List.nil_append]
        refine yields_peek_mark.bind fun t hkind => ?_
        simp only [hkind]
        -- no expression starts with a semicolon
        have hopening := Expression.headKind_shapes (e := e) h (mark .semicolon :: rest)
        have hne : headKind (e.shapes ++ mark .semicolon :: rest) ≠ .semicolon :=
          fun hsemicolon => absurd (hsemicolon ▸ hopening) (by decide)
        refine yields_advance.bind fun _ _ => yields_peekKind.bind fun next hnext => ?_
        rw [if_neg (by simpa [hnext] using hne)]
        exact (yields_expression fuel h (by omega) (closes_cons (by decide))).bind fun _ he =>
          yields_endNode fun _ => .ret (.some he)
    | exit _ =>
      refine yields_peek_mark.bind fun t hkind => ?_
      simp only [hkind]
      exact yields_advance.bind fun _ _ => yields_endNode fun _ => .exit
    | expression _ e =>
      simp only [Statement.shapes, List.length_append, List.length_cons] at hf
      simp only [Statement.shapes, List.append_assoc, List.cons_append, List.nil_append]
      exact yields_expressionStatement h (by omega)
    | dialogue _ d =>
      have hread : Yields total (d.shapes ++ rest) (dialogue fuel) (Dialogue.Agrees same · d) rest :=
        restores_dialogue fuel h hf
      obtain ⟨node, box, name, parts⟩ := d
      refine yields_peek.bind fun t ht => ?_
      have hkind : t.kind = .startTag := congrArg Prod.fst ht
      have hstart : t.isDialogueStart = true := by
        rw [← isDialogueStart_boxTag box]
        exact Token.isDialogueStart_congr ht fun _ => ⟨boxTag box, congrArg Prod.snd ht⟩
      simp only [hkind, hstart, if_true]
      exact hread.bind fun _ hd => yields_node fun _ => .dialogue hd
    | empty _ =>
      refine yields_peek_mark.bind fun t hkind => ?_
      simp only [hkind]
      exact yields_advance.bind fun _ _ => yields_node fun _ => .empty
termination_by fuel
decreasing_by all_goals omega

theorem restores_block (fuel : Nat) {b : Block} {rest : List Shape} (h : b.Stable same)
    (hf : 12 * b.shapes.length ≤ fuel + 1) :
    Yields total (b.shapes ++ rest) (block fuel) (Block.Agrees same · b) rest := by
  cases b with
  | mk _ ss =>
    simp only [Block.shapes, List.length_cons, List.length_append] at hf
    simp only [Block.shapes, List.cons_append, List.append_assoc, List.nil_append]
    cases fuel with
    | zero => omega
    | succ fuel =>
      refine yields_freshId.bind fun _ _ => yields_peek.bind fun t ht =>
        (yields_expect rfl).bind fun opened hopened => ?_
      rw [if_pos hopened]
      exact (restores_statements fuel h .nil (by omega)).bind fun _ hss =>
        (yields_expect rfl).bind fun _ _ => yields_lastSpan.bind fun _ _ => yields_pure (.mk hss)
termination_by fuel
decreasing_by all_goals omega

theorem restores_statements (fuel : Nat) {ss done : List Statement} {found : Array Statement}
    {rest : List Shape} (h : Statement.AllStable same ss)
    (hfound : List.Forall₂ (Statement.Agrees same) found.toList done)
    (hf : 12 * (Statement.allShapes ss).length + 1 ≤ fuel) :
    Yields total (Statement.allShapes ss ++ mark .closeBrace :: rest) (statements fuel found)
      (fun r => List.Forall₂ (Statement.Agrees same) r.toList (done ++ ss))
      (mark .closeBrace :: rest) := by
  cases fuel with
  | zero => omega
  | succ fuel =>
    refine yields_peekKind.bind fun next hnext => ?_
    cases ss with
    | nil =>
      rw [if_pos (by rw [hnext]; rfl), List.append_nil]
      exact yields_pure hfound
    | cons s ss =>
      have hpos := List.length_pos_iff.mpr (Statement.shapes_ne_nil h.1)
      have hopening := Statement.headKind_shapes h.1
        (Statement.allShapes ss ++ mark .closeBrace :: rest)
      simp only [Statement.allShapes, List.length_append] at hf
      simp only [Statement.allShapes, List.append_assoc] at hnext ⊢
      have hnot : endsBlock next = false := by
        have hall : ∀ kind ∈ statementOpenings, endsBlock kind = false := by decide
        exact hnext ▸ hall _ hopening
      rw [if_neg (by simp [hnot])]
      refine yields_get.bind fun p hp => (restores_statement fuel h.1 (by omega) fun _ =>
        Statement.headKind_all h.2 rest).bind fun s' hs => yields_get.bind fun p' hp' => ?_
      have htaken : p'.taken ≠ p.taken := by
        simp only [List.length_append] at hp hp'
        omega
      rw [if_neg (by simpa using htaken)]
      have hpush : List.Forall₂ (Statement.Agrees same) (found.push s').toList (done ++ [s]) := by
        rw [Array.toList_push]
        exact List.rel_append hfound (.cons hs .nil)
      rw [List.append_cons done]
      exact restores_statements fuel h.2 hpush (by omega)
termination_by fuel
decreasing_by all_goals omega

theorem restores_choices (fuel : Nat) {cases done : List Choice} {found : Array Choice}
    {rest : List Shape} (h : Choice.AllStable same cases)
    (hfound : List.Forall₂ (Choice.Agrees same) found.toList done)
    (hf : 12 * (Choice.allShapes cases).length + 1 ≤ fuel) :
    Yields total (Choice.allShapes cases ++ mark .closeBrace :: rest) (choices fuel found)
      (fun r => List.Forall₂ (Choice.Agrees same) r.toList (done ++ cases))
      (mark .closeBrace :: rest) := by
  cases fuel with
  | zero => omega
  | succ fuel =>
    refine yields_peekKind.bind fun next hnext => ?_
    cases cases with
    | nil =>
      simp only [hnext, Choice.allShapes, List.nil_append, headKind_cons, List.append_nil]
      exact yields_pure hfound
    | cons c cases =>
      obtain ⟨node, label, body⟩ := c
      obtain ⟨⟨-, -, hbody⟩, hrest⟩ := h
      simp only [Choice.allShapes, Choice.shapes, List.length_append, List.length_cons] at hf
      simp only [Choice.allShapes, Choice.shapes, List.cons_append, List.append_assoc,
        headKind_cons] at hnext ⊢
      simp only [hnext]
      refine yields_advance.bind fun _ _ => yields_label.bind fun _ hname =>
        (yields_expect rfl).bind fun _ _ => (restores_statement fuel hbody (by omega) fun _ =>
          Choice.headKind_all cases rest).bind fun body' halike => yields_freshId.bind fun _ _ => ?_
      rw [hname]
      have hpush {node' : Node} : List.Forall₂ (Choice.Agrees same)
          (found.push (.mk node' label body')).toList (done ++ [.mk node label body]) := by
        rw [Array.toList_push]
        exact List.rel_append hfound (.cons (.mk label halike) .nil)
      rw [List.append_cons done]
      exact restores_choices fuel hrest hpush (by omega)
termination_by fuel
decreasing_by all_goals omega

theorem restores_dialogue (fuel : Nat) {d : Dialogue} {rest : List Shape} (h : d.Stable same)
    (hf : 12 * d.shapes.length ≤ fuel + 1) :
    Yields total (d.shapes ++ rest) (dialogue fuel) (Dialogue.Agrees same · d) rest := by
  cases d with
  | mk _ box name parts =>
    obtain ⟨hbox, hname, hparts⟩ := h
    simp only [Dialogue.shapes, List.length_cons, List.length_append, List.length_nil] at hf
    simp only [Dialogue.shapes, List.cons_append, List.append_assoc, List.nil_append]
    cases fuel with
    | zero => omega
    | succ fuel =>
      refine yields_advance.bind fun t ht => yields_freshId.bind fun _ _ => ?_
      have hbox : boxName t.content = box := by
        rw [Token.content_of_shape ht, boxName_boxTag hbox]
      rw [hbox]
      cases name with
      | none =>
        have hfirst := DialoguePart.headKind_all hparts rest
        refine (yields_skip hfirst.1).bind fun _ _ => yields_peekToken.bind fun next hnext => ?_
        rw [if_neg (by simpa [hnext] using hfirst.2)]
        refine (yields_pure (Q := (· = none)) rfl).bind fun name hname =>
          (restores_parts fuel hparts (gathered_none .nil) (by omega)).bind
            fun _ hdone => ?_
        rw [hname]
        exact yields_lastSpan.bind fun _ _ => yields_pure (.mk box none hdone)
      | some name =>
        simp only [nameShapes, List.length_cons, List.length_nil] at hf
        refine (yields_skip (by simp [nameShapes])).bind fun _ _ => yields_peek.bind fun next hnext => ?_
        rw [if_pos (by simp [show next.kind = .dialogueIdentifier from congrArg Prod.fst hnext]),
          Token.content_of_shape hnext]
        obtain ⟨fuel, rfl⟩ : ∃ fuel', fuel = fuel' + 1 := ⟨fuel - 1, by omega⟩
        refine yields_advance.bind fun _ _ =>
          (yields_pure (Q := (· = some name)) rfl).bind fun name' hname' => ?_
        refine (yields_gather [mark .markupLineBreak] (by simp) fun pending hpending =>
          restores_parts fuel hparts (gathered_break hpending .nil)
            (by omega)).bind fun _ hdone => ?_
        rw [hname']
        exact yields_lastSpan.bind fun _ _ => yields_pure (.mk box (some name) hdone)
termination_by fuel
decreasing_by all_goals omega

theorem restores_parts (fuel : Nat) {nameless text : Bool} {parts done : List DialoguePart}
    {found : Array DialoguePart} {pending : Pending} {rest : List Shape}
    (h : DialoguePart.AllStable same nameless text parts)
    (hfound : Gathered same found pending done text)
    (hf : 12 * (DialoguePart.allShapes parts).length + 1 ≤ fuel) :
    Yields total (DialoguePart.allShapes parts ++ (.endTag, .text "PRE") :: rest)
      (dialogueParts fuel found pending)
      (fun r => List.Forall₂ (DialoguePart.Agrees same) r.toList (done ++ parts)) rest := by
  cases parts with
  | nil =>
    obtain ⟨fuel, rfl⟩ : ∃ fuel', fuel = fuel' + 1 := ⟨fuel - 1, by omega⟩
    refine yields_peek.bind fun t ht => ?_
    have hend : t.isDialogueEnd = true := by
      have hshape : t.shape = (token (.endTag, .text "PRE")).shape := ht
      rw [Token.isDialogueEnd_congr hshape fun _ => ⟨"PRE", congrArg Prod.snd ht⟩]
      decide
    rw [if_pos hend, List.append_nil]
    exact yields_advance.bind fun _ _ => yields_flush hfound
  | cons part parts =>
    simp only [DialoguePart.allShapes, List.length_append] at hf
    simp only [DialoguePart.allShapes, List.append_assoc]
    cases part with
    | markup pieces span =>
      obtain ⟨rfl, hsteady, -, hread, hrest⟩ := h
      obtain ⟨-, hsaid, hall, -⟩ := hsteady.speaks
      cases hfound with
      | idle hpending hfound =>
        simp only [DialoguePart.shapes] at hf ⊢
        generalize Scanner.textShapes (Markup.renderAll pieces) = ss at hf hsaid hall ⊢
        have hpos : 0 < ss.length := by
          rw [List.length_pos_iff]
          rintro rfl
          exact absurd hsaid (by simp)
        -- a round of the reader for each of the tokens
        obtain ⟨fuel, rfl⟩ : ∃ fuel', fuel = fuel' + ss.length := ⟨fuel - ss.length, by omega⟩
        rw [List.append_cons done]
        refine yields_gather _ hall fun pending' hpending' => restores_parts fuel hrest ?_ (by omega)
        exact .text rfl hfound hpending (by rw [hpending', hsaid]) hsteady hread
    | code body =>
      obtain ⟨hbody, hrest⟩ := h
      simp only [DialoguePart.shapes, List.length_append, List.length_cons, List.length_nil] at hf
      obtain ⟨fuel, rfl⟩ : ∃ fuel', fuel = fuel' + 1 + 1 := ⟨fuel - 2, by omega⟩
      simp only [DialoguePart.shapes, List.append_assoc]
      have hblock (after : List Shape) : Yields total (body.shapes ++ after) (block (fuel + 1))
          (Block.Agrees same · body) after :=
        restores_block (fuel + 1) hbody (by omega)
      obtain ⟨node, ss⟩ := body
      refine yields_peek_mark.bind fun t hkind => ?_
      have hend : t.isDialogueEnd = false := by simp [Token.isDialogueEnd, hkind]
      rw [hend, if_neg Bool.false_ne_true]
      simp only [hkind]
      refine (yields_flush hfound).bind fun found' hfound' => (hblock _).bind fun body' hbody' => ?_
      rw [List.append_cons done]
      refine yields_gather [mark .markupLineBreak] (by simp) fun pending' hpending' =>
        restores_parts fuel hrest (gathered_break hpending' ?_) (by omega)
      rw [Array.toList_push]
      exact List.rel_append hfound' (.cons (.code hbody') .nil)
termination_by fuel
decreasing_by all_goals omega

end

theorem yields_statement (fuel : Nat) {s : Statement} {rest : List Shape} (h : s.Legible same)
    (hf : 12 * s.shapes.length ≤ fuel) (hopen : s.endsOpen = true → headKind rest ≠ .elseWord) :
    Yields total (s.shapes ++ rest) (statement fuel) (Statement.Alike same · s) rest := by
  intro p hp
  obtain ⟨hleft, hagrees⟩ := restores_statement fuel h.stable.1 hf hopen p hp
  exact ⟨hleft, hagrees.alike h⟩

lemma yields_expectEnd : Yields total [] expectEnd (fun _ => True) [] := by
  refine yields_peek_end.bind fun t ht => ?_
  rw [if_neg (by simp [ht])]
  exact yields_pure trivial

end Parse

lemma Parser.left_of_tokens {source : String} {ss : List Shape}
    (htokens : Scanner.shapes source = ss ++ [mark .endOfFile])
    (hquiet : (Scanner.tokens source).2 = []) : (ofString source).Left ss.length ss := by
  obtain ⟨before, last, hsplit, hbefore, hlast⟩ := List.map_eq_append_iff.mp htokens
  obtain ⟨t, rfl, ht⟩ := List.map_eq_singleton_iff.mp hlast
  have hkind : t.kind = .endOfFile := congrArg Prod.fst ht
  have hparser : ofString source = { rest := before, final := t, diagnostics := #[] } := by
    have hinner := Scanner.inner_tokens source
    rw [hsplit] at hinner
    simp [ofString, hsplit, hquiet, ofTokens_eq [] hinner, hkind]
  rw [hparser]
  exact ⟨hbefore, hkind, by simp, rfl⟩

lemma Parser.left_ofString {source : String} {ss : List Shape}
    (h : Scans .start source.toList ss) :
    (ofString source).Left ss.length ss :=
  left_of_tokens (Scanner.tokens_scans h).1 (Scanner.tokens_scans h).2

namespace Parse

def markedStatement : Statement :=
  .ifElse default
    (.binary default .less (.name default "$a") (.literal default (.number (Number.ofInt 1))))
    (.expression default (.unary default .negate (.unary default .negate (.name default "b"))))
    (.select default [.mk default "to the left" (.callScene default "$next")])

/-- The written form of a statement that is legible is read as that statement, without a report,
whatever counts as the same number. -/
theorem parseStatement_render (same : Float → Float → Prop) (s : Statement) (h : s.Legible same) :
    (parseStatement s.render).diagnostics = [] ∧
      (parseStatement s.render).value.Alike same s := by
  have hleft := Parser.left_ofString (Statement.scans h)
  have hlength : (Parser.ofString s.render).rest.length = s.shapes.length := by
    rw [← hleft.shapes, List.length_map]
  have hread : Yields s.shapes.length (s.shapes ++ []) (do
      let s' ← statement (Parser.ofString s.render).budget
      expectEnd
      pure s') (Statement.Alike same · s) [] :=
    (yields_statement _ h (by rw [Parser.budget, hlength]; omega) (by simp [headKind])).bind
      fun _ hs => yields_expectEnd.bind fun _ _ => yields_pure hs
  obtain ⟨hend, halike⟩ := hread _ (by rwa [List.append_nil])
  exact ⟨congrArg Array.toList hend.diagnostics, halike⟩

theorem parseStatement_render_sample : markedStatement.Legible Eq ∧
    (parseStatement markedStatement.render).diagnostics = [] ∧
      (parseStatement markedStatement.render).value.Alike Eq markedStatement := by
  have ha : IsIdentifier "$a" := by decide +kernel
  have hb : IsIdentifier "b" := by decide +kernel
  have hone : ReadsAs (Number.display (Number.ofInt 1))
      (.numericLiteral, .number (Number.ofInt 1)) := by decide +kernel
  have hlegible : markedStatement.Legible Eq :=
    ⟨⟨ha, Number.ofInt 1, rfl, hone⟩, hb, ⟨⟨by decide, by decide, trivial⟩, trivial⟩, rfl⟩
  exact ⟨hlegible, parseStatement_render Eq markedStatement hlegible⟩

end Parse

end Stagecraft
