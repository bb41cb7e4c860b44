import Stagecraft.Proofs.Script.Accepted
import Stagecraft.Proofs.Script.Reread

/-!
A parser that reads a text by itself and one that reads it in front of something else see the same
tokens, except that one comes to the end of the file where the other comes to what stands behind.
-/

namespace Stagecraft

open Shape

section Modes

def modesBehind (m : List Mode) (s : Shape) : List Mode :=
  (Scanner.modesAfter m false s.token).1

variable {m : List Mode} {s : Shape}

abbrev Neutral (kind : TokenKind) : Prop :=
  kind ∉ .endOfFile :: .startTag :: braces

lemma modesBehind_neutral {kind : TokenKind} (hm : IsCode m) (hkind : Neutral kind)
    (value : TokenValue) : modesBehind m (kind, value) = m := by
  simp only [Neutral, braces, List.mem_cons, List.not_mem_nil, or_false, not_or] at hkind
  have hstart : (Shape.token (kind, value)).isDialogueStart = false := by
    simp [Token.isDialogueStart, hkind.2.1]
  unfold IsCode at hm
  unfold modesBehind Scanner.modesAfter
  split at hm
  · simp [hstart]
  · simp [hstart, hkind.2.2.1, hkind.2.2.2]
  · exact hm.elim

lemma textual_of_genuine {t : Token} (h : Genuine t.shape) :
    t.kind = .startTag ∨ t.kind = .endTag → ∃ content, t.value = .text content := by
  rw [Token.shape] at h
  rintro (hkind | hkind) <;> rw [hkind] at h <;> exact h.imp fun _ h => h.1

lemma isDialogueStart_shape {t : Token} (h : Genuine t.shape) :
    t.shape.token.isDialogueStart = t.isDialogueStart :=
  have hshape : t.shape = t.shape.token.shape := rfl
  (Token.isDialogueStart_congr hshape (textual_of_genuine h)).symm

lemma isDialogueEnd_shape {t : Token} (h : Genuine t.shape) :
    t.shape.token.isDialogueEnd = t.isDialogueEnd :=
  have hshape : t.shape = t.shape.token.shape := rfl
  (Token.isDialogueEnd_congr hshape (textual_of_genuine h)).symm

lemma modesBehind_startTag (hm : IsCode m) (hs : s.token.isDialogueStart = true) :
    modesBehind m s = .dialogue :: m := by
  have hkind : s.1 = .startTag := Parse.startTag_of_isDialogueStart hs
  unfold IsCode at hm
  unfold modesBehind Scanner.modesAfter
  split at hm
  · simp [hs]
  · simp [hs, hkind]
  · exact hm.elim

lemma modesBehind_said (hs : s.token.isDialogueEnd = false) (hbrace : s.1 ≠ .openBrace) :
    modesBehind (.dialogue :: m) s = .dialogue :: m := by
  unfold modesBehind Scanner.modesAfter
  simp only [kind_token]
  split
  · rfl
  · next h => exact absurd h hbrace
  · simp [hs]

lemma endTag_of_isDialogueEnd {t : Token} (h : t.isDialogueEnd = true) : t.kind = .endTag := by
  simp only [Token.isDialogueEnd, Bool.and_eq_true, beq_iff_eq] at h
  exact h.1

lemma modesBehind_endTag (hs : s.token.isDialogueEnd = true) :
    modesBehind (.dialogue :: m) s = m := by
  have hkind : s.1 = .endTag := endTag_of_isDialogueEnd hs
  simp [modesBehind, Scanner.modesAfter, hkind, hs]

structure Encloses (m inside : List Mode) : Prop where
  code : IsCode inside
  opens : ∀ value, modesBehind m (.openBrace, value) = inside
  closes : ∀ value, modesBehind inside (.closeBrace, value) = m

lemma encloses_code (hm : IsCode m) : Encloses m (inner m) := by
  refine ⟨isCode_inner hm, fun value => ?_, fun value => ?_⟩
  · unfold IsCode at hm
    split at hm
    · rfl
    · rfl
    · exact hm.elim
  · unfold IsCode at hm
    split at hm
    · rfl
    · next depth outer =>
      have hdepth : ¬ depth + 1 ≤ 1 := by omega
      simp [modesBehind, inner, Scanner.modesAfter, hdepth]
    · exact hm.elim

lemma encloses_dialogue (outer : List Mode) :
    Encloses (.dialogue :: outer) (.embedded 1 :: .dialogue :: outer) :=
  ⟨Nat.le_refl 1, fun _ => rfl, fun _ => rfl⟩

end Modes

section Reflexive

lemma Literal.alike_refl (a : Literal) : a.Alike Eq a := by
  cases a with
  | null => exact .null
  | flag b => exact .flag b
  | number x => exact .number rfl
  | delta x => exact .delta rfl
  | text s => exact .text s

mutual

theorem Expression.alike_refl : (e : Expression) → e.Alike Eq e
  | .literal _ a => .literal a.alike_refl
  | .name _ s => .name s
  | .unary _ op a => .unary op (Expression.alike_refl a)
  | .binary _ op a b => .binary op (Expression.alike_refl a) (Expression.alike_refl b)
  | .assign _ _ op a => .assign op rfl (Expression.alike_refl a)
  | .step _ _ op => .step op rfl
  | .call _ callee as => .call callee (Expression.all_alike_refl as)

theorem Expression.all_alike_refl : (es : List Expression) →
    List.Forall₂ (Expression.Alike Eq) es es
  | [] => .nil
  | e :: es => .cons (Expression.alike_refl e) (Expression.all_alike_refl es)

end

lemma Expression.option_alike_refl : (e : Option Expression) →
    Option.Rel (Expression.Alike Eq) e e
  | none => .none
  | some e => .some e.alike_refl

mutual

theorem Statement.agrees_refl : (s : Statement) → s.Agrees Eq s
  | .block _ b => .block (Block.agrees_refl b)
  | .ifThen _ c s => .ifThen c.alike_refl (Statement.agrees_refl s)
  | .ifElse _ c s t => .ifElse c.alike_refl (Statement.agrees_refl s) (Statement.agrees_refl t)
  | .loop _ c s => .loop c.alike_refl (Statement.agrees_refl s)
  | .select _ cases => .select (Choice.all_agrees_refl cases)
  | .callChapter _ target => .callChapter target
  | .callScene _ target => .callScene target
  | .ret _ e => .ret (Expression.option_alike_refl e)
  | .exit _ => .exit
  | .expression _ e => .expression e.alike_refl
  | .dialogue _ d => .dialogue (Dialogue.agrees_refl d)
  | .empty _ => .empty

theorem Statement.all_agrees_refl : (ss : List Statement) → List.Forall₂ (Statement.Agrees Eq) ss ss
  | [] => .nil
  | s :: ss => .cons (Statement.agrees_refl s) (Statement.all_agrees_refl ss)

theorem Block.agrees_refl : (b : Block) → b.Agrees Eq b
  | .mk _ ss => .mk (Statement.all_agrees_refl ss)

theorem Choice.agrees_refl : (c : Choice) → c.Agrees Eq c
  | .mk _ label body => .mk label (Statement.agrees_refl body)

theorem Choice.all_agrees_refl : (cs : List Choice) → List.Forall₂ (Choice.Agrees Eq) cs cs
  | [] => .nil
  | c :: cs => .cons (Choice.agrees_refl c) (Choice.all_agrees_refl cs)

theorem Dialogue.agrees_refl : (d : Dialogue) → d.Agrees Eq d
  | .mk _ box name parts => .mk box name (DialoguePart.all_agrees_refl parts)

theorem DialoguePart.agrees_refl : (p : DialoguePart) → p.Agrees Eq p
  | .markup pieces _ => .markup pieces
  | .code b => .code (Block.agrees_refl b)

theorem DialoguePart.all_agrees_refl : (ps : List DialoguePart) →
    List.Forall₂ (DialoguePart.Agrees Eq) ps ps
  | [] => .nil
  | p :: ps => .cons (DialoguePart.agrees_refl p) (DialoguePart.all_agrees_refl ps)

end

end Reflexive

structure Passage where
  text : List Shape
  behind : List Shape
  total : Nat

def worded : List TokenKind :=
  [.identifier, .stringLiteral, .startTag, .endTag, .dialogueIdentifier, .markupText]

structure Token.Same (t t' : Token) : Prop where
  shape : t'.shape = t.shape
  content : t.kind ∈ worded → t'.content = t.content

namespace Token.Same

variable {t t' : Token}

lemma refl (t : Token) : t.Same t :=
  ⟨rfl, fun _ => rfl⟩

lemma of_shape (hshape : t'.shape = t.shape) (hgenuine : Genuine t.shape) : t.Same t' := by
  refine ⟨hshape, fun hkind => ?_⟩
  obtain ⟨content, hcontent⟩ : ∃ content, t.value = .text content := by
    rw [Token.shape] at hgenuine
    simp only [worded, List.mem_cons, List.not_mem_nil, or_false] at hkind
    rcases hkind with hkind | hkind | hkind | hkind | hkind | hkind <;> rw [hkind] at hgenuine <;>
      exact hgenuine.imp fun _ h => h.1
  have hvalue : t'.value = t.value := congrArg Prod.snd hshape
  rw [Token.content, Token.content, hvalue, hcontent]

variable (h : t.Same t')
include h

lemma kind : t'.kind = t.kind :=
  congrArg Prod.fst h.shape

lemma value : t'.value = t.value :=
  congrArg Prod.snd h.shape

lemma namesDialogue : t'.namesDialogue = t.namesDialogue := by
  unfold Token.namesDialogue Token.tagName?
  rw [h.kind]
  split
  · next hkind => rw [h.content (by simp [hkind, worded])]
  · next hkind => rw [h.content (by simp [hkind, worded])]
  · rfl

lemma isDialogueStart : t'.isDialogueStart = t.isDialogueStart := by
  rw [Token.isDialogueStart, Token.isDialogueStart, h.kind, h.namesDialogue]

lemma isDialogueEnd : t'.isDialogueEnd = t.isDialogueEnd := by
  rw [Token.isDialogueEnd, Token.isDialogueEnd, h.kind, h.namesDialogue]

end Token.Same

namespace Parser

structure Spotless (p : Parser) : Prop where
  diagnostics : p.diagnostics = #[]
  cuts : p.cuts = 0

structure Within (l : Passage) (m : List Mode) (p q : Parser) : Prop where
  final : p.final.kind = .endOfFile
  genuine : ∀ s ∈ p.left, Genuine s ∧ s.1 ≠ .endOfFile
  taken : p.taken + p.left.length = l.text.length
  before : ∃ before, l.text = before ++ p.left ∧ before.foldl modesBehind [.code] = m
  longer : q.Left l.total (p.left ++ l.behind)

inductive Faces (l : Passage) (t t' : Token) : Prop
  | same : t.Same t' → Faces l t t'
  | behind : t.kind = .endOfFile → t'.kind = headKind l.behind → Faces l t t'

lemma Faces.same_of {l : Passage} {t t' : Token} {γ : Type} (h : Faces l t t') (f : TokenKind → γ)
    (hf : f (headKind l.behind) = f .endOfFile) : f t'.kind = f t.kind := by
  cases h with
  | same h => rw [h.kind]
  | behind h h' => rw [h, h', hf]

end Parser

namespace Parser.Within

variable {l : Passage} {m m' : List Mode} {p q : Parser}

lemma faces (h : p.Within l m q) : Faces l p.next q.next := by
  have hleft := h.longer.shapes
  have hgenuine := h.genuine
  unfold next
  unfold Parser.left at hleft hgenuine
  cases hp : p.rest with
  | nil =>
    refine .behind h.final ?_
    rw [hp, List.map_nil, List.nil_append] at hleft
    rw [← hleft]
    cases q.rest with
    | nil => exact h.longer.final
    | cons t rest => rfl
  | cons t rest =>
    rw [hp, List.map_cons] at hgenuine
    rw [hp, List.map_cons, List.cons_append] at hleft
    obtain ⟨t', rest', hq, ht, -⟩ := List.map_eq_cons_iff.mp hleft
    rw [hq]
    exact .same (.of_shape ht (hgenuine _ List.mem_cons_self).1)

lemma of_eq {p' q' : Parser} (h : p.Within l m q) (hp : p'.rest = p.rest ∧ p'.final = p.final ∧
    p'.taken = p.taken) (hq : q'.rest = q.rest ∧ q'.final = q.final ∧ q'.taken = q.taken ∧
      q'.diagnostics = q.diagnostics) : p'.Within l m q' := by
  obtain ⟨hprest, hpfinal, hptaken⟩ := hp
  obtain ⟨hqrest, hqfinal, hqtaken, hqdiagnostics⟩ := hq
  have hleft : p'.left = p.left := by rw [Parser.left, Parser.left, hprest]
  refine ⟨hpfinal ▸ h.final, ?_, ?_, ?_, ?_⟩
  · rw [hleft]
    exact h.genuine
  · rw [hleft, hptaken]
    exact h.taken
  · rw [hleft]
    exact h.before
  · rw [hleft]
    exact ⟨hqrest ▸ h.longer.shapes, hqfinal ▸ h.longer.final, hqtaken ▸ h.longer.taken,
      hqdiagnostics ▸ h.longer.diagnostics⟩

lemma advance (h : p.Within l m q) (hend : p.next.kind ≠ .endOfFile) :
    p.next.Same q.next ∧ Genuine p.next.shape ∧ (Parse.advance q).1 = q.next ∧
      (Parse.advance p).2.Within l (modesBehind m p.next.shape) (Parse.advance q).2 := by
  have hsame : p.next.Same q.next := by
    cases h.faces with
    | same hsame => exact hsame
    | behind hnext => exact absurd hnext hend
  have hleft := h.longer.shapes
  cases hp : p.rest with
  | nil => exact absurd (by rw [next, hp]; exact h.final) hend
  | cons t rest =>
    have hpleft : p.left = t.shape :: rest.map Token.shape := by rw [Parser.left, hp, List.map_cons]
    rw [hpleft, List.cons_append] at hleft
    obtain ⟨t', rest', hq, ht, hrest⟩ := List.map_eq_cons_iff.mp hleft
    have hpnext : p.next = t := by rw [next, hp]; rfl
    have hqnext : q.next = t' := by rw [next, hq]; rfl
    have hpadvance : Parse.advance p = (t, p.past t rest) := by rw [Parse.advance, hp]
    have hqadvance : Parse.advance q = (t', q.past t' rest') := by rw [Parse.advance, hq]
    have hgenuine : Genuine t.shape := (h.genuine _ (by rw [hpleft]; exact List.mem_cons_self)).1
    rw [hpadvance, hqadvance, hpnext, hqnext]
    refine ⟨hpnext ▸ hqnext ▸ hsame, hgenuine, rfl, h.final, ?_, ?_, ?_, hrest, h.longer.final, ?_,
      h.longer.diagnostics⟩
    · exact fun s hs => h.genuine s (by rw [hpleft]; exact List.mem_cons_of_mem _ hs)
    · have htaken := h.taken
      rw [hpleft, List.length_cons] at htaken
      change p.taken + 1 + (rest.map Token.shape).length = _
      omega
    · obtain ⟨before, htext, hmodes⟩ := h.before
      rw [hpleft] at htext
      refine ⟨before ++ [t.shape], by rw [htext, List.append_assoc]; rfl, ?_⟩
      rw [List.foldl_append, hmodes]
      rfl
    · have htaken := h.longer.taken
      rw [hpleft, List.cons_append, List.length_cons] at htaken
      change q.taken + 1 + (rest.map Token.shape ++ l.behind).length = _
      omega

end Parser.Within

namespace Parse

abbrev Matched {α β : Type} (R : α → β → Prop) (as : Array α) (bs : Array β) : Prop :=
  List.Forall₂ R as.toList bs.toList

lemma Matched.push {α β : Type} {R : α → β → Prop} {as : Array α} {bs : Array β} {a : α} {b : β}
    (h : Matched R as bs) (hab : R a b) : Matched R (as.push a) (bs.push b) := by
  rw [Matched, Array.toList_push, Array.toList_push]
  exact List.rel_append h (.cons hab .nil)

variable {α β : Type} {l : Passage} {m m' m'' : List Mode} {p q : Parser}

structure Tidy (x : Parse α) (p : Parser) : Prop where
  taken : p.taken ≤ (x p).2.taken
  spotless : (x p).2.Spotless → p.Spotless

section Tidy

variable {x : Parse α} {f : α → Parse β}

lemma Tidy.bind (hx : Tidy x p) (hf : Tidy (f (x p).1) (x p).2) : Tidy (x >>= f) p :=
  ⟨hx.taken.trans hf.taken, fun h => hx.spotless (hf.spotless h)⟩

lemma tidy_pure {a : α} : Tidy (pure a) p :=
  ⟨Nat.le_refl _, id⟩

lemma tidy_cut {a : α} : Tidy (cut a) p :=
  ⟨Nat.le_refl _, fun h => absurd h.cuts (Nat.succ_ne_zero _)⟩

lemma tidy_advance : Tidy advance p := by
  constructor
  · unfold advance
    split
    · exact Nat.le_refl _
    · exact Nat.le_succ _
  · unfold advance
    split
    · exact id
    · exact fun h => ⟨h.diagnostics, h.cuts⟩

lemma tidy_freshId : Tidy freshId p :=
  ⟨Nat.le_refl _, fun h => ⟨h.diagnostics, h.cuts⟩⟩

lemma tidy_report {issue : Issue} {span : Span} : Tidy (report issue span) p :=
  ⟨Nat.le_refl _, fun h => absurd h.diagnostics Array.push_ne_empty⟩

lemma tidy_lastSpan : Tidy lastSpan p :=
  ⟨Nat.le_refl _, id⟩

lemma tidy_nodeFrom {first : Span} : Tidy (nodeFrom first) p :=
  tidy_freshId.bind (tidy_lastSpan.bind tidy_pure)

lemma tidy_node {first : Span} {make : Node → α} : Tidy (do pure (make (← nodeFrom first))) p :=
  tidy_nodeFrom.bind tidy_pure

lemma tidy_peek {f : Token → Parse β} (h : Tidy (f p.next) p) : Tidy (peek >>= f) p :=
  ⟨h.taken, h.spotless⟩

lemma tidy_lookKind {f : TokenKind → Parse β} (h : Tidy (f p.next.kind) p) :
    Tidy (peekKind >>= f) p :=
  ⟨h.taken, h.spotless⟩

lemma tidy_unexpected {what : String} : Tidy (unexpected what) p :=
  tidy_peek tidy_report

lemma tidy_eat {kind : TokenKind} : Tidy (eat kind) p := by
  refine tidy_lookKind ?_
  split
  · exact tidy_advance.bind tidy_pure
  · exact tidy_pure

lemma tidy_skipWhile {f : Token → Bool} : Tidy (skipWhile f) p := by
  have hpast (ts : List Token) (p : Parser) : p.taken ≤ (p.pastWhile f ts).taken ∧
      ((p.pastWhile f ts).Spotless → p.Spotless) := by
    induction ts generalizing p with
    | nil => exact ⟨Nat.le_refl _, id⟩
    | cons t ts ih =>
      rw [Parser.pastWhile]
      split
      · obtain ⟨htaken, hspotless⟩ := ih (p.past t ts)
        exact ⟨(Nat.le_succ _).trans htaken,
          fun h => ⟨(hspotless h).diagnostics, (hspotless h).cuts⟩⟩
      · exact ⟨Nat.le_refl _, id⟩
  exact ⟨(hpast p.rest p).1, (hpast p.rest p).2⟩

lemma tidy_synchronize : Tidy synchronize p :=
  tidy_skipWhile.bind (tidy_eat.bind tidy_pure)

lemma tidy_flush {found : Array DialoguePart} {pending : Pending} :
    Tidy (flush found pending) p := by
  unfold flush
  dsimp only
  split
  · exact tidy_pure
  · exact ⟨Nat.le_refl _, fun h => ⟨(Array.append_eq_empty_iff.mp h.diagnostics).1, h.cuts⟩⟩

lemma not_spotless_unexpected {what : String} {f : Unit → Parse β} (hf : ∀ p, Tidy (f ()) p) :
    ¬ ((unexpected what >>= f) p).2.Spotless :=
  fun h => Array.push_ne_empty ((hf _).spotless h).diagnostics

end Tidy

structure Repeats (l : Passage) (m : List Mode) (x : Parse α) (y : Parse α) (R : α → α → Prop)
    (m' : List Mode) (p q : Parser) : Prop where
  tidy : Tidy x p
  within : p.Within l m q → (x p).2.Spotless → R (x p).1 (y q).1 ∧ (x p).2.Within l m' (y q).2

section Repeats

variable {R : α → α → Prop} {S : β → β → Prop} {x : Parse α} {y : Parse α} {f : α → Parse β}
  {g : α → Parse β}

lemma Repeats.bind_at (hx : Repeats l m x y R m' p q) (hrefl : R (x p).1 (x p).1)
    (hf : ∀ b q', R (x p).1 b → Repeats l m' (f (x p).1) (g b) S m'' (x p).2 q') :
    Repeats l m (x >>= f) (y >>= g) S m'' p q := by
  have htidy := (hf _ q hrefl).tidy
  refine ⟨hx.tidy.bind htidy, fun hp hspotless => ?_⟩
  obtain ⟨hR, hmiddle⟩ := hx.within hp (htidy.spotless hspotless)
  exact (hf _ _ hR).within hmiddle hspotless

lemma Repeats.bind (hx : Repeats l m x y R m' p q) (hrefl : ∀ a, R a a)
    (hf : ∀ a b p' q', R a b → Repeats l m' (f a) (g b) S m'' p' q') :
    Repeats l m (x >>= f) (y >>= g) S m'' p q :=
  hx.bind_at (hrefl _) fun b q' hb => hf _ b _ q' hb

lemma repeats_pure {a : α} {b : α} (h : R a b) : Repeats l m (pure a) (pure b) R m p q :=
  ⟨tidy_pure, fun hp _ => ⟨h, hp⟩⟩

lemma repeats_of_not_spotless (htidy : Tidy x p) (h : p.Within l m q → ¬ (x p).2.Spotless) :
    Repeats l m x y R m' p q :=
  ⟨htidy, fun hp hspotless => absurd hspotless (h hp)⟩

lemma repeats_cut {a : α} : Repeats l m (cut a) y R m' p q :=
  repeats_of_not_spotless tidy_cut fun _ h => absurd h.cuts (Nat.succ_ne_zero _)

lemma repeats_unexpected {what : String} {f : Unit → Parse α} (hf : ∀ p, Tidy (f ()) p) :
    Repeats l m (unexpected what >>= f) y R m' p q :=
  repeats_of_not_spotless (tidy_unexpected.bind (hf _)) fun _ => not_spotless_unexpected hf

lemma repeats_freshId : Repeats l m freshId freshId (fun _ _ => True) m p q :=
  ⟨tidy_freshId, fun hp _ => ⟨trivial, hp.of_eq ⟨rfl, rfl, rfl⟩ ⟨rfl, rfl, rfl, rfl⟩⟩⟩

lemma repeats_lastSpan : Repeats l m lastSpan lastSpan (fun _ _ => True) m p q :=
  ⟨tidy_lastSpan, fun hp _ => ⟨trivial, hp⟩⟩

lemma repeats_nodeFrom {first first' : Span} :
    Repeats l m (nodeFrom first) (nodeFrom first') (fun _ _ => True) m p q :=
  repeats_freshId.bind (fun _ => trivial) fun _ _ _ _ _ => repeats_lastSpan.bind (fun _ => trivial)
    fun _ _ _ _ _ => repeats_pure trivial

lemma repeats_node {first first' : Span} {make : Node → α} {make' : Node → α}
    (h : ∀ node node', R (make node) (make' node')) :
    Repeats l m (do pure (make (← nodeFrom first))) (do pure (make' (← nodeFrom first'))) R m p q :=
  repeats_nodeFrom.bind (fun _ => trivial) fun node node' _ _ _ => repeats_pure (h node node')

lemma repeats_look {f : Token → Parse β} {g : Token → Parse β}
    (h : ∀ t', Parser.Faces l p.next t' → Repeats l m (f p.next) (g t') S m' p q) :
    Repeats l m (peek >>= f) (peek >>= g) S m' p q :=
  ⟨tidy_peek (h p.next (.same (.refl _))).tidy,
    fun hp hspotless => (h _ hp.faces).within hp hspotless⟩

lemma repeats_take {f : Token → Parse β} {g : Token → Parse β} (hend : p.next.kind ≠ .endOfFile)
    (hmodes : Genuine p.next.shape → modesBehind m p.next.shape = m')
    (h : ∀ t' q', p.next.Same t' → Repeats l m' (f p.next) (g t') S m'' (advance p).2 q') :
    Repeats l m (advance >>= f) (advance >>= g) S m'' p q := by
  have htake : (advance p).1 = p.next := by
    unfold advance Parser.next
    split <;> simp [*]
  constructor
  · refine tidy_advance.bind ?_
    rw [htake]
    exact (h p.next q (.refl _)).tidy
  · intro hp hspotless
    obtain ⟨hsame, hgenuine, hq, hmiddle⟩ := hp.advance hend
    have hf := (h _ (advance q).2 hsame).within (hmodes hgenuine ▸ hmiddle)
    rw [bind_at, htake] at hspotless ⊢
    rw [bind_at, hq]
    exact hf hspotless

lemma repeats_takeCode {f g : Token → Parse β} (hm : IsCode m) (hkind : Neutral p.next.kind)
    (h : ∀ t' q', p.next.Same t' → Repeats l m (f p.next) (g t') S m'' (advance p).2 q') :
    Repeats l m (advance >>= f) (advance >>= g) S m'' p q :=
  repeats_take (fun hend => hkind (hend ▸ List.mem_cons_self))
    (fun _ => modesBehind_neutral hm hkind _) h

section Readers

variable {kind : TokenKind} {what : String} {inside : List Mode}

lemma repeats_lookKind {f g : TokenKind → Parse β}
    (h : ∀ t', Parser.Faces l p.next t' → Repeats l m (f p.next.kind) (g t'.kind) S m' p q) :
    Repeats l m (peekKind >>= f) (peekKind >>= g) S m' p q :=
  repeats_look (f := fun t => f t.kind) (g := fun t => g t.kind) h

lemma repeats_eat {f g : Bool → Parse β} (hend : kind ≠ .endOfFile)
    (hmodes : ∀ value, modesBehind m (kind, value) = inside)
    (hyes : ∀ p' q', Repeats l inside (f true) (g true) S m' p' q')
    (hno : p.next.kind ≠ kind → Repeats l m (f false) (g false) S m' p q)
    (hbehind : headKind l.behind = kind → p.next.kind = .endOfFile → p.Within l m q →
      ¬ (f false p).2.Spotless) : Repeats l m (eat kind >>= f) (eat kind >>= g) S m' p q := by
  by_cases hkind : p.next.kind = kind
  · have heat (p : Parser) (hp : p.next.kind = kind) : eat kind p = (true, (advance p).2) := by
      rw [eat_apply, if_pos (beq_iff_eq.mpr hp)]
    refine ⟨tidy_eat.bind ?_, fun hp hspotless => ?_⟩
    · rw [heat p hkind]
      exact (hyes _ q).tidy
    · obtain ⟨hsame, -, -, hmiddle⟩ := hp.advance (hkind ▸ hend)
      have hshape : p.next.shape = (kind, p.next.value) := by rw [Token.shape, hkind]
      rw [hshape, hmodes] at hmiddle
      rw [bind_at, heat p hkind] at hspotless ⊢
      rw [bind_at, heat q (hsame.kind.trans hkind)]
      exact (hyes _ _).within hmiddle hspotless
  · have heat (p : Parser) (hp : p.next.kind ≠ kind) : eat kind p = (false, p) := by
      rw [eat_apply, if_neg fun h => hp (beq_iff_eq.mp h)]
    refine ⟨tidy_eat.bind ?_, fun hp hspotless => ?_⟩
    · rw [heat p hkind]
      exact (hno hkind).tidy
    · rw [bind_at, heat p hkind] at hspotless ⊢
      have hq : q.next.kind ≠ kind := by
        cases hp.faces with
        | same hsame => exact hsame.kind ▸ hkind
        | behind hpnext hqnext => exact fun h => hbehind (hqnext ▸ h) hpnext hp hspotless
      rw [bind_at, heat q hq]
      exact (hno hkind).within hp hspotless

lemma repeats_expect {f g : Bool → Parse β} (hend : kind ≠ .endOfFile)
    (hmodes : ∀ value, modesBehind m (kind, value) = inside)
    (hyes : ∀ p' q', Repeats l inside (f true) (g true) S m' p' q')
    (hno : ∀ p', Tidy (f false) p') :
    Repeats l m (expect kind what >>= f) (expect kind what >>= g) S m' p q := by
  unfold expect
  rw [bind_assoc, bind_assoc]
  have hmissing (p : Parser) : Tidy (pure false >>= f) p := hno p
  refine repeats_eat hend hmodes hyes (fun _ => ?_) fun _ _ _ => ?_
  · rw [if_neg Bool.false_ne_true, bind_assoc]
    exact repeats_unexpected hmissing
  · rw [if_neg Bool.false_ne_true, bind_assoc]
    exact not_spotless_unexpected hmissing

lemma repeats_close {x y : Parse β} (hend : kind ≠ .endOfFile)
    (hmodes : ∀ value, modesBehind m (kind, value) = inside)
    (h : ∀ p' q', Repeats l inside x y S m' p' q') :
    Repeats l m (do let _ ← expect kind what; x) (do let _ ← expect kind what; y) S m' p q :=
  repeats_expect hend hmodes h fun p' => (h p' p').tidy

lemma repeats_endStatement (hm : IsCode m) :
    Repeats l m endStatement endStatement (fun _ _ => True) m p q :=
  repeats_eat (by decide) (modesBehind_neutral hm (by decide))
    (fun _ _ => repeats_pure trivial) (fun _ => repeats_unexpected fun _ => tidy_synchronize)
    fun _ _ _ => not_spotless_unexpected fun _ => tidy_synchronize

lemma repeats_name (hm : IsCode m) : Repeats l m (name what) (name what) Eq m p q := by
  refine repeats_lookKind fun t' ht' => ?_
  have htake (hkind : p.next.kind ∈ [.identifier, .stringLiteral]) :
      Repeats l m (do pure (← advance).content) (do pure (← advance).content) Eq m p q := by
    have hall : ∀ kind ∈ [TokenKind.identifier, .stringLiteral], Neutral kind ∧ kind ∈ worded := by
      decide
    exact repeats_takeCode hm (hall _ hkind).1 fun t q' ht =>
      repeats_pure (ht.content (hall _ hkind).2).symm
  cases ht' with
  | same ht' =>
    rw [ht'.kind]
    split
    · next hkind => exact htake (by simp [hkind])
    · next hkind => exact htake (by simp [hkind])
    · exact repeats_unexpected fun _ => tidy_pure
  | behind hend =>
    rw [hend]
    exact repeats_unexpected fun _ => tidy_pure

lemma pastWhile_stays {f : Token → Bool} (h : f p.next = false) : p.pastWhile f p.rest = p := by
  rw [Parser.next] at h
  cases hrest : p.rest with
  | nil => rfl
  | cons t rest =>
    rw [hrest, List.headD_cons] at h
    rw [Parser.pastWhile, if_neg (by simp [h])]

lemma pastWhile_goes {f : Token → Bool} (hend : f p.final = false) (h : f p.next = true) :
    (advance p).2.rest.length < p.rest.length ∧
      p.pastWhile f p.rest = (advance p).2.pastWhile f (advance p).2.rest := by
  rw [Parser.next] at h
  cases hrest : p.rest with
  | nil =>
    rw [hrest, List.headD_nil, hend] at h
    cases h
  | cons t rest =>
    rw [hrest, List.headD_cons] at h
    have hadvance : advance p = (t, p.past t rest) := by rw [advance, hrest]
    rw [Parser.pastWhile, if_pos h, hadvance]
    exact ⟨Nat.lt_succ_self _, rfl⟩

lemma within_pastBreaks (hbehind : headKind l.behind ≠ .markupLineBreak) (n : Nat)
    {p q : Parser} (hn : p.rest.length < n) (hp : p.Within l (.dialogue :: m) q) :
    (p.pastWhile (·.kind == .markupLineBreak) p.rest).Within l (.dialogue :: m)
      (q.pastWhile (·.kind == .markupLineBreak) q.rest) := by
  induction n generalizing p q with
  | zero => exact absurd hn (Nat.not_lt_zero _)
  | succ n ih =>
    by_cases hbreak : p.next.kind = .markupLineBreak
    · obtain ⟨hsame, -, -, hnext⟩ := hp.advance (by simp [hbreak])
      have hmodes : modesBehind (.dialogue :: m) p.next.shape = .dialogue :: m :=
        modesBehind_said (by simp [Token.isDialogueEnd, Token.shape, hbreak])
          (by simp [Token.shape, hbreak])
      obtain ⟨hshorter, hpast⟩ := pastWhile_goes (p := p) (f := (·.kind == .markupLineBreak))
        (by simp [hp.final]) (by simpa using hbreak)
      obtain ⟨-, hpast'⟩ := pastWhile_goes (p := q) (f := (·.kind == .markupLineBreak))
        (by simp [hp.longer.final]) (by simpa using hsame.kind.trans hbreak)
      rw [hpast, hpast']
      exact ih (by omega) (hmodes ▸ hnext)
    · have hq : q.next.kind ≠ .markupLineBreak := by
        cases hp.faces with
        | same hsame => exact hsame.kind ▸ hbreak
        | behind _ hq => exact hq ▸ hbehind
      rw [pastWhile_stays (by simpa using hbreak), pastWhile_stays (by simpa using hq)]
      exact hp

lemma repeats_skipBreaks (hbehind : headKind l.behind ≠ .markupLineBreak) :
    Repeats l (.dialogue :: m) (skipWhile (·.kind == .markupLineBreak))
      (skipWhile (·.kind == .markupLineBreak)) (fun _ _ => True) (.dialogue :: m) p q :=
  ⟨tidy_skipWhile, fun hp _ => ⟨trivial, within_pastBreaks hbehind _ (Nat.lt_succ_self _) hp⟩⟩

lemma repeats_flush {found found' : Array DialoguePart} {pending pending' : Pending}
    (hfound : Matched (DialoguePart.Agrees Eq) found found')
    (hchars : pending'.chars = pending.chars) :
    Repeats l m (flush found pending) (flush found' pending')
      (Matched (DialoguePart.Agrees Eq)) m p q := by
  refine ⟨tidy_flush, fun hp hspotless => ?_⟩
  unfold flush at hspotless ⊢
  simp only [hchars] at hspotless ⊢
  generalize ((pending.chars.toList.dropWhile _).reverse.dropWhile _).reverse = inner at hspotless ⊢
  by_cases hempty : inner.isEmpty = true
  · rw [if_pos hempty, if_pos hempty]
    exact ⟨hfound, hp⟩
  · rw [if_neg hempty] at hspotless
    rw [if_neg hempty, if_neg hempty]
    have hunmatched : (Markup.read inner).2 = [] := by
      simpa [Markup.readAt] using (Array.append_eq_empty_iff.mp hspotless.diagnostics).2
    have hpieces (span : Span) : Markup.readAt span inner = ((Markup.read inner).1, []) := by
      simp [Markup.readAt, hunmatched]
    simp only [hpieces]
    refine ⟨?_, hp.of_eq ⟨rfl, rfl, rfl⟩ ⟨rfl, rfl, rfl, Array.append_empty⟩⟩
    exact hfound.push (.markup _)

lemma repeats_assignment {target target' other other' : Expression} {operator operator' : Span}
    {make make' : Node → Target → Expression} (htarget : target.Alike Eq target')
    (hmake : ∀ node node' t t', t.name = t'.name → (make node t).Alike Eq (make' node' t')) :
    Repeats l m (assignment target operator other make) (assignment target' operator' other' make')
      (Expression.Alike Eq) m p q := by
  unfold assignment
  cases htarget with
  | name s =>
    exact repeats_lastSpan.bind (fun _ => trivial) fun _ _ _ _ _ =>
      repeats_freshId.bind (fun _ => trivial) fun _ _ _ _ _ => repeats_pure (hmake _ _ _ _ rfl)
  | _ =>
    exact repeats_of_not_spotless (tidy_report.bind tidy_pure) fun _ h =>
      Array.push_ne_empty h.diagnostics

end Readers

end Repeats

structure Opens (kinds : List TokenKind) (l : Passage) (m : List Mode) (x y : Parse α)
    (R : α → α → Prop) (m' : List Mode) (p q : Parser) : Prop extends Repeats l m x y R m' p q where
  first : p.final.kind = .endOfFile → (x p).2.Spotless →
    p.next.kind ∈ kinds ∧ p.taken < (x p).2.taken

section Opens

variable {kinds : List TokenKind} {inside : List Mode} {R : α → α → Prop} {S : β → β → Prop}
  {x y : Parse α} {f g : α → Parse β}

lemma Opens.bind (hx : Opens kinds l m x y R m' p q) (hrefl : ∀ a, R a a)
    (hf : ∀ a b p' q', R a b → Repeats l m' (f a) (g b) S m'' p' q') :
    Opens kinds l m (x >>= f) (y >>= g) S m'' p q := by
  refine ⟨hx.toRepeats.bind hrefl hf, fun hend hspotless => ?_⟩
  have htidy := (hf _ _ (x p).2 q (hrefl (x p).1)).tidy
  obtain ⟨hkind, htaken⟩ := hx.first hend (htidy.spotless hspotless)
  exact ⟨hkind, htaken.trans_le htidy.taken⟩

lemma Opens.mono {kinds' : List TokenKind} (hx : Opens kinds l m x y R m' p q)
    (h : kinds ⊆ kinds') : Opens kinds' l m x y R m' p q :=
  ⟨hx.toRepeats, fun hend hspotless => ⟨h (hx.first hend hspotless).1, (hx.first hend hspotless).2⟩⟩

lemma opens_of_not_spotless (htidy : Tidy x p) (h : ¬ (x p).2.Spotless) :
    Opens kinds l m x y R m' p q :=
  ⟨repeats_of_not_spotless htidy fun _ => h, fun _ hspotless => absurd hspotless h⟩

lemma opens_cut {a : α} : Opens kinds l m (cut a) y R m' p q :=
  opens_of_not_spotless tidy_cut fun h => absurd h.cuts (Nat.succ_ne_zero _)

lemma opens_unexpected {what : String} {f : Unit → Parse α} (hf : ∀ p, Tidy (f ()) p) :
    Opens kinds l m (unexpected what >>= f) y R m' p q :=
  opens_of_not_spotless (tidy_unexpected.bind (hf _)) (not_spotless_unexpected hf)

lemma opens_freshId {f g : Nat → Parse β}
    (h : ∀ id id' q', Opens kinds l m (f id) (g id') S m' { p with nextId := p.nextId + 1 } q') :
    Opens kinds l m (freshId >>= f) (freshId >>= g) S m' p q := by
  refine ⟨⟨tidy_freshId.bind (h _ 0 q).tidy, fun hp hspotless => ?_⟩, (h _ 0 q).first⟩
  exact (h _ _ _).within (hp.of_eq ⟨rfl, rfl, rfl⟩ ⟨rfl, rfl, rfl, rfl⟩) hspotless

lemma opens_look {f g : Token → Parse β}
    (h : ∀ t', Parser.Faces l p.next t' → Opens kinds l m (f p.next) (g t') S m' p q) :
    Opens kinds l m (peek >>= f) (peek >>= g) S m' p q :=
  ⟨repeats_look fun t' ht' => (h t' ht').toRepeats, (h p.next (.same (.refl _))).first⟩

lemma opens_lookKind {f g : TokenKind → Parse β}
    (h : ∀ t', Parser.Faces l p.next t' → Opens kinds l m (f p.next.kind) (g t'.kind) S m' p q) :
    Opens kinds l m (peekKind >>= f) (peekKind >>= g) S m' p q :=
  opens_look (f := fun t => f t.kind) (g := fun t => g t.kind) h

lemma taken_take {f : Token → Parse β} (hend : p.next.kind ≠ .endOfFile)
    (hfinal : p.final.kind = .endOfFile) (h : Tidy (f p.next) (advance p).2) :
    p.taken < ((advance >>= f) p).2.taken := by
  rw [Parser.next] at hend
  cases hrest : p.rest with
  | nil => exact absurd (by rw [hrest]; exact hfinal) hend
  | cons t rest =>
    have hadvance : advance p = (p.next, p.past t rest) := by
      rw [advance, Parser.next, hrest]
      rfl
    rw [hadvance] at h
    rw [bind_at, hadvance]
    exact (Nat.lt_succ_self _).trans_le h.taken

lemma opens_take {f g : Token → Parse β} (hkind : p.next.kind ∈ kinds)
    (hend : TokenKind.endOfFile ∉ kinds)
    (hmodes : Genuine p.next.shape → modesBehind m p.next.shape = inside)
    (h : ∀ t' q', p.next.Same t' → Repeats l inside (f p.next) (g t') S m' (advance p).2 q') :
    Opens kinds l m (advance >>= f) (advance >>= g) S m' p q := by
  have hnext : p.next.kind ≠ .endOfFile := fun h => hend (h ▸ hkind)
  exact ⟨repeats_take hnext hmodes h,
    fun hfinal _ => ⟨hkind, taken_take hnext hfinal (h p.next q (.refl _)).tidy⟩⟩

lemma opens_expect {kind : TokenKind} {what : String} {f g : Bool → Parse β} (hkind : kind ∈ kinds)
    (hend : TokenKind.endOfFile ∉ kinds)
    (hmodes : ∀ value, modesBehind m (kind, value) = inside)
    (hyes : ∀ p' q', Repeats l inside (f true) (g true) S m' p' q')
    (hno : ∀ p', Tidy (f false) p') :
    Opens kinds l m (expect kind what >>= f) (expect kind what >>= g) S m' p q := by
  have hkind' : kind ≠ .endOfFile := fun h => hend (h ▸ hkind)
  refine ⟨repeats_expect hkind' hmodes hyes hno, fun hfinal hspotless => ?_⟩
  have hexpect : (expect kind what >>= f) p =
      (if p.next.kind == kind then advance >>= fun _ => f true
        else unexpected what >>= fun _ => f false : Parse β) p := by
    unfold expect
    rw [bind_assoc, bind_at, eat_apply]
    split <;> rfl
  rw [hexpect] at hspotless ⊢
  by_cases hnext : p.next.kind = kind
  · rw [if_pos (beq_iff_eq.mpr hnext)] at hspotless ⊢
    exact ⟨hnext ▸ hkind, taken_take (hnext ▸ hkind') hfinal (hyes _ q).tidy⟩
  · rw [if_neg fun h => hnext (beq_iff_eq.mp h)] at hspotless
    exact absurd hspotless (not_spotless_unexpected fun _ => hno _)

lemma opens_takeCode {f g : Token → Parse β} (hm : IsCode m) (hkind : p.next.kind ∈ kinds)
    (hend : TokenKind.endOfFile ∉ kinds) (hneutral : Neutral p.next.kind)
    (h : ∀ t' q', p.next.Same t' → Repeats l m (f p.next) (g t') S m' (advance p).2 q') :
    Opens kinds l m (advance >>= f) (advance >>= g) S m' p q :=
  opens_take hkind hend (fun _ => modesBehind_neutral hm hneutral _) h

lemma peekSecond_apply (p : Parser) : peekSecond p = ((advance p).2.next.kind, p) := by
  have hsecond : peekSecond p = (((p.rest.drop 1).headD p.final).kind, p) := rfl
  rw [hsecond]
  cases hrest : p.rest with
  | nil => simp [advance, hrest, Parser.next]
  | cons t rest => simp [advance, hrest, Parser.next, Parser.past]

lemma opens_lookSecond {f g : TokenKind → Parse β} (hend : p.next.kind ≠ .endOfFile)
    (h : ∀ t', Parser.Faces l (advance p).2.next t' →
      Opens kinds l m (f (advance p).2.next.kind) (g t'.kind) S m' p q) :
    Opens kinds l m (peekSecond >>= f) (peekSecond >>= g) S m' p q := by
  have hp : (peekSecond >>= f) p = f (advance p).2.next.kind p := by rw [bind_at, peekSecond_apply]
  have hq : (peekSecond >>= g) q = g (advance q).2.next.kind q := by rw [bind_at, peekSecond_apply]
  have hsame := h _ (.same (.refl _))
  refine ⟨⟨⟨?_, ?_⟩, ?_⟩, ?_⟩ <;> rw [hp]
  · exact hsame.tidy.taken
  · exact hsame.tidy.spotless
  · rw [hq]
    exact fun hwithin => (h _ (hwithin.advance hend).2.2.2.faces).within hwithin
  · exact hsame.first

end Opens

end Parse

end Stagecraft
