import Stagecraft.Proofs.Script.Genuine
import Stagecraft.Proofs.Script.Gathered
import Stagecraft.Proofs.Script.Writable

namespace Stagecraft

open Shape

def Shape.isSpoken (s : Shape) : Bool :=
  s.1.isSpoken

def speech (ss : List Shape) : List Char :=
  (ss.takeWhile isSpoken).flatMap said

structure Lawful (ss : List Shape) : Prop where
  genuine : ∀ s ∈ ss, Genuine s
  follows : ss.IsChain Follows
  shut : ∀ ⦃u⦄, u <:+ ss → Shut (speech u)

lemma Lawful.suffix {ss u : List Shape} (h : Lawful ss) (hu : u <:+ ss) : Lawful u :=
  ⟨fun s hs => h.genuine s (hu.subset hs), h.follows.suffix hu,
    fun _ hv => h.shut (hv.trans hu)⟩

lemma Lawful.tail {s : Shape} {ss : List Shape} (h : Lawful (s :: ss)) : Lawful ss :=
  h.suffix (List.suffix_cons s ss)

def Parser.left (p : Parser) : List Shape :=
  p.rest.map Token.shape

structure Parser.Lawful (p : Parser) : Prop where
  left : Stagecraft.Lawful p.left
  final : p.final.kind = .endOfFile

lemma Parser.Lawful.past {p : Parser} {t : Token} {rest : List Token} (h : p.Lawful)
    (hrest : p.rest = t :: rest) : (p.past t rest).Lawful := by
  have hleft := h.left
  rw [Parser.left, hrest, List.map_cons] at hleft
  exact ⟨hleft.tail, h.final⟩

lemma Parser.Lawful.pastWhile {p : Parser} (f : Token → Bool) (ts : List Token) (h : p.Lawful)
    (hts : p.rest = ts) : (Parser.pastWhile f ts p).Lawful ∧
      (Parser.pastWhile f ts p).diagnostics = p.diagnostics := by
  induction ts generalizing p with
  | nil => exact ⟨h, rfl⟩
  | cons t ts ih =>
    rw [Parser.pastWhile]
    split
    · exact ih (h.past hts) rfl
    · exact ⟨h, rfl⟩

namespace Parse

variable {α β : Type}

def Careful (x : Parse α) : Prop :=
  ∀ p : Parser, p.Lawful → (x p).2.Lawful ∧ ((x p).2.diagnostics = #[] → p.diagnostics = #[])

def Finds (A : Prop) (P : List Shape → Prop) (x : Parse α) (S : α → Prop)
    (Q : α → List Shape → Prop) : Prop :=
  Careful x ∧ ∀ p : Parser, p.Lawful → (x p).2.diagnostics = #[] → A → P p.left →
    S (x p).1 ∧ Q (x p).1 (x p).2.left

abbrev Anywhere : List Shape → Prop :=
  fun _ => True

section Finds

variable {A A' : Prop} {P P' : List Shape → Prop} {S : α → Prop} {Q : α → List Shape → Prop}
  {T : β → Prop} {R : β → List Shape → Prop} {x : Parse α} {f : α → Parse β}

lemma Careful.bind (hx : Careful x) (hf : ∀ a, Careful (f a)) : Careful (x >>= f) := by
  intro p hp
  obtain ⟨hmiddle, hclean⟩ := hx p hp
  obtain ⟨hend, hclean'⟩ := hf (x p).1 (x p).2 hmiddle
  exact ⟨hend, fun h => hclean (hclean' h)⟩

lemma Finds.bind_known (hx : Finds A P x S Q) (hf : ∀ a, Finds (A ∧ S a) (Q a) (f a) T R) :
    Finds A P (x >>= f) T R := by
  refine ⟨hx.1.bind fun a => (hf a).1, fun p hp hclean hA hP => ?_⟩
  have hmiddle := (hx.1 p hp).1
  have hclean' := ((hf (x p).1).1 (x p).2 hmiddle).2 hclean
  obtain ⟨hS, hQ⟩ := hx.2 p hp hclean' hA hP
  exact (hf (x p).1).2 (x p).2 hmiddle hclean ⟨hA, hS⟩ hQ

lemma Finds.bind (hx : Finds True P x S Q) (hf : ∀ a, Finds (A ∧ S a) (Q a) (f a) T R) :
    Finds A P (x >>= f) T R :=
  Finds.bind_known ⟨hx.1, fun p hp hclean _ hP => hx.2 p hp hclean trivial hP⟩ hf

lemma Finds.after (hx : Careful x) (hf : ∀ a, Finds A Anywhere (f a) T R) :
    Finds A P (x >>= f) T R :=
  ⟨hx.bind fun a => (hf a).1, fun p hp hclean hA _ =>
    (hf (x p).1).2 (x p).2 (hx p hp).1 hclean hA trivial⟩

lemma Finds.pre (h : Finds A' P' x S Q) (hpre : A → ∀ ss, Lawful ss → P ss → A' ∧ P' ss) :
    Finds A P x S Q :=
  ⟨h.1, fun p hp hclean hA hP =>
    h.2 p hp hclean (hpre hA _ hp.left hP).1 (hpre hA _ hp.left hP).2⟩

lemma Finds.post {S' : α → Prop} {Q' : α → List Shape → Prop} (h : Finds A P x S Q)
    (hpost : A → ∀ a ss, S a → Q a ss → S' a ∧ Q' a ss) : Finds A P x S' Q' :=
  ⟨h.1, fun p hp hclean hA hP =>
    hpost hA _ _ (h.2 p hp hclean hA hP).1 (h.2 p hp hclean hA hP).2⟩

lemma finds_pure {a : α} (h : A → ∀ ss, P ss → S a ∧ Q a ss) : Finds A P (pure a) S Q :=
  ⟨fun _ hp => ⟨hp, id⟩, fun _ _ _ hA hP => h hA _ hP⟩

lemma finds_cut {a : α} (h : A → ∀ ss, P ss → S a ∧ Q a ss) : Finds A P (cut a) S Q :=
  ⟨fun _ hp => ⟨⟨hp.left, hp.final⟩, id⟩, fun _ _ _ hA hP => h hA _ hP⟩

lemma finds_value {a : α} {f : α → Parse β} {S : β → Prop} {Q : β → List Shape → Prop}
    (h : Finds A P (f a) S Q) : Finds A P (pure a >>= f) S Q :=
  h

lemma report_ne_empty {issue : Issue} {span : Span} {p : Parser} :
    (report issue span p).2.diagnostics ≠ #[] :=
  Array.push_ne_empty

lemma careful_report {issue : Issue} {span : Span} : Careful (report issue span) :=
  fun _ hp => ⟨⟨hp.left, hp.final⟩, fun h => absurd h report_ne_empty⟩

lemma finds_report {issue : Issue} {span : Span} :
    Finds True P (report issue span) (fun _ => False) fun _ _ => False :=
  ⟨careful_report, fun _ _ h => absurd h report_ne_empty⟩

def Heads (t : Token) (ss : List Shape) : Prop :=
  (∃ rest, ss = t.shape :: rest) ∨ ss = [] ∧ t.kind = .endOfFile

lemma Heads.headKind {t : Token} {ss : List Shape} (h : Heads t ss) : headKind ss = t.kind := by
  rcases h with ⟨rest, rfl⟩ | ⟨rfl, h⟩
  · rfl
  · exact h.symm

lemma genuine_end {t : Token} (h : t.kind = .endOfFile) : Genuine t.shape := by
  rw [Token.shape, h]
  trivial

lemma finds_peek : Finds True P peek (fun t => Genuine t.shape) fun t ss => P ss ∧ Heads t ss := by
  refine ⟨fun p hp => ⟨hp, id⟩, fun p hp _ _ hP => ?_⟩
  change Genuine (p.rest.headD p.final).shape ∧ P p.left ∧ Heads (p.rest.headD p.final) p.left
  have hleft := hp.left
  rw [Parser.left] at hleft hP ⊢
  cases hrest : p.rest with
  | nil =>
    rw [hrest] at hP
    exact ⟨genuine_end hp.final, hP, .inr ⟨rfl, hp.final⟩⟩
  | cons t rest =>
    rw [hrest] at hP hleft
    exact ⟨hleft.genuine _ List.mem_cons_self, hP, .inl ⟨_, rfl⟩⟩

lemma finds_peekKind : Finds True P peekKind (fun _ => True)
    fun kind ss => P ss ∧ headKind ss = kind :=
  finds_peek.bind fun _ => finds_pure fun _ _ h => ⟨trivial, h.1, h.2.headKind⟩

lemma careful_peekSecond : Careful peekSecond :=
  fun _ hp => ⟨hp, id⟩

structure Advanced (P : List Shape → Prop) (t : Token) (ss : List Shape) : Prop where
  before : ∃ before, P before ∧ Lawful before ∧
    (before = t.shape :: ss ∨ before = [] ∧ ss = [] ∧ t.kind = .endOfFile)

lemma Advanced.kind {t : Token} {ss : List Shape} (h : Advanced P t ss) :
    ∃ before, P before ∧ headKind before = t.kind := by
  obtain ⟨before, hP, -, rfl | ⟨rfl, -, h⟩⟩ := h.before
  · exact ⟨_, hP, rfl⟩
  · exact ⟨_, hP, h.symm⟩

lemma finds_advance : Finds True P advance (fun t => Genuine t.shape) (Advanced P) := by
  have hadvance (p : Parser) : advance p = (p.final, p) ∧ p.left = [] ∨
      ∃ t rest, advance p = (t, p.past t rest) ∧ p.rest = t :: rest := by
    cases hrest : p.rest with
    | nil => exact .inl (by simp [advance, hrest, Parser.left])
    | cons t rest => exact .inr ⟨t, rest, by simp [advance, hrest], rfl⟩
  refine ⟨fun p hp => ?_, fun p hp _ _ hP => ?_⟩
  · rcases hadvance p with ⟨h, -⟩ | ⟨t, rest, h, hrest⟩ <;> rw [h]
    · exact ⟨hp, id⟩
    · exact ⟨hp.past hrest, id⟩
  · rcases hadvance p with ⟨h, hleft⟩ | ⟨t, rest, h, hrest⟩ <;> rw [h]
    · exact ⟨genuine_end hp.final, ⟨p.left, hP, hp.left, .inr ⟨hleft, hleft, hp.final⟩⟩⟩
    · have hleft : p.left = t.shape :: rest.map Token.shape := by
        rw [Parser.left, hrest, List.map_cons]
      exact ⟨hp.left.genuine _ (by rw [hleft]; exact List.mem_cons_self),
        ⟨p.left, hP, hp.left, .inl hleft⟩⟩

lemma careful_advance : Careful advance :=
  (finds_advance (P := Anywhere)).1

lemma careful_peek : Careful peek :=
  (finds_peek (P := Anywhere)).1

lemma careful_peekKind : Careful peekKind :=
  (finds_peekKind (P := Anywhere)).1

lemma careful_skipWhile {f : Token → Bool} : Careful (skipWhile f) := by
  intro p hp
  obtain ⟨hlawful, hdiagnostics⟩ := hp.pastWhile f p.rest rfl
  exact ⟨hlawful, fun h => hdiagnostics ▸ h⟩

lemma careful_pure {a : α} : Careful (pure a) :=
  fun _ hp => ⟨hp, id⟩

lemma finds_freshId : Finds True P freshId (fun _ => True) fun _ => P :=
  ⟨fun _ hp => ⟨⟨hp.left, hp.final⟩, id⟩, fun _ _ _ _ hP => ⟨trivial, hP⟩⟩

lemma finds_lastSpan : Finds True P lastSpan (fun _ => True) fun _ => P :=
  ⟨fun _ hp => ⟨hp, id⟩, fun _ _ _ _ hP => ⟨trivial, hP⟩⟩

lemma finds_get : Finds True P (get : Parse Parser) (fun _ => True) fun _ => P :=
  ⟨fun _ hp => ⟨hp, id⟩, fun _ _ _ _ hP => ⟨trivial, hP⟩⟩

lemma finds_nodeFrom {first : Span} : Finds True P (nodeFrom first) (fun _ => True) fun _ => P :=
  finds_freshId.bind fun _ => finds_lastSpan.bind fun _ => finds_pure fun _ _ hP => ⟨trivial, hP⟩

lemma finds_node {first : Span} {make : Node → α}
    (h : A → ∀ node ss, P ss → S (make node) ∧ Q (make node) ss) :
    Finds A P (do pure (make (← nodeFrom first))) S Q :=
  finds_nodeFrom.bind fun node => finds_pure fun hA ss hP => h hA.1 node ss hP

lemma careful_unexpected {what : String} : Careful (unexpected what) :=
  careful_peek.bind fun _ => careful_report

lemma finds_unexpected {what : String} :
    Finds True P (unexpected what) (fun _ => False) fun _ _ => False :=
  .after careful_peek fun _ => finds_report

lemma finds_eat {kind : TokenKind} : Finds True P (eat kind) (fun _ => True) fun found ss =>
    (found = true → ∃ t : Token, t.kind = kind ∧ Advanced P t ss) ∧
      (found = false → P ss ∧ headKind ss ≠ kind) := by
  refine finds_peekKind.bind fun next => ?_
  split
  · next hkind =>
    refine finds_advance.bind fun t => finds_pure fun _ ss h =>
      ⟨trivial, fun _ => ⟨t, ?_, ?_⟩, by simp⟩
    · obtain ⟨before, ⟨-, hbefore⟩, hhead⟩ := h.kind
      rw [← hhead, hbefore]
      simpa using hkind
    · obtain ⟨before, ⟨hP, -⟩, hbefore⟩ := h.before
      exact ⟨before, hP, hbefore⟩
  · next hkind =>
    refine finds_pure fun _ ss h => ⟨trivial, by simp, fun _ => ⟨h.1, ?_⟩⟩
    rw [h.2]
    simpa using hkind

lemma careful_eat {kind : TokenKind} : Careful (eat kind) :=
  (finds_eat (P := Anywhere)).1

lemma finds_expect {kind : TokenKind} {what : String} :
    Finds True P (expect kind what) (fun found => found = true)
      fun _ ss => ∃ t : Token, t.kind = kind ∧ Advanced P t ss := by
  refine finds_eat.bind fun found => ?_
  cases found with
  | true => exact finds_pure fun _ ss h => ⟨rfl, h.1 rfl⟩
  | false => exact finds_unexpected.bind fun _ => finds_pure fun hA => hA.2.elim

lemma careful_expect {kind : TokenKind} {what : String} : Careful (expect kind what) :=
  (finds_expect (P := Anywhere)).1

lemma careful_synchronize : Careful synchronize :=
  careful_skipWhile.bind fun _ => careful_eat.bind fun _ => careful_pure

lemma careful_endStatement : Careful endStatement := by
  refine careful_eat.bind fun found => ?_
  cases found
  · exact careful_unexpected.bind fun _ => careful_synchronize
  · exact careful_pure

lemma careful_name {what : String} : Careful (name what) := by
  refine careful_peekKind.bind fun kind => ?_
  split
  · exact careful_advance.bind fun _ => careful_pure
  · exact careful_advance.bind fun _ => careful_pure
  · exact careful_unexpected.bind fun _ => careful_pure

end Finds

lemma headKind_after {P : List Shape → Prop} {t : Token} {ss : List Shape}
    (h : Advanced P t ss) (ht : t.kind = .closeParen) : headKind ss ≠ .startTag := by
  obtain ⟨before, -, hlawful, rfl | ⟨-, rfl, -⟩⟩ := h.before
  · cases ss with
    | nil => simp [headKind]
    | cons s ss => exact (List.isChain_cons_cons.mp hlawful.follows).1.tag ht
  · simp [headKind]

end Parse

end Stagecraft
