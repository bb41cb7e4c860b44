import Stagecraft.Proofs.Script.Shapes

namespace Stagecraft

open Shape

def headKind (ss : List Shape) : TokenKind :=
  (ss.head?.map Prod.fst).getD .endOfFile

@[simp] lemma headKind_cons (s : Shape) (ss : List Shape) : headKind (s :: ss) = s.1 := rfl

structure Parser.Left (total : Nat) (ss : List Shape) (p : Parser) : Prop where
  shapes : p.rest.map Token.shape = ss
  final : p.final.kind = .endOfFile
  taken : p.taken + ss.length = total
  diagnostics : p.diagnostics = #[]

lemma Token.content_of_shape {t : Token} {kind : TokenKind} {s : String}
    (h : t.shape = (kind, .text s)) : t.content = s := by
  have hvalue : t.value = .text s := congrArg Prod.snd h
  rw [content, hvalue]

namespace Parse

variable {total : Nat} {α β : Type}

def Yields (total : Nat) (before : List Shape) (x : Parse α) (Q : α → Prop) (after : List Shape) :
    Prop :=
  ∀ p : Parser, p.Left total before → (x p).2.Left total after ∧ Q (x p).1

section Yields

variable {before middle after ss : List Shape} {s : Shape} {Q : α → Prop} {R : β → Prop}

lemma Yields.bind {x : Parse α} {f : α → Parse β} (hx : Yields total before x Q middle)
    (hf : ∀ a, Q a → Yields total middle (f a) R after) : Yields total before (x >>= f) R after :=
  fun p hp => hf _ (hx p hp).2 _ (hx p hp).1

lemma yields_pure {a : α} (h : Q a) : Yields total ss (pure a) Q ss :=
  fun _ hp => ⟨hp, h⟩

lemma yields_cut {a : α} (h : Q a) : Yields total ss (cut a) Q ss :=
  fun _ hp => ⟨⟨hp.shapes, hp.final, hp.taken, hp.diagnostics⟩, h⟩

lemma yields_peek : Yields total (s :: ss) peek (fun t => t.shape = s) (s :: ss) := by
  refine fun p hp => ⟨hp, ?_⟩
  obtain ⟨t, rest, hrest, ht, -⟩ := List.map_eq_cons_iff.mp hp.shapes
  change (p.rest.headD p.final).shape = s
  rw [hrest]
  exact ht

lemma yields_peek_mark {kind : TokenKind} :
    Yields total (mark kind :: ss) peek (fun t => t.kind = kind) (mark kind :: ss) :=
  fun p hp => ⟨hp, congrArg Prod.fst (yields_peek p hp).2⟩

lemma yields_peek_end : Yields total [] peek (fun t => t.kind = .endOfFile) [] := by
  refine fun p hp => ⟨hp, ?_⟩
  change (p.rest.headD p.final).kind = .endOfFile
  rw [List.map_eq_nil_iff.mp hp.shapes]
  exact hp.final

lemma yields_peekToken : Yields total ss peek (fun t => t.kind = headKind ss) ss := by
  cases ss with
  | nil => exact yields_peek_end
  | cons s ss => exact fun p hp => ⟨hp, congrArg Prod.fst (yields_peek p hp).2⟩

lemma yields_peekKind : Yields total ss peekKind (· = headKind ss) ss := by
  refine fun p hp => ⟨hp, ?_⟩
  change (p.rest.headD p.final).kind = headKind ss
  rw [← hp.shapes]
  cases p.rest with
  | nil => exact hp.final
  | cons t rest => rfl

lemma yields_peekSecond : Yields total (s :: ss) peekSecond (· = headKind ss) (s :: ss) := by
  refine fun p hp => ⟨hp, ?_⟩
  obtain ⟨t, rest, hrest, -, hss⟩ := List.map_eq_cons_iff.mp hp.shapes
  change ((p.rest.drop 1).headD p.final).kind = headKind ss
  rw [hrest, ← hss]
  cases rest with
  | nil => exact hp.final
  | cons t rest => rfl

lemma yields_advance : Yields total (s :: ss) advance (fun t => t.shape = s) ss := by
  intro p hp
  obtain ⟨t, rest, hrest, ht, hss⟩ := List.map_eq_cons_iff.mp hp.shapes
  have hadvance : advance p = (t, p.past t rest) := by simp [advance, hrest]
  rw [hadvance]
  refine ⟨⟨hss, hp.final, ?_, hp.diagnostics⟩, ht⟩
  have htaken := hp.taken
  rw [List.length_cons] at htaken
  change p.taken + 1 + ss.length = total
  omega

lemma yields_freshId : Yields total ss freshId (fun _ => True) ss :=
  fun _ hp => ⟨⟨hp.shapes, hp.final, hp.taken, hp.diagnostics⟩, trivial⟩

lemma yields_lastSpan : Yields total ss lastSpan (fun _ => True) ss :=
  fun _ hp => ⟨hp, trivial⟩

lemma yields_nodeFrom {first : Span} : Yields total ss (nodeFrom first) (fun _ => True) ss :=
  yields_freshId.bind fun _ _ => yields_lastSpan.bind fun _ _ => yields_pure trivial

lemma yields_node {first : Span} {make : Node → α} (h : ∀ node, Q (make node)) :
    Yields total ss (do pure (make (← nodeFrom first))) Q ss :=
  yields_nodeFrom.bind fun node _ => yields_pure (h node)

lemma yields_eat {kind : TokenKind} (h : s.1 = kind) :
    Yields total (s :: ss) (eat kind) (· = true) ss := by
  refine yields_peekKind.bind fun next hnext => ?_
  rw [if_pos (by simp [hnext, h])]
  exact yields_advance.bind fun _ _ => yields_pure rfl

lemma yields_not_eat {kind : TokenKind} (h : headKind ss ≠ kind) :
    Yields total ss (eat kind) (· = false) ss := by
  refine yields_peekKind.bind fun next hnext => ?_
  rw [if_neg (by simp [hnext, h])]
  exact yields_pure rfl

lemma yields_expect {kind : TokenKind} {what : String} (h : s.1 = kind) :
    Yields total (s :: ss) (expect kind what) (· = true) ss := by
  refine (yields_eat h).bind fun found hfound => ?_
  rw [if_pos hfound]
  exact yields_pure rfl

lemma yields_endStatement :
    Yields total (mark .semicolon :: ss) endStatement (fun _ => True) ss := by
  refine (yields_eat rfl).bind fun found hfound => ?_
  rw [hfound]
  exact yields_pure trivial

lemma yields_endNode {first : Span} {make : Node → α} (h : ∀ node, Q (make node)) :
    Yields total (mark .semicolon :: ss)
      (do endStatement; pure (make (← nodeFrom first))) Q ss :=
  yields_endStatement.bind fun _ _ => yields_node h

lemma yields_name {what name : String} {kind : TokenKind}
    (h : kind = .identifier ∨ kind = .stringLiteral) :
    Yields total ((kind, .text name) :: ss) (Parse.name what) (· = name) ss := by
  refine yields_peekKind.bind fun next hnext => ?_
  have htake : Yields total ((kind, .text name) :: ss)
      (do pure (← advance).content) (· = name) ss :=
    yields_advance.bind fun t ht => yields_pure (Token.content_of_shape ht)
  rcases h with rfl | rfl <;> rw [hnext] <;> exact htake

lemma yields_quoted {what name : String} :
    Yields total (quoted name :: ss) (Parse.name what) (· = name) ss := by
  unfold quoted
  split
  · exact yields_name (.inl rfl)
  · exact yields_name (.inr rfl)

lemma yields_label {what name : String} :
    Yields total (label name :: ss) (Parse.name what) (· = name) ss := by
  unfold label
  split
  · exact yields_name (.inl rfl)
  · exact yields_quoted

end Yields

end Parse

end Stagecraft
