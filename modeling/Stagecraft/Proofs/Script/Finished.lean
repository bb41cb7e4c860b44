import Stagecraft.Proofs.Script.Progress

/-!
Each loop of the parser is a sequence of rounds, and a round that goes on has taken a token. With
the steps that the tokens left allow for no reader is cut short.
-/

namespace Stagecraft

namespace Parse

variable {α β : Type} {enough : Prop} {p : Parser}

lemma ne_end_of_some {γ : Type} {f : TokenKind → Option γ} {kind : TokenKind} {c : γ}
    (hend : f .endOfFile = none) (h : f kind = some c) : kind ≠ .endOfFile := by
  rintro rfl
  simp [hend] at h

section Expressions

def argumentsTurn (fuel : Nat) (found : Array Expression) :
    Parse (Turn (Array Expression) (Array Expression)) := do
  let e ← expression fuel
  if ← eat .comma then pure (.goOn (found.push e)) else pure (.leave (found.push e))

lemma arguments_unroll (fuel : Nat) (found : Array Expression) :
    arguments (fuel + 1) found = argumentsTurn fuel found >>= again (arguments fuel) := by
  rw [arguments, argumentsTurn]
  simp only [bind_assoc]
  exact bind_congr fun e => bind_congr fun more => by cases more <;> rfl

lemma goes_argumentsTurn {fuel : Nat} {found : Array Expression}
    (h : Goes enough (fun _ => 0) (expression fuel) p) :
    Goes enough Turn.steps (argumentsTurn fuel found) p :=
  h.bind fun _ _ _ => goes_eat (by decide) (fun _ _ _ => goes_pure rfl) fun _ => goes_pure rfl

mutual

theorem goes_expression (fuel : Nat) (p : Parser) :
    Goes (16 * p.rest.length + 10 ≤ fuel) (fun _ => 0) (expression fuel) p := by
  match fuel with
  | 0 => exact goes_cut (by omega)
  | fuel + 1 =>
    refine ((goes_binary fuel 0 p).mono (by omega) fun _ => Nat.le_refl _).bind
      fun target q hq => goes_look ?_
    split
    · next op hop =>
      refine goes_take (ne_end_of_some rfl hop) fun r hr => ?_
      refine ((goes_expression fuel r).mono (fun he => ?_) fun _ => Nat.le_refl _).bind
        fun _ _ _ => goes_assignment
      have := hq.left he
      have := hr.left he
      omega
    · next op _ hop =>
      exact goes_take (ne_end_of_some rfl hop) fun _ _ => goes_assignment
    · exact goes_pure rfl

theorem goes_binary (fuel level : Nat) (p : Parser) :
    Goes (16 * p.rest.length + 3 + (6 - level) ≤ fuel) (fun _ => 0) (binary fuel level) p := by
  match fuel with
  | 0 => exact goes_cut (by omega)
  | fuel + 1 =>
    rw [binary]
    split
    · next hlevel =>
      have hlevel : level < 6 := hlevel
      refine ((goes_binary fuel (level + 1) p).mono (by omega) fun _ => Nat.le_refl _).bind
        fun left q hq => (goes_binaryMore fuel level left q).mono (fun he => ?_)
          fun _ => Nat.le_refl _
      have := hq.left he
      omega
    · exact (goes_unary fuel p).mono (by omega) fun _ => Nat.le_refl _

theorem goes_binaryMore (fuel level : Nat) (left : Expression) (p : Parser) :
    Goes (16 * p.rest.length + 1 ≤ fuel) (fun _ => 0) (binaryMore fuel level left) p := by
  match fuel with
  | 0 => exact goes_cut (by omega)
  | fuel + 1 =>
    rw [binaryMore]
    refine goes_lookKind ?_
    split
    · exact goes_pure rfl
    · next op hop =>
      have hend : operatorAt level .endOfFile = none := by
        unfold operatorAt
        split <;> trivial
      refine goes_take (ne_end_of_some hend hop) fun q hq => ?_
      refine ((goes_binary fuel (level + 1) q).mono (fun he => ?_) fun _ => Nat.le_refl _).bind
        fun right r hr => goes_freshId.bind fun id u hu =>
          (goes_binaryMore fuel level _ u).mono (fun he => ?_) fun _ => Nat.le_refl _
      · have := hq.left he
        omega
      · have := hq.left he
        have := hr.left he
        have := hu.left he
        omega

theorem goes_unary (fuel : Nat) (p : Parser) :
    Goes (16 * p.rest.length + 2 ≤ fuel) (fun _ => 0) (unary fuel) p := by
  match fuel with
  | 0 => exact goes_cut (by omega)
  | fuel + 1 =>
    rw [unary]
    refine goes_lookKind ?_
    split
    · exact (goes_primary fuel p).mono (by omega) fun _ => Nat.le_refl _
    · next op hop =>
      refine goes_take (ne_end_of_some rfl hop) fun q hq => ?_
      refine ((goes_unary fuel q).mono (fun he => ?_) fun _ => Nat.le_refl _).bind
        fun _ _ _ => goes_freshId.bind fun _ _ _ => goes_pure rfl
      have := hq.left he
      omega

theorem goes_primary (fuel : Nat) (p : Parser) :
    Goes (16 * p.rest.length + 1 ≤ fuel) (fun _ => 0) (primary fuel) p := by
  match fuel with
  | 0 => exact goes_cut (by omega)
  | fuel + 1 =>
    rw [primary]
    refine goes_look ?_
    have hliteral {q : Parser} (value : Literal) :
        Goes (16 * p.rest.length + 1 ≤ fuel + 1) (fun _ => 0) (do
          let _ ← advance
          pure (Expression.literal (← nodeFrom p.next.span) value)) q :=
      goes_advance.bind fun _ _ _ => goes_nodeFrom.bind fun _ _ _ => goes_pure rfl
    simp only
    split
    · split
      · exact hliteral _
      · exact hliteral _
      · exact hliteral _
    · exact hliteral _
    · exact hliteral _
    · exact hliteral _
    · exact hliteral _
    · next hkind =>
      have hend : p.next.kind ≠ .endOfFile := by simp [hkind]
      refine goes_lookSecond fun second => ?_
      split
      · refine goes_take hend fun q hq => goes_advance.bind fun _ r hr =>
          goes_eat (by decide) (fun _ _ _ => goes_nodeFrom.bind fun _ _ _ => goes_pure rfl)
            fun _ => ?_
        refine ((goes_arguments fuel #[] r).mono (fun he => ?_) fun _ => Nat.le_refl _).bind
          fun _ _ _ => goes_close (by decide) fun _ _ _ =>
            goes_nodeFrom.bind fun _ _ _ => goes_pure rfl
        have := hq.left he
        have := hr.left he
        omega
      · exact goes_take hend fun _ _ => goes_nodeFrom.bind fun _ _ _ => goes_pure rfl
    · next hkind =>
      have hend : p.next.kind ≠ .endOfFile := by simp [hkind]
      refine goes_take hend fun q hq => ?_
      refine ((goes_expression fuel q).mono (fun he => ?_) fun _ => Nat.le_refl _).bind
        fun _ _ _ => goes_close (by decide) fun _ _ _ => goes_pure rfl
      have := hq.left he
      omega
    · refine goes_unexpected.bind fun _ q hq => ?_
      split
      · exact hliteral _
      · exact goes_nodeFrom.bind fun _ _ _ => goes_pure rfl

theorem goes_arguments (fuel : Nat) (found : Array Expression) (p : Parser) :
    Goes (16 * p.rest.length + 11 ≤ fuel) (fun _ => 0) (arguments fuel found) p := by
  match fuel with
  | 0 => exact goes_cut (by omega)
  | fuel + 1 =>
    rw [arguments_unroll]
    refine (goes_argumentsTurn ((goes_expression fuel p).mono (by omega)
      fun _ => Nat.le_refl _)).again fun found q hq =>
        (goes_arguments fuel found q).mono (fun he => ?_) fun _ => Nat.le_refl _
    have := hq.left he
    omega

end

end Expressions

section Statements

def statementsTurn (fuel : Nat) (found : Array Statement) :
    Parse (Turn (Array Statement) (Array Statement)) := do
  if endsBlock (← peekKind) then pure (.leave found)
  else
    let before := (← get).taken
    let s ← statement fuel
    if (← get).taken == before then
      let _ ← advance
    pure (.goOn (found.push s))

def choicesTurn (fuel : Nat) (found : Array Choice) : Parse (Turn (Array Choice) (Array Choice)) := do
  match ← peekKind with
  | .closeBrace | .endOfFile => pure (.leave found)
  | .caseWord =>
    let t ← advance
    let label ← name "a case label"
    let _ ← expect .colon "':'"
    let body ← statement fuel
    let id ← freshId
    pure (.goOn (found.push (.mk { id, span := t.span.through body.node.span } label body)))
  | _ =>
    unexpected "'case'"
    synchronize
    if (← peekKind).isMember then pure (.leave found) else pure (.goOn found)

def dialoguePartsTurn (fuel : Nat) (state : Array DialoguePart × Pending) :
    Parse (Turn (Array DialoguePart × Pending) (Array DialoguePart)) := do
  let t ← peek
  if t.isDialogueEnd then
    let _ ← advance
    pure (.leave (← flush state.1 state.2))
  else match t.kind with
    | .endOfFile =>
      unexpected "</PRE>"
      pure (.leave (← flush state.1 state.2))
    | .openBrace =>
      let found ← flush state.1 state.2
      let body ← block fuel
      pure (.goOn (found.push (.code body), {}))
    | .markupText | .markupLineBreak | .startTag | .endTag | .dialogueIdentifier =>
      let _ ← advance
      pure (.goOn (state.1, state.2.add t))
    | _ =>
      unexpected "dialogue text or '\x7b'"
      let _ ← advance
      pure (.goOn state)

lemma statements_unroll (fuel : Nat) (found : Array Statement) :
    statements (fuel + 1) found = statementsTurn fuel found >>= again (statements fuel) := by
  rw [statements, statementsTurn]
  simp only [bind_assoc]
  refine bind_congr fun kind => ?_
  cases endsBlock kind
  · simp only [Bool.false_eq_true, if_false, bind_assoc]
    refine bind_congr fun before => bind_congr fun s => bind_congr fun after => ?_
    split <;> rfl
  · rfl

lemma choices_unroll (fuel : Nat) (found : Array Choice) :
    choices (fuel + 1) found = choicesTurn fuel found >>= again (choices fuel) := by
  rw [choices, choicesTurn]
  simp only [bind_assoc]
  refine bind_congr fun kind => ?_
  split
  · rfl
  · rfl
  · simp only [bind_assoc]
    rfl
  · simp only [bind_assoc]
    refine bind_congr fun _ => bind_congr fun _ => bind_congr fun kind => ?_
    split <;> rfl

lemma dialogueParts_unroll (fuel : Nat) (found : Array DialoguePart) (pending : Pending) :
    dialogueParts (fuel + 1) found pending =
      dialoguePartsTurn fuel (found, pending) >>= again fun s => dialogueParts fuel s.1 s.2 := by
  rw [dialogueParts, dialoguePartsTurn]
  simp only [bind_assoc]
  refine bind_congr fun t => ?_
  split
  · simp only [bind_assoc]
    rfl
  · generalize t.kind = kind
    split
    all_goals
      simp only [bind_assoc]
      rfl

lemma goes_condition {fuel : Nat} :
    Goes (16 * p.rest.length + 10 ≤ fuel) (fun _ => 0) (condition fuel) p := by
  refine goes_close (by decide) fun _ q hq => ?_
  refine ((goes_expression fuel q).mono (fun he => ?_) fun _ => Nat.le_refl _).bind
    fun _ _ _ => goes_close (by decide) fun _ _ _ => goes_pure rfl
  have := hq.left he
  omega

lemma statementsTurn_apply {fuel : Nat} {found : Array Statement} {s : Statement} {q : Parser}
    (hgoes : endsBlock p.next.kind = false) (hs : statement fuel p = (s, q)) :
    statementsTurn fuel found p =
      (.goOn (found.push s), if q.taken == p.taken then (advance q).2 else q) := by
  unfold statementsTurn
  change (if endsBlock p.next.kind then _ else _ :
    Parse (Turn (Array Statement) (Array Statement))) p = _
  rw [if_neg (by simp [hgoes])]
  change (if (statement fuel p).2.taken == p.taken then _ else _ :
    Parse (Turn (Array Statement) (Array Statement))) (statement fuel p).2 = _
  rw [hs]
  split <;> rfl

lemma goes_statementsTurn {fuel : Nat} {found : Array Statement}
    (h : Goes enough (fun _ => 0) (statement fuel) p) :
    Goes enough Turn.steps (statementsTurn fuel found) p := by
  cases hgoes : endsBlock p.next.kind with
  | true =>
    refine goes_lookKind ?_
    rw [if_pos hgoes]
    exact goes_pure rfl
  | false =>
    intro hp
    obtain ⟨s, q, hs⟩ : ∃ s q, statement fuel p = (s, q) := ⟨_, _, rfl⟩
    have hq : p.Went enough 0 q := by
      have hwent := h hp
      rwa [hs] at hwent
    rw [statementsTurn_apply hgoes hs]
    by_cases htaken : q.taken = p.taken
    · simp only [htaken, beq_self_eq_true, if_true]
      have hend : q.next.kind ≠ .endOfFile := by
        rw [hq.onward.next htaken]
        intro hend
        simp [hend, endsBlock] at hgoes
      exact (hq.trans (goes_take (n := fun _ => 1) (f := pure) hend
        (fun _ _ => goes_pure rfl) (hq.onward.proper hp))).mono id (Nat.le_refl _)
    · simp only [beq_iff_eq, htaken, if_false]
      have hlength := hq.onward.length
      exact ⟨hq.onward, fun _ => by simp only [Turn.steps]; omega, hq.whole⟩

lemma goes_choicesTurn {fuel : Nat} {found : Array Choice}
    (h : ∀ q, Goes (16 * q.rest.length + 11 ≤ fuel) (fun _ => 0) (statement fuel) q) :
    Goes (16 * p.rest.length + 12 ≤ fuel + 1) Turn.steps (choicesTurn fuel found) p := by
  refine goes_lookKind ?_
  split
  · exact goes_pure rfl
  · exact goes_pure rfl
  · next hkind =>
    refine goes_take (by simp [hkind]) fun q hq => goes_name.bind fun _ r hr => ?_
    refine goes_close (by decide) fun _ u hu => ?_
    refine ((h u).mono (fun he => ?_) fun _ => Nat.le_refl _).bind fun _ _ _ => goes_freshId.bind
      fun _ _ _ => goes_pure rfl
    have := ((hq.trans hr).trans hu).left he
    omega
  · next hbrace hend _ =>
    refine still_unexpected.then fun _ q _ hnext => ?_
    cases hmember : q.next.kind.isMember with
    | true =>
      refine goes_skip (fun hq => synchronize_stop hq hmember) (goes_lookKind ?_)
      rw [if_pos hmember]
      exact goes_pure rfl
    | false =>
      refine (goes_synchronize_of (hnext ▸ hend) (hnext ▸ hbrace) hmember).bind fun _ _ _ =>
        goes_lookKind ?_
      split
      · exact goes_pure rfl
      · exact goes_pure rfl

lemma goes_dialoguePartsTurn {fuel : Nat} {state : Array DialoguePart × Pending}
    (h : ∀ q, q.next.kind = .openBrace →
      Goes (16 * q.rest.length + 1 ≤ fuel) (fun _ => 1) (block fuel) q) :
    Goes (16 * p.rest.length + 1 ≤ fuel) Turn.steps (dialoguePartsTurn fuel state) p := by
  refine goes_look ?_
  split
  · exact goes_advance.bind fun _ _ _ => goes_flush.bind fun _ _ _ => goes_pure rfl
  split
  · exact goes_unexpected.bind fun _ _ _ => goes_flush.bind fun _ _ _ => goes_pure rfl
  · next hkind =>
    refine still_flush.then fun _ q hq hnext => ((h q (by rw [hnext, hkind])).mono (fun he => ?_)
      fun _ => Nat.le_refl _).bind fun _ _ _ => goes_pure rfl
    have := hq.left he
    omega
  · next hkind => exact goes_take (by simp [hkind]) fun _ _ => goes_pure rfl
  · next hkind => exact goes_take (by simp [hkind]) fun _ _ => goes_pure rfl
  · next hkind => exact goes_take (by simp [hkind]) fun _ _ => goes_pure rfl
  · next hkind => exact goes_take (by simp [hkind]) fun _ _ => goes_pure rfl
  · next hkind => exact goes_take (by simp [hkind]) fun _ _ => goes_pure rfl
  · next hend _ _ _ _ _ _ =>
    exact still_unexpected.then fun _ q _ hnext =>
      goes_take (hnext ▸ hend) fun _ _ => goes_pure rfl

mutual

theorem goes_statement (fuel : Nat) (p : Parser) :
    Goes (16 * p.rest.length + 11 ≤ fuel) (fun _ => 0) (statement fuel) p := by
  match fuel with
  | 0 => exact goes_cut (by omega)
  | fuel + 1 =>
    rw [statement]
    refine goes_look ?_
    have hnode {q : Parser} {make : Node → Statement} :
        Goes (16 * p.rest.length + 11 ≤ fuel + 1) (fun _ => 0)
          (do pure (make (← nodeFrom p.next.span))) q :=
      goes_nodeFrom.bind fun _ _ _ => goes_pure rfl
    have hstatement {q : Parser} (hq : p.Went (16 * p.rest.length + 11 ≤ fuel + 1) 1 q) :
        Goes (16 * p.rest.length + 11 ≤ fuel + 1) (fun _ => 0) (statement fuel) q := by
      refine (goes_statement fuel q).mono (fun he => ?_) fun _ => Nat.le_refl _
      have := hq.left he
      omega
    have hexpression {q : Parser} (hq : p.Went (16 * p.rest.length + 11 ≤ fuel + 1) 0 q) :
        Goes (16 * p.rest.length + 11 ≤ fuel + 1) (fun _ => 0) (expression fuel) q := by
      refine (goes_expression fuel q).mono (fun he => ?_) fun _ => Nat.le_refl _
      have := hq.left he
      omega
    have hcondition {q : Parser} (hq : p.Went (16 * p.rest.length + 11 ≤ fuel + 1) 0 q) :
        Goes (16 * p.rest.length + 11 ≤ fuel + 1) (fun _ => 0) (condition fuel) q := by
      refine goes_condition.mono (fun he => ?_) fun _ => Nat.le_refl _
      have := hq.left he
      omega
    split
    · exact ((goes_block fuel 0 p (.inl rfl)).mono (by omega) fun _ => Nat.le_refl _).bind
        fun _ _ _ => hnode
    · next hkind =>
      refine goes_take (by simp [hkind]) fun q hq => ?_
      refine (hcondition (hq.mono id (Nat.zero_le _))).bind fun c r hr => ?_
      refine (hstatement (hq.trans hr)).bind fun yes u hu => ?_
      refine goes_eat (by decide) (fun _ v hv => ?_) fun _ => hnode
      have htaken := ((hq.trans hr).trans hu).trans hv
      exact (hstatement (htaken.mono id (by decide))).bind fun no _ _ => hnode
    · next hkind =>
      refine goes_take (by simp [hkind]) fun q hq => ?_
      refine (hcondition (hq.mono id (Nat.zero_le _))).bind fun c r hr => ?_
      exact (hstatement (hq.trans hr)).bind fun body _ _ => hnode
    · next hkind =>
      refine goes_take (by simp [hkind]) fun q hq => ?_
      refine goes_expect (by decide) (fun _ r hr => ?_) fun _ _ _ => hnode
      refine ((goes_choices fuel #[] r).mono (fun he => ?_) fun _ => Nat.le_refl _).bind
        fun cases _ _ => goes_close (by decide) fun _ _ _ => hnode
      have := hq.left he
      have := hr.left he
      omega
    · next hkind =>
      exact goes_take (by simp [hkind]) fun _ _ => goes_name.bind fun _ _ _ =>
        goes_endStatement.bind fun _ _ _ => hnode
    · next hkind =>
      exact goes_take (by simp [hkind]) fun _ _ => goes_name.bind fun _ _ _ =>
        goes_endStatement.bind fun _ _ _ => hnode
    · next hkind =>
      refine goes_take (by simp [hkind]) fun q hq => goes_lookKind ?_
      split
      · exact goes_endStatement.bind fun _ _ _ => hnode
      · exact (hexpression (hq.mono id (Nat.zero_le _))).bind fun _ _ _ =>
          goes_endStatement.bind fun _ _ _ => hnode
    · next hkind =>
      exact goes_take (by simp [hkind]) fun _ _ => goes_endStatement.bind fun _ _ _ => hnode
    · next hkind => exact goes_take (by simp [hkind]) fun _ _ => hnode
    · split
      · exact ((goes_dialogue fuel 0 p (.inl rfl)).mono (by omega) fun _ => Nat.le_refl _).bind
          fun _ _ _ => hnode
      · exact (hexpression (.refl _ p)).bind fun _ _ _ => goes_endStatement.bind fun _ _ _ => hnode

theorem goes_block (fuel n : Nat) (p : Parser) (hn : n = 0 ∨ n = 1 ∧ p.next.kind = .openBrace) :
    Goes (16 * p.rest.length + 1 ≤ fuel) (fun _ => n) (block fuel) p := by
  match fuel with
  | 0 => exact goes_cut (by omega)
  | fuel + 1 =>
    rw [block]
    refine still_freshId.then fun id q hq hnext => goes_look ?_
    refine goes_expect (by decide) (fun _ r hr => ?_) fun hbrace _ _ => goes_pure ?_
    · refine ((goes_statements fuel #[] r).mono (fun he => ?_) fun _ => Nat.le_refl _).bind
        fun found u hu => ?_
      · have := hq.left he
        have := hr.left he
        omega
      exact (goes_close (by decide) fun _ _ _ => goes_lastSpan.bind fun _ _ _ =>
        goes_pure rfl).mono (fun he => he) fun _ => by omega
    · rcases hn with rfl | ⟨-, hkind⟩
      · rfl
      · exact absurd (hnext ▸ hkind) hbrace

theorem goes_statements (fuel : Nat) (found : Array Statement) (p : Parser) :
    Goes (16 * p.rest.length + 12 ≤ fuel) (fun _ => 0) (statements fuel found) p := by
  match fuel with
  | 0 => exact goes_cut (by omega)
  | fuel + 1 =>
    rw [statements_unroll]
    refine (goes_statementsTurn ((goes_statement fuel p).mono (by omega)
      fun _ => Nat.le_refl _)).again fun found q hq =>
        (goes_statements fuel found q).mono (fun he => ?_) fun _ => Nat.le_refl _
    have := hq.left he
    omega

theorem goes_choices (fuel : Nat) (found : Array Choice) (p : Parser) :
    Goes (16 * p.rest.length + 12 ≤ fuel) (fun _ => 0) (choices fuel found) p := by
  match fuel with
  | 0 => exact goes_cut (by omega)
  | fuel + 1 =>
    rw [choices_unroll]
    refine (goes_choicesTurn (goes_statement fuel)).again fun found q hq =>
      (goes_choices fuel found q).mono (fun he => ?_) fun _ => Nat.le_refl _
    have := hq.left he
    omega

theorem goes_dialogue (fuel n : Nat) (p : Parser) (hn : n = 0 ∨ n = 1 ∧ p.next.kind ≠ .endOfFile) :
    Goes (16 * p.rest.length + 3 ≤ fuel) (fun _ => n) (dialogue fuel) p := by
  match fuel with
  | 0 => exact goes_freshId.bind fun _ _ _ => goes_cut (by omega)
  | fuel + 1 =>
    rw [dialogue]
    refine goes_start hn fun t q hq => goes_freshId.bind fun id r hr =>
      goes_skipWhile.bind fun _ u hu => goes_look ?_
    have hrest {v : Parser} (hv : u.Went (16 * p.rest.length + 3 ≤ fuel + 1) 0 v)
        (name : Option String) : Goes (16 * p.rest.length + 3 ≤ fuel + 1) (fun _ => 0) (do
          let parts ← dialogueParts fuel #[] {}
          let last ← lastSpan
          pure (Dialogue.mk { id, span := t.span.through last } (boxName t.content) name
            parts.toList)) v := by
      refine ((goes_dialogueParts fuel #[] {} v).mono (fun he => ?_) fun _ => Nat.le_refl _).bind
        fun _ _ _ => goes_lastSpan.bind fun _ _ _ => goes_pure rfl
      have := (((hq.trans hr).trans hu).trans hv).left he
      omega
    simp only
    split
    · exact goes_advance.bind fun _ _ hv => hrest hv _
    · exact hrest (.refl _ u) _

theorem goes_dialogueParts (fuel : Nat) (found : Array DialoguePart) (pending : Pending)
    (p : Parser) :
    Goes (16 * p.rest.length + 2 ≤ fuel) (fun _ => 0) (dialogueParts fuel found pending) p := by
  match fuel with
  | 0 => exact goes_cut (by omega)
  | fuel + 1 =>
    rw [dialogueParts_unroll]
    refine ((goes_dialoguePartsTurn fun q hbrace => goes_block fuel 1 q (.inr ⟨rfl, hbrace⟩)).mono
      (by omega) fun _ => Nat.le_refl _).again fun state q hq =>
        (goes_dialogueParts fuel state.1 state.2 q).mono (fun he => ?_) fun _ => Nat.le_refl _
    have := hq.left he
    omega

end

end Statements

section Files

def formalParametersTurn (found : Array FormalParameter) :
    Parse (Turn (Array FormalParameter) (Array FormalParameter)) := do
  let t ← peek
  if t.kind == .identifier then
    let _ ← advance
    let id ← freshId
    let found := found.push { node := { id, span := t.span }, name := t.content }
    if ← eat .comma then pure (.goOn found)
    else
      let _ ← expect .closeParen "')'"
      pure (.leave found)
  else
    unexpected "a parameter name"
    skipWhile fun t => !(t.kind == .closeParen || t.kind == .openBrace)
    let _ ← eat .closeParen
    pure (.leave found)

def itemsTurn (fuel : Nat) (found : Array Include × Array Member) :
    Parse (Turn (Array Include × Array Member) (List Include × List Member)) := do
  let t ← peek
  if t.kind == .endOfFile then pure (.leave (found.1.toList, found.2.toList))
  else if t.kind == .includeDirective then
    let _ ← advance
    pure (.goOn (found.1.push { path := t.content, span := t.span }, found.2))
  else if t.kind.isMember then
    let m ← member fuel
    pure (.goOn (found.1, found.2.push m))
  else if t.isDialogueStart then
    let d ← dialogue fuel
    pure (.goOn (found.1, found.2.push (.dialogue d)))
  else
    unexpected "chapter, scene, function or dialogue block"
    let _ ← advance
    skipWhile (!startsItem ·)
    pure (.goOn found)

lemma formalParameters_unroll (fuel : Nat) (found : Array FormalParameter) :
    formalParameters (fuel + 1) found =
      formalParametersTurn found >>= again (formalParameters fuel) := by
  rw [formalParameters, formalParametersTurn]
  simp only [bind_assoc]
  refine bind_congr fun t => ?_
  split
  · simp only [bind_assoc]
    refine bind_congr fun _ => bind_congr fun id => bind_congr fun more => ?_
    cases more <;> rfl
  · simp only [bind_assoc]
    rfl

lemma items_unroll (fuel : Nat) (includes : Array Include) (members : Array Member) :
    items (fuel + 1) includes members =
      itemsTurn fuel (includes, members) >>= again fun found => items fuel found.1 found.2 := by
  rw [items, itemsTurn]
  simp only [bind_assoc]
  refine bind_congr fun t => ?_
  split
  · rfl
  split
  · rfl
  split
  · simp only [bind_assoc]
    rfl
  split
  · simp only [bind_assoc]
    rfl
  · simp only [bind_assoc]
    rfl

lemma goes_formalParametersTurn {found : Array FormalParameter} :
    Goes enough Turn.steps (formalParametersTurn found) p := by
  refine goes_look ?_
  split
  · next hkind =>
    have hend : p.next.kind ≠ .endOfFile := by simp [beq_iff_eq.mp hkind]
    exact goes_take hend fun _ _ => goes_freshId.bind fun _ _ _ =>
      goes_eat (by decide) (fun _ _ _ => goes_pure rfl) fun _ =>
        goes_expect (by decide) (fun _ _ _ => goes_pure rfl) fun _ _ _ => goes_pure rfl
  · exact goes_unexpected.bind fun _ _ _ => goes_skipWhile.bind fun _ _ _ =>
      goes_eat (by decide) (fun _ _ _ => goes_pure rfl) fun _ => goes_pure rfl

lemma goes_formalParameters (fuel : Nat) (found : Array FormalParameter) (p : Parser) :
    Goes (16 * p.rest.length + 1 ≤ fuel) (fun _ => 0) (formalParameters fuel found) p := by
  induction fuel generalizing found p with
  | zero => exact goes_cut (by omega)
  | succ fuel ih =>
    rw [formalParameters_unroll]
    refine goes_formalParametersTurn.again fun found q hq =>
      (ih found q).mono (fun he => ?_) fun _ => Nat.le_refl _
    have := hq.left he
    omega

lemma goes_parameterList {fuel : Nat} :
    Goes (16 * p.rest.length + 1 ≤ fuel) (fun _ => 0) (parameterList fuel) p := by
  refine goes_expect (by decide) (fun _ q hq => ?_) fun _ _ _ => goes_pure rfl
  refine goes_eat (by decide) (fun _ _ _ => goes_pure rfl) fun _ => ?_
  refine ((goes_formalParameters fuel #[] q).mono (fun he => ?_) fun _ => Nat.le_refl _).bind
    fun _ _ _ => goes_pure rfl
  have := hq.left he
  omega

lemma goes_member {fuel : Nat} (hend : p.next.kind ≠ .endOfFile) :
    Goes (16 * p.rest.length + 1 ≤ fuel) (fun _ => 1) (member fuel) p := by
  refine goes_take hend fun q hq => goes_freshId.bind fun id r hr => goes_name.bind
    fun name u hu => ?_
  have hblock {v : Parser} (hv : u.Went (16 * p.rest.length + 1 ≤ fuel) 0 v)
      (make : Block → Member) : Goes (16 * p.rest.length + 1 ≤ fuel) (fun _ => 0)
        (do pure (make (← block fuel))) v := by
    refine ((goes_block fuel 0 v (.inl rfl)).mono (fun he => ?_) fun _ => Nat.le_refl _).bind
      fun _ _ _ => goes_pure rfl
    have := (((hq.trans hr).trans hu).trans hv).left he
    omega
  simp only
  split
  · exact hblock (.refl _ u) _
  · exact hblock (.refl _ u) _
  · refine (goes_parameterList.mono (fun he => ?_) fun _ => Nat.le_refl _).bind
      fun _ v hv => hblock hv _
    have := ((hq.trans hr).trans hu).left he
    omega

lemma goes_itemsTurn {fuel : Nat} {found : Array Include × Array Member} :
    Goes (16 * p.rest.length + 3 ≤ fuel) Turn.steps (itemsTurn fuel found) p := by
  refine goes_look ?_
  split
  · exact goes_pure rfl
  next hend =>
  have hend : p.next.kind ≠ .endOfFile := by simpa using hend
  split
  · exact goes_take hend fun _ _ => goes_pure rfl
  split
  · exact ((goes_member hend).mono (by omega) fun _ => Nat.le_refl _).bind
      fun _ _ _ => goes_pure rfl
  split
  · exact (goes_dialogue fuel 1 p (.inr ⟨rfl, hend⟩)).bind fun _ _ _ => goes_pure rfl
  · exact still_unexpected.then fun _ q _ hnext => goes_take (hnext ▸ hend) fun _ _ =>
      goes_skipWhile.bind fun _ _ _ => goes_pure rfl

lemma goes_items (fuel : Nat) (includes : Array Include) (members : Array Member) (p : Parser) :
    Goes (16 * p.rest.length + 4 ≤ fuel) (fun _ => 0) (items fuel includes members) p := by
  induction fuel generalizing includes members p with
  | zero => exact goes_cut (by omega)
  | succ fuel ih =>
    rw [items_unroll]
    refine (goes_itemsTurn.mono (by omega) fun _ => Nat.le_refl _).again fun found q hq =>
      (ih found.1 found.2 q).mono (fun he => ?_) fun _ => Nat.le_refl _
    have := hq.left he
    omega

lemma itemsTurn_cases (fuel : Nat) (found : Array Include × Array Member) (p : Parser) :
    p.next.kind = .endOfFile ∧
        itemsTurn fuel found p = (.leave (found.1.toList, found.2.toList), p) ∨
      ∃ found' q, itemsTurn fuel found p = (.goOn found', q) := by
  unfold itemsTurn
  rw [bind_at]
  change p.next.kind = .endOfFile ∧ (if p.next.kind == .endOfFile then _ else _ :
    Parse (Turn (Array Include × Array Member) (List Include × List Member))) p = _ ∨
      ∃ found' q, (if p.next.kind == .endOfFile then _ else _ :
        Parse (Turn (Array Include × Array Member) (List Include × List Member))) p = _
  by_cases hend : p.next.kind = .endOfFile
  · rw [if_pos (by simpa using hend)]
    exact .inl ⟨hend, rfl⟩
  · rw [if_neg (by simpa using hend)]
    refine .inr ?_
    split
    · exact ⟨_, _, rfl⟩
    split
    · exact ⟨_, _, rfl⟩
    split
    · exact ⟨_, _, rfl⟩
    · exact ⟨_, _, rfl⟩

lemma rest_items (fuel : Nat) (includes : Array Include) (members : Array Member) {p : Parser}
    (hp : p.Proper) (he : 16 * p.rest.length + 4 ≤ fuel) :
    (items fuel includes members p).2.rest = [] := by
  induction fuel generalizing includes members p with
  | zero => omega
  | succ fuel ih =>
    rw [items_unroll, bind_at]
    rcases itemsTurn_cases fuel (includes, members) p with ⟨hend, hturn⟩ | ⟨found, q, hturn⟩
    · rw [hturn]
      exact hp.rest_eq_nil hend
    · have hgoes : Goes (16 * p.rest.length + 3 ≤ fuel) Turn.steps
        (itemsTurn fuel (includes, members)) p := goes_itemsTurn
      have hwent := hgoes hp
      rw [hturn] at hwent ⊢
      refine ih found.1 found.2 (hwent.onward.proper hp) ?_
      have hleft : q.rest.length + 1 ≤ p.rest.length := hwent.left (by omega)
      change 16 * q.rest.length + 4 ≤ fuel
      omega

lemma goes_script (fuel : Nat) (path : String) (p : Parser) :
    Goes (16 * p.rest.length + 4 ≤ fuel) (fun _ => 0) (script fuel path) p :=
  (goes_items fuel #[] #[] p).bind fun _ _ _ => goes_pure rfl

end Files

end Parse

namespace Parser

def ended (tokens : List Token) : List Token :=
  match tokens.getLast? with
  | none => [.endAt .unplaced]
  | some t => if t.kind == .endOfFile then tokens else tokens ++ [.endAt t.span]

structure On (all : List Token) (p : Parser) : Prop where
  proper : p.Proper
  rest : p.rest ++ [p.final] = all.drop p.taken
  last : p.last = (all.take p.taken).getLast?.map Token.span

section On

variable {all : List Token} {p q : Parser}

lemma On.length (h : p.On all) : p.taken + p.rest.length + 1 = all.length := by
  have hlength := congrArg List.length h.rest
  simp only [List.length_append, List.length_singleton, List.length_drop] at hlength
  omega

lemma On.onward (h : p.On all) (hq : p.Onward q) : q.On all := by
  obtain ⟨ts, hrest, htaken, hlast⟩ := hq.front
  have hall : all.drop p.taken = ts ++ (q.rest ++ [q.final]) := by
    rw [← h.rest, hrest, hq.final, List.append_assoc]
  refine ⟨hq.proper h.proper, ?_, ?_⟩
  · rw [htaken, ← List.drop_drop, hall, List.drop_left]
  · rw [hlast, htaken, List.take_add, hall, List.take_left, List.getLast?_append, Option.map_or,
      ← h.last]

/-- All that a parser looks at are tokens of the list: the next one, the one after it, which is the
last one at the end, and the one before. -/
structure Sees (all : List Token) (p : Parser) : Prop where
  next : all[p.taken]? = some (Parse.peek p).1
  second : (all[min (p.taken + 1) (all.length - 1)]?).map Token.kind =
    some (Parse.peekSecond p).1
  before : (all[p.taken - 1]?).map Token.span = some (Parse.lastSpan p).1

lemma On.sees (h : p.On all) : p.Sees all := by
  have hlength := h.length
  have hrest (i : Nat) : all[p.taken + i]? = (p.rest ++ [p.final])[i]? := by
    rw [h.rest, List.getElem?_drop]
  have hnext : all[p.taken]? = some p.next := by
    have hzero := hrest 0
    rw [Nat.add_zero] at hzero
    rw [hzero, Parser.next]
    cases p.rest <;> rfl
  refine ⟨hnext, ?_, ?_⟩
  · change _ = some ((p.rest.drop 1).headD p.final).kind
    cases hp : p.rest with
    | nil =>
      rw [hp, List.length_nil] at hlength
      rw [show min (p.taken + 1) (all.length - 1) = p.taken by omega, hnext, Parser.next, hp]
      rfl
    | cons t rest =>
      rw [hp, List.length_cons] at hlength
      rw [show min (p.taken + 1) (all.length - 1) = p.taken + 1 by omega, hrest, hp]
      cases rest <;> rfl
  · change _ = some (p.last.getD p.next.span)
    rw [h.last]
    cases htaken : p.taken with
    | zero =>
      rw [htaken] at hnext
      simp [hnext]
    | succ n =>
      have hn : n < all.length := by omega
      simp [List.getLast?_take, List.getElem?_eq_getElem hn]

lemma on_ofTokens {tokens : List Token} (diagnostics : List Diagnostic)
    (h : ∀ t ∈ tokens.dropLast, t.kind ≠ .endOfFile) :
    (ofTokens tokens diagnostics).On (ended tokens) := by
  rw [ofTokens_eq diagnostics h]
  unfold ended
  cases hlast : tokens.getLast? with
  | none => exact ⟨⟨rfl, by simp⟩, rfl, rfl⟩
  | some t =>
    have htokens : tokens.dropLast ++ [t] = tokens := List.dropLast_append_getLast? t hlast
    by_cases ht : t.kind = .endOfFile
    · simp only [ht, beq_self_eq_true, if_true]
      exact ⟨⟨ht, h⟩, htokens, rfl⟩
    · simp only [beq_iff_eq, ht, if_false]
      refine ⟨⟨rfl, fun u hu => ?_⟩, rfl, rfl⟩
      rw [← htokens] at hu
      rcases List.mem_append.mp hu with hu | hu
      · exact h u hu
      · rwa [List.mem_singleton.mp hu]

end On

end Parser

namespace Parse

variable {α β : Type}

/-- From each place of the tokens a reader moves forward, to a place of the tokens. With the budget
of steps for the tokens left it is not cut short. -/
def Finishes (all : List Token) (x : Nat → Parse α) : Prop :=
  ∀ (p : Parser) (fuel : Nat), p.On all → p.Onward (x fuel p).2 ∧ (x fuel p).2.On all ∧
    p.taken ≤ (x fuel p).2.taken ∧ (p.budget ≤ fuel → (x fuel p).2.cuts = p.cuts)

/-- A loop `x` is a round, and then again the loop, `y`, or nothing. A round that goes on has moved
forward, unless it was cut short. -/
def Loops (all : List Token) (x y : β → Parse α) (turn : β → Parse (Turn β α)) : Prop :=
  ∀ (b : β) (p : Parser), p.On all → x b p = (turn b >>= again y) p ∧ p.Onward (turn b p).2 ∧
    ∀ b', (turn b p).1 = .goOn b' → (turn b p).2.cuts = p.cuts →
      p.taken < (turn b p).2.taken

lemma finishes_of_goes {all : List Token} {x : Nat → Parse α} {c : Nat} (hc : c ≤ 64)
    (h : ∀ fuel p, Goes (16 * p.rest.length + c ≤ fuel) (fun _ => 0) (x fuel) p) :
    Finishes all x := by
  intro p fuel hp
  have hwent := h fuel p hp.proper
  refine ⟨hwent.onward, hp.onward hwent.onward, hwent.onward.length.2, fun hfuel => hwent.whole ?_⟩
  unfold Parser.budget at hfuel
  omega

lemma loops_of_goes {all : List Token} {x y : β → Parse α} {turn : β → Parse (Turn β α)}
    {enough : Parser → Prop}
    (hunroll : ∀ b p, p.Proper → x b p = (turn b >>= again y) p)
    (hgoes : ∀ b p, Goes (enough p) Turn.steps (turn b) p) : Loops all x y turn := by
  intro b p hp
  have hwent := hgoes b p hp.proper
  refine ⟨hunroll b p hp.proper, hwent.onward, fun b' hb' hcuts => ?_⟩
  have hmoved := hwent.moved hcuts
  rw [hb'] at hmoved
  exact hmoved

/-- Reading always moves forward and always comes to an end. It sees only the tokens of the list that
it is given, with the end of the file behind them. With enough steps no reader is cut short, each
round of a loop moves forward or leaves the loop, and a whole file is read up to the end. -/
theorem reading_finishes (tokens : List Token) (diagnostics : List Diagnostic)
    (h : ∀ t ∈ tokens.dropLast, t.kind ≠ .endOfFile) :
    (Parser.ofTokens tokens diagnostics).On (Parser.ended tokens) ∧ ∀ all : List Token,
    (∀ p : Parser, p.On all → p.Sees all) ∧
    (Finishes all expression ∧ Finishes all statement ∧ Finishes all block ∧
      Finishes all dialogue ∧ ∀ path, Finishes all fun fuel => script fuel path) ∧
    (∀ (p : Parser) (fuel : Nat) (path : String), p.On all → p.budget ≤ fuel →
      (script fuel path p).2.taken + 1 = all.length) ∧
    (∀ fuel, Loops all (arguments (fuel + 1)) (arguments fuel) (argumentsTurn fuel) ∧
      Loops all (statements (fuel + 1)) (statements fuel) (statementsTurn fuel) ∧
      Loops all (choices (fuel + 1)) (choices fuel) (choicesTurn fuel) ∧
      Loops all (fun s => dialogueParts (fuel + 1) s.1 s.2) (fun s => dialogueParts fuel s.1 s.2)
        (dialoguePartsTurn fuel) ∧
      Loops all (formalParameters (fuel + 1)) (formalParameters fuel) formalParametersTurn ∧
      Loops all (fun s => items (fuel + 1) s.1 s.2) (fun s => items fuel s.1 s.2)
        (itemsTurn fuel)) ∧
    Loops all (fun _ => synchronize) (fun _ => synchronize) (fun _ => synchronizeTurn) ∧
    ∀ f, Loops all (fun _ => skipWhile f) (fun _ => skipWhile f) (fun _ => skipTurn f) := by
  refine ⟨Parser.on_ofTokens diagnostics h, fun all => ⟨fun p hp => hp.sees,
    ⟨?_, ?_, ?_, ?_, fun path => ?_⟩, ?_, fun fuel => ⟨?_, ?_, ?_, ?_, ?_, ?_⟩, ?_, fun f => ?_⟩⟩
  · exact finishes_of_goes (by omega) goes_expression
  · exact finishes_of_goes (by omega) goes_statement
  · exact finishes_of_goes (by omega) fun fuel p => goes_block fuel 0 p (.inl rfl)
  · exact finishes_of_goes (by omega) fun fuel p => goes_dialogue fuel 0 p (.inl rfl)
  · exact finishes_of_goes (by omega) fun fuel p => goes_script fuel path p
  · intro p fuel path hp hfuel
    have hend := hp.onward (goes_script fuel path p hp.proper).onward
    have hnil : (script fuel path p).2.rest = [] :=
      rest_items fuel #[] #[] hp.proper (by unfold Parser.budget at hfuel; omega)
    have hlength := hend.length
    rw [hnil, List.length_nil] at hlength
    exact hlength
  · exact loops_of_goes (fun found p _ => by rw [arguments_unroll]) fun found p =>
      goes_argumentsTurn (goes_expression fuel p)
  · exact loops_of_goes (fun found p _ => by rw [statements_unroll]) fun found p =>
      goes_statementsTurn (goes_statement fuel p)
  · exact loops_of_goes (fun found p _ => by rw [choices_unroll]) fun found p =>
      goes_choicesTurn (goes_statement fuel)
  · exact loops_of_goes (fun state p _ => by rw [dialogueParts_unroll]) fun state p =>
      goes_dialoguePartsTurn fun q hbrace => goes_block fuel 1 q (.inr ⟨rfl, hbrace⟩)
  · exact loops_of_goes (fun found p _ => by rw [formalParameters_unroll]) fun found p =>
      @goes_formalParametersTurn True p found
  · exact loops_of_goes (fun found p _ => by rw [items_unroll]) fun found p => goes_itemsTurn
  · exact loops_of_goes (fun _ p hp => synchronize_unroll hp) fun _ p =>
      @goes_synchronizeTurn True p
  · exact loops_of_goes (fun _ p hp => skipWhile_unroll f hp) fun _ p => @goes_skipTurn True p f

def strayTokens : List Token :=
  [{ kind := .closeBrace, text := "\x7d", value := .none, span := .unplaced },
    { kind := .chapter, text := "chapter", value := .none, span := .unplaced }]

theorem reading_finishes_stray : (∀ t ∈ strayTokens.dropLast, t.kind ≠ .endOfFile) ∧
    (script 96 "stray.nss" (Parser.ofTokens strayTokens [])).2.taken = 2 := by
  have hinner : ∀ t ∈ strayTokens.dropLast, t.kind ≠ .endOfFile := by simp [strayTokens]
  obtain ⟨hon, hall⟩ := reading_finishes strayTokens [] hinner
  have hend := (hall (Parser.ended strayTokens)).2.2.1 _ 96 "stray.nss" hon (Nat.le_refl 96)
  exact ⟨hinner, Nat.succ.inj hend⟩

end Parse

end Stagecraft
