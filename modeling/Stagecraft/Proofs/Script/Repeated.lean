import Stagecraft.Proofs.Script.Finished
import Stagecraft.Proofs.Script.Within

namespace Stagecraft

open Shape

namespace Parse

variable {l : Passage} {m : List Mode}

section Expressions

lemma behind_eq (hbehind : headKind l.behind ∈ [.closeParen, .closeBrace]) {γ : Type}
    (f : TokenKind → γ) (hparen : f .closeParen = f .endOfFile)
    (hbrace : f .closeBrace = f .endOfFile) : f (headKind l.behind) = f .endOfFile := by
  simp only [List.mem_cons, List.not_mem_nil, or_false] at hbehind
  rcases hbehind with h | h <;> rw [h]
  · exact hparen
  · exact hbrace

lemma neutral_of_some {γ : Type} {f : TokenKind → Option γ} {kind : TokenKind} {c : γ}
    (hf : ∀ kind ∈ TokenKind.endOfFile :: .startTag :: braces, f kind = none)
    (h : f kind = some c) : Neutral kind :=
  fun hmem => by simp [hf kind hmem] at h

lemma operatorAt_none (level : Nat) : ∀ kind ∈ TokenKind.closeParen :: .endOfFile :: .startTag ::
    braces, operatorAt level kind = none := by
  intro kind hkind
  unfold operatorAt
  split <;> first | rfl | exact absurd hkind (by decide)

lemma mem_openings_of_unary {kind : TokenKind} {op : UnaryOperator} (h : unaryAt kind = some op) :
    kind ∈ openings := by
  unfold unaryAt at h
  split at h
  · decide
  · decide
  · decide
  · cases h

lemma opens_literal {t' : Token} {p q : Parser} (hm : IsCode m) (value : Literal)
    (hkind : p.next.kind ∈ literalKinds) :
    Opens openings l m (do
        let _ ← advance
        pure (Expression.literal (← nodeFrom p.next.span) value))
      (do
        let _ ← advance
        pure (Expression.literal (← nodeFrom t'.span) value)) (Expression.Alike Eq) m p q := by
  have hall : ∀ kind ∈ literalKinds, kind ∈ openings ∧ Neutral kind := by decide
  exact opens_takeCode hm (hall _ hkind).1 (by decide) (hall _ hkind).2 fun _ q _ =>
    repeats_node fun _ _ => .literal value.alike_refl

lemma tidy_gap (kind : TokenKind) (span : Span) (p : Parser) : Tidy (do
    if !(kind == .endOfFile || kind == .closeBrace || kind == .semicolon) then
      let _ ← advance
    pure (Expression.literal (← nodeFrom span) .null)) p := by
  split
  · exact tidy_advance.bind tidy_node
  · exact tidy_node

lemma repeats_called {p q : Parser} {fuel fuel' : Nat} {span span' : Span} (hm : IsCode m)
    (callee : String)
    (harguments : ∀ p q, Opens openings l m (arguments fuel #[]) (arguments fuel' #[])
      (Matched (Expression.Alike Eq)) m p q) :
    Repeats l m (do
        if ← eat .closeParen then pure (Expression.call (← nodeFrom span) callee [])
        else
          let found ← arguments fuel #[]
          let _ ← expect .closeParen "')'"
          pure (Expression.call (← nodeFrom span) callee found.toList))
      (do
        if ← eat .closeParen then pure (Expression.call (← nodeFrom span') callee [])
        else
          let found ← arguments fuel' #[]
          let _ ← expect .closeParen "')'"
          pure (Expression.call (← nodeFrom span') callee found.toList))
      (Expression.Alike Eq) m p q := by
  have hcall (p q : Parser) : Opens openings l m (do
        let found ← arguments fuel #[]
        let _ ← expect .closeParen "')'"
        pure (Expression.call (← nodeFrom span) callee found.toList))
      (do
        let found ← arguments fuel' #[]
        let _ ← expect .closeParen "')'"
        pure (Expression.call (← nodeFrom span') callee found.toList))
      (Expression.Alike Eq) m p q :=
    (harguments p q).bind (fun _ => Expression.all_alike_refl _) fun found found' p q hfound =>
      repeats_close (by decide) (modesBehind_neutral hm (by decide)) fun p q =>
        repeats_node fun _ _ => .call _ hfound
  refine repeats_eat (by decide) (modesBehind_neutral hm (by decide))
    (fun p q => repeats_node fun _ _ => .call _ .nil) (fun _ => (hcall _ q).toRepeats)
    fun _ hend hp hspotless => ?_
  -- behind the text a parenthesis may close the call, but then arguments are missing
  have hkind := ((hcall _ q).first hp.final hspotless).1
  rw [hend] at hkind
  exact absurd hkind (by decide)

mutual

theorem opens_expression (hbehind : headKind l.behind ∈ [.closeParen, .closeBrace]) (hm : IsCode m)
    (fuel fuel' : Nat) (hle : fuel ≤ fuel') (p q : Parser) :
    Opens openings l m (expression fuel) (expression fuel') (Expression.Alike Eq) m p q := by
  match fuel, fuel', hle with
  | 0, _, _ => exact opens_cut
  | fuel + 1, fuel' + 1, hle =>
    have hle := Nat.le_of_succ_le_succ hle
    refine (opens_binary hbehind hm fuel fuel' hle 0 p q).bind Expression.alike_refl
      fun target target' p q htarget => repeats_look fun t' ht' => ?_
    rw [ht'.same_of assignAt (behind_eq hbehind _ rfl rfl),
      ht'.same_of stepAt (behind_eq hbehind _ rfl rfl)]
    split
    · next op hop =>
      refine repeats_takeCode hm (neutral_of_some (by decide) hop) fun t' q _ =>
        (opens_expression hbehind hm fuel fuel' hle _ q).toRepeats.bind Expression.alike_refl
          fun value value' p q hvalue => repeats_assignment htarget fun _ _ _ _ ht => ?_
      exact .assign op ht hvalue
    · next op _ hop =>
      exact repeats_takeCode hm (neutral_of_some (by decide) hop) fun t' q _ =>
        repeats_assignment htarget fun _ _ _ _ ht => .step op ht
    · exact repeats_pure htarget

theorem opens_binary (hbehind : headKind l.behind ∈ [.closeParen, .closeBrace]) (hm : IsCode m)
    (fuel fuel' : Nat) (hle : fuel ≤ fuel') (level : Nat) (p q : Parser) :
    Opens openings l m (binary fuel level) (binary fuel' level) (Expression.Alike Eq) m p q := by
  match fuel, fuel', hle with
  | 0, _, _ => exact opens_cut
  | fuel + 1, fuel' + 1, hle =>
    have hle := Nat.le_of_succ_le_succ hle
    rw [binary, binary]
    split
    · exact (opens_binary hbehind hm fuel fuel' hle (level + 1) p q).bind Expression.alike_refl
        fun left left' p q hleft => repeats_binaryMore hbehind hm fuel fuel' hle level hleft p q
    · exact opens_unary hbehind hm fuel fuel' hle p q

theorem repeats_binaryMore (hbehind : headKind l.behind ∈ [.closeParen, .closeBrace])
    (hm : IsCode m) (fuel fuel' : Nat) (hle : fuel ≤ fuel') (level : Nat) {left left' : Expression}
    (hleft : left.Alike Eq left') (p q : Parser) :
    Repeats l m (binaryMore fuel level left) (binaryMore fuel' level left') (Expression.Alike Eq) m
      p q := by
  match fuel, fuel', hle with
  | 0, _, _ => exact repeats_cut
  | fuel + 1, fuel' + 1, hle =>
    have hle := Nat.le_of_succ_le_succ hle
    have hnone := operatorAt_none level
    refine repeats_lookKind fun t' ht' => ?_
    rw [ht'.same_of (operatorAt level) (behind_eq hbehind _
      ((hnone _ (by decide)).trans (hnone _ (by decide)).symm)
      ((hnone _ (by decide)).trans (hnone _ (by decide)).symm))]
    split
    · exact repeats_pure hleft
    · next op hop =>
      have hneutral : Neutral p.next.kind := neutral_of_some (fun kind hkind => hnone kind
        (List.mem_cons_of_mem _ hkind)) hop
      exact repeats_takeCode hm hneutral fun t' q _ =>
        (opens_binary hbehind hm fuel fuel' hle (level + 1) _ q).toRepeats.bind
          Expression.alike_refl fun right right' p q hright =>
            repeats_freshId.bind (fun _ => trivial) fun _ _ p q _ =>
              repeats_binaryMore hbehind hm fuel fuel' hle level (.binary op hleft hright) p q

theorem opens_unary (hbehind : headKind l.behind ∈ [.closeParen, .closeBrace]) (hm : IsCode m)
    (fuel fuel' : Nat) (hle : fuel ≤ fuel') (p q : Parser) :
    Opens openings l m (unary fuel) (unary fuel') (Expression.Alike Eq) m p q := by
  match fuel, fuel', hle with
  | 0, _, _ => exact opens_cut
  | fuel + 1, fuel' + 1, hle =>
    have hle := Nat.le_of_succ_le_succ hle
    refine opens_lookKind fun t' ht' => ?_
    rw [ht'.same_of unaryAt (behind_eq hbehind _ rfl rfl)]
    split
    · exact opens_primary hbehind hm fuel fuel' hle p q
    · next op hop =>
      exact opens_takeCode hm (mem_openings_of_unary hop) (by decide)
        (neutral_of_some (by decide) hop) fun t' q _ =>
          (opens_unary hbehind hm fuel fuel' hle _ q).toRepeats.bind Expression.alike_refl
            fun operand operand' p q h => repeats_freshId.bind (fun _ => trivial)
              fun _ _ p q _ => repeats_pure (.unary op h)

theorem opens_primary (hbehind : headKind l.behind ∈ [.closeParen, .closeBrace]) (hm : IsCode m)
    (fuel fuel' : Nat) (hle : fuel ≤ fuel') (p q : Parser) :
    Opens openings l m (primary fuel) (primary fuel') (Expression.Alike Eq) m p q := by
  match fuel, fuel', hle with
  | 0, _, _ => exact opens_cut
  | fuel + 1, fuel' + 1, hle =>
    have hle := Nat.le_of_succ_le_succ hle
    refine opens_look fun t' ht' => ?_
    cases ht' with
    | behind hend =>
      simp only [hend]
      exact opens_unexpected (tidy_gap _ _)
    | same ht' =>
      simp only [ht'.kind, ht'.value]
      split
      · next hkind =>
        have hkind : p.next.kind ∈ literalKinds := by simp [hkind, literalKinds]
        split
        · exact opens_literal hm _ hkind
        · exact opens_literal hm _ hkind
        · exact opens_literal hm _ hkind
      · next hkind =>
        rw [ht'.content (by simp [hkind, worded])]
        exact opens_literal hm _ (by simp [hkind, literalKinds])
      · next hkind => exact opens_literal hm _ (by simp [hkind, literalKinds])
      · next hkind => exact opens_literal hm _ (by simp [hkind, literalKinds])
      · next hkind => exact opens_literal hm _ (by simp [hkind, literalKinds])
      · next hkind =>
        rw [ht'.content (by simp [hkind, worded])]
        refine opens_lookSecond (by simp [hkind]) fun t'' ht'' => ?_
        rw [ht''.same_of (· == .openParen) (behind_eq hbehind (· == .openParen) rfl rfl)]
        have htake {f g : Token → Parse Expression} (h : ∀ t' q', p.next.Same t' → Repeats l m
            (f p.next) (g t') (Expression.Alike Eq) m (advance p).2 q') :
            Opens openings l m (advance >>= f) (advance >>= g) (Expression.Alike Eq) m p q :=
          opens_takeCode hm (by simp [hkind, openings]) (by decide) (by rw [hkind]; decide) h
        split
        · next hsecond =>
          have hparen : Neutral (advance p).2.next.kind := by
            rw [beq_iff_eq.mp hsecond]
            decide
          refine htake fun _ q _ => repeats_takeCode hm hparen fun _ q _ => ?_
          exact repeats_called hm _
            (opens_arguments hbehind hm fuel fuel' hle .nil · ·)
        · exact htake fun _ q _ => repeats_node fun _ _ => .name _
      · next hkind =>
        exact opens_takeCode hm (by simp [hkind, openings]) (by decide) (by rw [hkind]; decide)
          fun _ q _ => (opens_expression hbehind hm fuel fuel' hle _ q).toRepeats.bind
            Expression.alike_refl fun inner inner' p q hinner => repeats_close (by decide)
              (modesBehind_neutral hm (by decide)) fun p q => repeats_pure hinner
      · exact opens_unexpected (tidy_gap _ _)

theorem opens_arguments (hbehind : headKind l.behind ∈ [.closeParen, .closeBrace]) (hm : IsCode m)
    (fuel fuel' : Nat) (hle : fuel ≤ fuel') {found found' : Array Expression}
    (hfound : Matched (Expression.Alike Eq) found found') (p q : Parser) :
    Opens openings l m (arguments fuel found) (arguments fuel' found')
      (Matched (Expression.Alike Eq)) m p q := by
  match fuel, fuel', hle with
  | 0, _, _ => exact opens_cut
  | fuel + 1, fuel' + 1, hle =>
    have hle := Nat.le_of_succ_le_succ hle
    refine (opens_expression hbehind hm fuel fuel' hle p q).bind Expression.alike_refl
      fun e e' p q he => ?_
    have hpush := hfound.push he
    exact repeats_eat (by decide) (modesBehind_neutral hm (by decide))
      (fun p q => (opens_arguments hbehind hm fuel fuel' hle hpush p q).toRepeats)
      (fun _ => repeats_pure hpush) fun h => absurd (h ▸ hbehind) (by decide)

end

lemma repeats_condition (hbehind : headKind l.behind ∈ [.closeParen, .closeBrace]) (hm : IsCode m)
    {fuel fuel' : Nat} (hle : fuel ≤ fuel') {p q : Parser} :
    Repeats l m (condition fuel) (condition fuel') (Expression.Alike Eq) m p q :=
  repeats_close (by decide) (modesBehind_neutral hm (by decide)) fun p q =>
    (opens_expression hbehind hm fuel fuel' hle p q).toRepeats.bind Expression.alike_refl
      fun _ _ p q hc => repeats_close (by decide) (modesBehind_neutral hm (by decide))
        fun p q => repeats_pure hc

end Expressions

section Statements

lemma repeats_end {first first' : Span} {make make' : Node → Statement} {p q : Parser}
    (hm : IsCode m) (h : ∀ node node', (make node).Agrees Eq (make' node')) :
    Repeats l m (do endStatement; pure (make (← nodeFrom first)))
      (do endStatement; pure (make' (← nodeFrom first'))) (Statement.Agrees Eq) m p q :=
  (repeats_endStatement hm).bind (fun _ => trivial) fun _ _ _ _ _ => repeats_node h

inductive TurnAgrees : Turn (Array Statement) (Array Statement) →
    Turn (Array Statement) (Array Statement) → Prop
  | goOn {a b : Array Statement} : Matched (Statement.Agrees Eq) a b →
    TurnAgrees (.goOn a) (.goOn b)
  | leave {a b : Array Statement} : Matched (Statement.Agrees Eq) a b →
    TurnAgrees (.leave a) (.leave b)

lemma TurnAgrees.refl (t : Turn (Array Statement) (Array Statement)) : TurnAgrees t t := by
  cases t with
  | goOn a => exact .goOn (Statement.all_agrees_refl _)
  | leave a => exact .leave (Statement.all_agrees_refl _)

lemma repeats_statementsTurn (hbehind : headKind l.behind = .closeBrace) {fuel fuel' : Nat}
    {found found' : Array Statement} {p q : Parser}
    (h : Opens statementOpenings l m (statement fuel) (statement fuel') (Statement.Agrees Eq) m p q)
    (hfound : Matched (Statement.Agrees Eq) found found') :
    Repeats l m (statementsTurn fuel found) (statementsTurn fuel' found') TurnAgrees m p q := by
  have hend : endsBlock (headKind l.behind) = endsBlock .endOfFile := by rw [hbehind]; rfl
  cases hgoes : endsBlock p.next.kind with
  | true =>
    refine repeats_lookKind fun t' ht' => ?_
    rw [ht'.same_of endsBlock hend, if_pos hgoes, if_pos hgoes]
    exact repeats_pure (.leave hfound)
  | false =>
    obtain ⟨s, p', hs⟩ : ∃ s p', statement fuel p = (s, p') := ⟨_, _, rfl⟩
    obtain ⟨s', q', hs'⟩ : ∃ s' q', statement fuel' q = (s', q') := ⟨_, _, rfl⟩
    obtain ⟨⟨⟨htaken, hspotless⟩, hwithin⟩, hfirst⟩ := h
    rw [hs] at htaken hspotless hwithin hfirst
    rw [hs'] at hwithin
    have hafter : p'.taken ≤ (if p'.taken == p.taken then (advance p').2 else p').taken ∧
        ((if p'.taken == p.taken then (advance p').2 else p').Spotless → p'.Spotless) := by
      split
      · exact ⟨tidy_advance.taken, tidy_advance.spotless⟩
      · exact ⟨Nat.le_refl _, id⟩
    refine ⟨⟨?_, ?_⟩, fun hp => ?_⟩ <;> rw [statementsTurn_apply hgoes hs]
    · exact htaken.trans hafter.1
    · exact fun h => hspotless (hafter.2 h)
    · intro hend'
      have hgoes' : endsBlock q.next.kind = false := (hp.faces.same_of endsBlock hend).trans hgoes
      have hmoved := (hfirst hp.final (hafter.2 hend')).2
      obtain ⟨hagrees, hp'⟩ := hwithin hp (hafter.2 hend')
      have hq : q'.taken ≠ q.taken := by
        have := hp.taken
        have := hp'.taken
        have := hp.longer.taken
        have := hp'.longer.taken
        simp only [List.length_append] at *
        omega
      rw [statementsTurn_apply hgoes' hs', if_neg (by simpa using hmoved.ne'),
        if_neg (by simpa using hq)]
      exact ⟨.goOn (hfound.push hagrees), hp'⟩

lemma chars_add_same {pending pending' : Pending} {t t' : Token} (ht : t.Same t')
    (hkind : t.kind.isSpoken = true) (hpending : pending'.chars = pending.chars) :
    (pending'.add t').chars = (pending.add t).chars := by
  have hall (kind : TokenKind) : kind.isSpoken = true →
      kind = .markupLineBreak ∨ kind ∈ worded := by
    cases kind <;> decide
  rcases hall t.kind hkind with hbreak | hworded
  · simp [Pending.add, ht.kind, hbreak, hpending]
  · simp [Pending.add, ht.kind, ht.content hworded, hpending]

mutual

theorem opens_statement (hbehind : headKind l.behind = .closeBrace) {m : List Mode}
    (hm : IsCode m) (fuel fuel' : Nat) (hle : fuel ≤ fuel') (p q : Parser) :
    Opens statementOpenings l m (statement fuel) (statement fuel') (Statement.Agrees Eq) m p q := by
  match fuel, fuel', hle with
  | 0, _, _ => exact opens_cut
  | fuel + 1, fuel' + 1, hle =>
    have hle := Nat.le_of_succ_le_succ hle
    have hmem : headKind l.behind ∈ [.closeParen, .closeBrace] := by simp [hbehind]
    have hstatement (p q : Parser) := (opens_statement hbehind hm fuel fuel' hle p q).toRepeats
    have hexpression {t' : Token} : Opens statementOpenings l m (do
          let e ← expression fuel
          endStatement
          pure (Statement.expression (← nodeFrom p.next.span) e))
        (do
          let e ← expression fuel'
          endStatement
          pure (Statement.expression (← nodeFrom t'.span) e)) (Statement.Agrees Eq) m p q :=
      ((opens_expression hmem hm fuel fuel' hle p q).mono (List.subset_append_left _ _)).bind
        Expression.alike_refl fun e e' p q he => repeats_end hm fun _ _ => .expression he
    refine opens_look fun t' ht' => ?_
    cases ht' with
    | behind hend hend' =>
      have hstart : p.next.isDialogueStart = false ∧ t'.isDialogueStart = false := by
        simp [Token.isDialogueStart, hend, hend', hbehind]
      simp only [hend, hend', hbehind, hstart.1, hstart.2]
      exact hexpression
    | same ht' =>
      have htake {f g : Token → Parse Statement} {kind : TokenKind} (hkind : p.next.kind = kind)
          (hopen : kind ∈ statementOpenings ∧ Neutral kind)
          (h : ∀ t' q', p.next.Same t' →
            Repeats l m (f p.next) (g t') (Statement.Agrees Eq) m (advance p).2 q') :
          Opens statementOpenings l m (advance >>= f) (advance >>= g) (Statement.Agrees Eq) m p q :=
        opens_takeCode hm (hkind ▸ hopen.1) (by decide) (hkind ▸ hopen.2) h
      simp only [ht'.kind, ht'.isDialogueStart]
      split
      · exact ((opens_block hbehind (encloses_code hm) fuel fuel' hle p q).mono (by decide)).bind
          Block.agrees_refl fun b b' p q hb => repeats_node fun _ _ => .block hb
      · next hkind =>
        refine htake hkind (by decide) fun _ q _ => (repeats_condition hmem hm hle).bind
          Expression.alike_refl fun c c' p q hc => (hstatement p q).bind Statement.agrees_refl
            fun s s' p q hs => repeats_eat (by decide) (modesBehind_neutral hm (by decide))
              (fun p q => (hstatement p q).bind Statement.agrees_refl fun t t' p q ht =>
                repeats_node fun _ _ => .ifElse hc hs ht)
              (fun _ => repeats_node fun _ _ => .ifThen hc hs) fun h => ?_
        simp [hbehind] at h
      · next hkind =>
        exact htake hkind (by decide) fun _ q _ => (repeats_condition hmem hm hle).bind
          Expression.alike_refl fun c c' p q hc => (hstatement p q).bind Statement.agrees_refl
            fun s s' p q hs => repeats_node fun _ _ => .loop hc hs
      · next hkind =>
        have henc := encloses_code hm
        refine htake hkind (by decide) fun _ q _ => repeats_expect (by decide) henc.opens
          (fun p' q => ?_) fun p' => tidy_node
        exact (repeats_choices hbehind henc.code fuel fuel' hle .nil p' q).bind
          (fun _ => Choice.all_agrees_refl _) fun cases cases' p' q hcases =>
            repeats_close (by decide) henc.closes fun p' q => repeats_node fun _ _ => .select hcases
      · next hkind =>
        refine htake hkind (by decide) fun _ q _ => (repeats_name hm).bind (fun _ => rfl)
          fun target target' p' q htarget => repeats_end hm fun _ _ => ?_
        exact htarget ▸ .callChapter target
      · next hkind =>
        refine htake hkind (by decide) fun _ q _ => (repeats_name hm).bind (fun _ => rfl)
          fun target target' p' q htarget => repeats_end hm fun _ _ => ?_
        exact htarget ▸ .callScene target
      · next hkind =>
        refine htake hkind (by decide) fun _ q _ => repeats_lookKind fun t'' ht'' => ?_
        rw [ht''.same_of (· == .semicolon) (behind_eq hmem (· == .semicolon) rfl rfl)]
        split
        · exact repeats_end hm fun _ _ => .ret .none
        · exact (opens_expression hmem hm fuel fuel' hle _ q).toRepeats.bind Expression.alike_refl
            fun e e' p q he => repeats_end hm fun _ _ => .ret (.some he)
      · next hkind => exact htake hkind (by decide) fun _ q _ => repeats_end hm fun _ _ => .exit
      · next hkind => exact htake hkind (by decide) fun _ q _ => repeats_node fun _ _ => .empty
      · split
        · next hstart =>
          exact ((opens_dialogue hbehind hm fuel fuel' hle p q hstart).mono (by decide)).bind
            Dialogue.agrees_refl fun d d' p q hd => repeats_node fun _ _ => .dialogue hd
        · exact hexpression
termination_by fuel

theorem opens_block (hbehind : headKind l.behind = .closeBrace) {m inside : List Mode}
    (henc : Encloses m inside) (fuel fuel' : Nat) (hle : fuel ≤ fuel') (p q : Parser) :
    Opens [.openBrace] l m (block fuel) (block fuel') (Block.Agrees Eq) m p q := by
  match fuel, fuel', hle with
  | 0, _, _ => exact opens_cut
  | fuel + 1, fuel' + 1, hle =>
    have hle := Nat.le_of_succ_le_succ hle
    refine opens_freshId fun id id' q => opens_look fun t' _ => opens_expect (by decide) (by decide)
      henc.opens (fun p q => ?_) fun p => tidy_pure
    exact (repeats_statements hbehind henc.code fuel fuel' hle .nil p q).bind
      (fun _ => Statement.all_agrees_refl _) fun found found' p q hfound =>
        repeats_close (by decide) henc.closes fun p q => repeats_lastSpan.bind (fun _ => trivial)
          fun _ _ p q _ => repeats_pure (.mk hfound)
termination_by fuel

theorem repeats_statements (hbehind : headKind l.behind = .closeBrace) {m : List Mode}
    (hm : IsCode m) (fuel fuel' : Nat) (hle : fuel ≤ fuel') {found found' : Array Statement}
    (hfound : Matched (Statement.Agrees Eq) found found') (p q : Parser) :
    Repeats l m (statements fuel found) (statements fuel' found')
      (Matched (Statement.Agrees Eq)) m p q := by
  match fuel, fuel', hle with
  | 0, _, _ => exact repeats_cut
  | fuel + 1, fuel' + 1, hle =>
    have hle := Nat.le_of_succ_le_succ hle
    rw [statements_unroll, statements_unroll]
    refine (repeats_statementsTurn hbehind (opens_statement hbehind hm fuel fuel' hle p q)
      hfound).bind TurnAgrees.refl fun t t' p q ht => ?_
    cases ht with
    | goOn hfound => exact repeats_statements hbehind hm fuel fuel' hle hfound p q
    | leave hfound => exact repeats_pure hfound
termination_by fuel

theorem repeats_choices (hbehind : headKind l.behind = .closeBrace) {m : List Mode}
    (hm : IsCode m) (fuel fuel' : Nat) (hle : fuel ≤ fuel') {found found' : Array Choice}
    (hfound : Matched (Choice.Agrees Eq) found found') (p q : Parser) :
    Repeats l m (choices fuel found) (choices fuel' found')
      (Matched (Choice.Agrees Eq)) m p q := by
  match fuel, fuel', hle with
  | 0, _, _ => exact repeats_cut
  | fuel + 1, fuel' + 1, hle =>
    have hle := Nat.le_of_succ_le_succ hle
    refine repeats_lookKind fun t' ht' => ?_
    cases ht' with
    | behind hend hend' =>
      simp only [hend, hend', hbehind]
      exact repeats_pure hfound
    | same ht' =>
      rw [ht'.kind]
      split
      · exact repeats_pure hfound
      · exact repeats_pure hfound
      · next hkind =>
        refine repeats_takeCode hm (by rw [hkind]; decide) fun t' q _ => (repeats_name hm).bind
          (fun _ => rfl) fun label label' p q hlabel => repeats_close (by decide)
            (modesBehind_neutral hm (by decide)) fun p q =>
              (opens_statement hbehind hm fuel fuel' hle p q).toRepeats.bind Statement.agrees_refl
                fun s s' p q hs => repeats_freshId.bind (fun _ => trivial) fun _ _ p q _ =>
                  repeats_choices hbehind hm fuel fuel' hle (hfound.push ?_) p q
        exact hlabel ▸ .mk label hs
      · refine repeats_unexpected fun p => tidy_synchronize.bind (tidy_lookKind ?_)
        split
        · exact tidy_pure
        · exact (repeats_choices hbehind hm fuel fuel' hle hfound _ q).tidy
termination_by fuel

theorem opens_dialogue (hbehind : headKind l.behind = .closeBrace) {m : List Mode}
    (hm : IsCode m) (fuel fuel' : Nat) (hle : fuel ≤ fuel') (p q : Parser)
    (hstart : p.next.isDialogueStart = true) :
    Opens [.startTag] l m (dialogue fuel) (dialogue fuel') (Dialogue.Agrees Eq) m p q := by
  match fuel, fuel', hle with
  | 0, _, _ =>
    have htidy : Tidy (dialogue 0) p := tidy_freshId.bind tidy_cut
    exact opens_of_not_spotless htidy fun h => absurd h.cuts (Nat.succ_ne_zero _)
  | fuel + 1, fuel' + 1, hle =>
    have hle := Nat.le_of_succ_le_succ hle
    have hkind : p.next.kind = .startTag := startTag_of_isDialogueStart hstart
    refine opens_take (by simp [hkind]) (by decide) (fun hgenuine => modesBehind_startTag hm ?_)
      fun t' q ht' => repeats_freshId.bind (fun _ => trivial) fun id id' p' q _ =>
        (repeats_skipBreaks (by simp [hbehind])).bind (fun _ => trivial) fun _ _ p' q _ =>
          repeats_look fun next ht'' => ?_
    · exact (isDialogueStart_shape hgenuine).trans hstart
    have hrest (name : Option String) (p' q : Parser) : Repeats l (.dialogue :: m) (do
          let parts ← dialogueParts fuel #[] {}
          let last ← lastSpan
          pure (Dialogue.mk { id, span := p.next.span.through last } (boxName p.next.content) name
            parts.toList))
        (do
          let parts ← dialogueParts fuel' #[] {}
          let last ← lastSpan
          pure (Dialogue.mk { id := id', span := t'.span.through last } (boxName p.next.content)
            name parts.toList)) (Dialogue.Agrees Eq) m p' q :=
      (repeats_dialogueParts hbehind hm fuel fuel' hle .nil rfl p' q).bind
        (fun _ => DialoguePart.all_agrees_refl _) fun parts parts' p' q hparts =>
          repeats_lastSpan.bind (fun _ => trivial) fun _ _ p' q _ => repeats_pure (.mk _ _ hparts)
    rw [ht'.content (by simp [hkind, worded])]
    cases ht'' with
    | behind hend hend' =>
      simp only [hend, hend', hbehind]
      exact hrest none p' q
    | same ht'' =>
      rw [ht''.kind]
      split
      · next hname =>
        have hname : p'.next.kind = .dialogueIdentifier := by simpa using hname
        rw [ht''.content (by simp [hname, worded])]
        refine repeats_take (by simp [hname]) (fun _ => modesBehind_said ?_ ?_)
          fun _ q _ => hrest _ _ q
        · simp [Token.isDialogueEnd, Token.shape, hname]
        · simp [Token.shape, hname]
      · exact hrest none p' q
termination_by fuel

theorem repeats_dialogueParts (hbehind : headKind l.behind = .closeBrace) {m : List Mode}
    (hm : IsCode m) (fuel fuel' : Nat) (hle : fuel ≤ fuel')
    {found found' : Array DialoguePart} {pending pending' : Pending}
    (hfound : Matched (DialoguePart.Agrees Eq) found found')
    (hpending : pending'.chars = pending.chars) (p q : Parser) :
    Repeats l (.dialogue :: m) (dialogueParts fuel found pending)
      (dialogueParts fuel' found' pending')
      (Matched (DialoguePart.Agrees Eq)) m p q := by
  match fuel, fuel', hle with
  | 0, _, _ => exact repeats_cut
  | fuel + 1, fuel' + 1, hle =>
    have hle := Nat.le_of_succ_le_succ hle
    have hflush {m : List Mode} {p q : Parser} : Repeats l m (flush found pending)
        (flush found' pending') (Matched (DialoguePart.Agrees Eq)) m p q :=
      repeats_flush hfound hpending
    refine repeats_look fun t' ht' => ?_
    cases ht' with
    | behind hend =>
      -- the text is over within the dialogue, which is reported
      have hno : p.next.isDialogueEnd = false := by simp [Token.isDialogueEnd, hend]
      simp only [hno, hend]
      exact repeats_unexpected fun p => tidy_flush
    | same ht' =>
      rw [ht'.isDialogueEnd, ht'.kind]
      split
      · next hend =>
        have hkind : p.next.kind = .endTag := endTag_of_isDialogueEnd hend
        exact repeats_take (by simp [hkind])
          (fun hgenuine => modesBehind_endTag ((isDialogueEnd_shape hgenuine).trans hend))
          fun _ q _ => hflush
      · next hno =>
        have hadd (hkind : p.next.kind.isSpoken = true) : Repeats l (.dialogue :: m) (do
              let _ ← advance
              dialogueParts fuel found (pending.add p.next))
            (do
              let _ ← advance
              dialogueParts fuel' found' (pending'.add t'))
            (Matched (DialoguePart.Agrees Eq)) m p q := by
          have hneutral : p.next.kind ≠ .endOfFile ∧ p.next.kind ≠ .openBrace := by
            constructor <;> intro h <;> rw [h] at hkind <;> cases hkind
          refine repeats_take hneutral.1 (fun hgenuine => modesBehind_said ?_ hneutral.2)
            fun _ q _ => repeats_dialogueParts hbehind hm fuel fuel' hle hfound
              (chars_add_same ht' hkind hpending) _ q
          exact (isDialogueEnd_shape hgenuine).trans (Bool.eq_false_of_not_eq_true hno)
        split
        · exact repeats_unexpected fun p => tidy_flush
        · next hkind =>
          exact hflush.bind (fun _ => DialoguePart.all_agrees_refl _) fun found found' p q hfound =>
            (opens_block hbehind (encloses_dialogue m) fuel fuel' hle p q).toRepeats.bind
              Block.agrees_refl fun b b' p q hb => repeats_dialogueParts hbehind hm fuel fuel' hle
                (hfound.push (.code hb)) rfl p q
        · next hkind => exact hadd (by rw [hkind]; rfl)
        · next hkind => exact hadd (by rw [hkind]; rfl)
        · next hkind => exact hadd (by rw [hkind]; rfl)
        · next hkind => exact hadd (by rw [hkind]; rfl)
        · next hkind => exact hadd (by rw [hkind]; rfl)
        · exact repeats_unexpected fun p => tidy_advance.bind
            (repeats_dialogueParts hbehind hm fuel fuel' hle hfound hpending _ q).tidy
termination_by fuel

end

end Statements

end Parse

end Stagecraft
