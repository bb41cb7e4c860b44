import Stagecraft.Proofs.Script.Reading

namespace Stagecraft

open Shape

def Closes (ss : List Shape) : Prop :=
  headKind ss ∈ [.closeParen, .comma, .semicolon]

structure Stops (level : Nat) (ss : List Shape) : Prop where
  operator : ∀ l, level ≤ l → Parse.operatorAt l (headKind ss) = none
  call : headKind ss ≠ .openParen

def literalKinds : List TokenKind :=
  [.numericLiteral, .stringLiteral, .trueWord, .falseWord, .nullWord]

def openings : List TokenKind :=
  literalKinds ++ [.identifier, .openParen, .minus, .plus, .bang]

section Operators

variable {level : Nat} {ss : List Shape}

lemma operatorAt_token (op : BinaryOperator) (level : Nat) :
    Parse.operatorAt level op.token = if op.precedence = level + 2 then some op else none := by
  rcases Nat.lt_or_ge level 6 with h | h
  · interval_cases level <;> cases op <;> rfl
  · have hnone : Parse.operatorAt level op.token = none := by
      unfold Parse.operatorAt
      split <;> first | rfl | omega
    rw [hnone, if_neg]
    cases op <;> simp only [BinaryOperator.precedence] <;> omega

lemma stops_of_mem (h : headKind ss ∈ [.closeParen, .comma, .semicolon, .assign, .plusAssign,
    .minusAssign, .starAssign, .slashAssign, .plusPlus, .minusMinus]) : Stops 0 ss := by
  generalize hkind : headKind ss = kind at h
  refine ⟨fun l _ => ?_, ?_⟩
  · rw [hkind]
    unfold Parse.operatorAt
    split <;> first | rfl | exact absurd h (by decide)
  · rintro hcall
    rw [← hkind, hcall] at h
    exact absurd h (by decide)

lemma closes_cons {kind : TokenKind} (h : kind ∈ [.closeParen, .comma, .semicolon]) :
    Closes (mark kind :: ss) :=
  h

lemma Closes.stops (h : Closes ss) : Stops 0 ss :=
  stops_of_mem (List.mem_append_left _ h)

lemma stops_assign (op : AssignOperator) : Stops 0 (mark op.token :: ss) := by
  apply stops_of_mem
  rw [headKind_cons]
  cases op <;> decide

lemma stops_step (op : StepOperator) : Stops 0 (mark op.token :: ss) := by
  apply stops_of_mem
  rw [headKind_cons]
  cases op <;> decide

lemma stops_token {op : BinaryOperator} (h : op.precedence < level + 2) :
    Stops level (mark op.token :: ss) := by
  refine ⟨fun l hl => ?_, ?_⟩
  · rw [headKind_cons, operatorAt_token, if_neg (by omega)]
  · rw [headKind_cons]
    cases op <;> decide

lemma Stops.mono {level' : Nat} (h : Stops level ss) (hl : level ≤ level') : Stops level' ss :=
  ⟨fun l hle => h.operator l (Nat.le_trans hl hle), h.call⟩

end Operators

variable {same : Float → Float → Prop}

lemma Literal.shape_mem {value : Literal} (h : value.Legible same) :
    value.shape.1 ∈ literalKinds := by
  cases value with
  | null => decide
  | flag b => cases b <;> decide
  | number x =>
    obtain ⟨y, -, hy⟩ := h
    rw [shape_number hy]
    exact .head _
  | delta x =>
    obtain ⟨y, -, hy⟩ := h
    rw [shape_delta hy]
    exact .head _
  | text s => exact .tail _ (.head _)

namespace Expression

lemma operand_of_lt {level : Nat} {e : Expression} (h : e.precedence < level) :
    e.operand level = mark .openParen :: (e.shapes ++ [mark .closeParen]) := by
  simp [operand, enclose, h]

lemma operand_of_le {level : Nat} {e : Expression} (h : level ≤ e.precedence) :
    e.operand level = e.shapes := by
  simp [operand, enclose, Nat.not_lt.mpr h]

lemma operand_succ {level : Nat} {e : Expression} (h : e.precedence ≠ level) :
    e.operand (level + 1) = e.operand level := by
  rcases Nat.lt_or_gt_of_ne h with h | h
  · rw [operand_of_lt h, operand_of_lt (by omega)]
  · rw [operand_of_le (by omega), operand_of_le (by omega)]

lemma shapes_ne_nil (e : Expression) : e.shapes ≠ [] := by
  cases e <;> simp [shapes]

lemma operand_ne_nil (level : Nat) (e : Expression) : e.operand level ≠ [] := by
  unfold operand enclose
  split
  · simp
  · exact e.shapes_ne_nil

lemma headKind_primary {e : Expression} (h : e.Legible same) (rest : List Shape) :
    headKind (e.operand 9 ++ rest) ∈ literalKinds ++ [.identifier, .openParen] := by
  have hname : TokenKind.identifier ∈ literalKinds ++ [.identifier, .openParen] := by decide
  have hparen : TokenKind.openParen ∈ literalKinds ++ [.identifier, .openParen] := by decide
  by_cases he : e.precedence < 9
  · rw [operand_of_lt he]
    exact hparen
  · rw [operand_of_le (Nat.not_lt.mp he)]
    obtain ⟨_, value, rfl⟩ | ⟨_, n, rfl⟩ | ⟨_, callee, arguments, rfl⟩ :=
      primary_of_precedence (Nat.not_lt.mp he)
    · exact List.mem_append_left _ (Literal.shape_mem h)
    · exact hname
    · exact hname

theorem headKind_shapes {e : Expression} (h : e.Legible same) (rest : List Shape) :
    headKind (e.shapes ++ rest) ∈ openings := by
  have hname : TokenKind.identifier ∈ openings := by decide
  have hparen : TokenKind.openParen ∈ openings := by decide
  cases e with
  | literal _ value => exact List.mem_append_left _ (Literal.shape_mem h)
  | name _ n => exact hname
  | unary _ op e =>
    rw [shapes, List.cons_append, headKind_cons]
    cases op <;> decide
  | binary _ op a b =>
    rw [shapes, List.append_assoc]
    by_cases ha : a.precedence < op.precedence
    · simpa [enclose, ha] using hparen
    · simpa [enclose, ha] using headKind_shapes h.1 _
  | assign _ target op e => exact hname
  | step _ target op => exact hname
  | call _ callee arguments => exact hname

lemma headKind_arguments {es : List Expression} (h : AllLegible same es) (hne : es ≠ [])
    (rest : List Shape) : headKind (argumentShapes es ++ rest) ∈ openings := by
  cases es with
  | nil => exact absurd rfl hne
  | cons e es =>
    cases es with
    | nil => exact headKind_shapes h.1 rest
    | cons e' es =>
      rw [argumentShapes, List.append_assoc]
      · exact headKind_shapes h.1 _
      · simp

end Expression

namespace Parse

variable {total : Nat} {rest : List Shape}

lemma yields_literal {fuel : Nat} {node : Node} {value : Literal} (h : value.Legible same) :
    Yields total (value.shape :: rest) (primary (fuel + 1))
      (Expression.Alike same · (.literal node value)) rest := by
  refine yields_peek.bind fun t ht => ?_
  have hliteral {value' : Literal} (halike : value'.Alike same value) :
      Yields total (value.shape :: rest) (do
        let _ ← advance
        pure (Expression.literal (← nodeFrom t.span) value'))
        (Expression.Alike same · (.literal node value)) rest :=
    yields_advance.bind fun _ _ => yields_node fun _ => .literal halike
  have hkind : t.kind = value.shape.1 := congrArg Prod.fst ht
  have hvalue : t.value = value.shape.2 := congrArg Prod.snd ht
  cases value with
  | null =>
    simp only [hkind, Literal.shape]
    exact hliteral .null
  | flag b =>
    cases b <;> simp only [hkind, Literal.shape] <;> exact hliteral (.flag _)
  | number x =>
    obtain ⟨y, hsame, hy⟩ := h
    rw [Literal.shape_number hy] at hkind hvalue
    simp only [hkind, hvalue]
    exact hliteral (.number hsame)
  | delta x =>
    obtain ⟨y, hsame, hy⟩ := h
    rw [Literal.shape_delta hy] at hkind hvalue
    simp only [hkind, hvalue]
    exact hliteral (.delta hsame)
  | text s =>
    simp only [hkind, Literal.shape, Token.content_of_shape ht]
    exact hliteral (.text s)

lemma yields_no_operator {fuel level : Nat} {e : Expression} {Q : Expression → Prop} (he : Q e)
    (h : operatorAt level (headKind rest) = none) :
    Yields total rest (binaryMore fuel level e) Q rest := by
  cases fuel with
  | zero => exact yields_cut he
  | succ fuel =>
    refine yields_peekKind.bind fun kind hkind => ?_
    simp only [hkind, h]
    exact yields_pure he

def ReadsOperands (same : Float → Float → Prop) (total fuel : Nat) : Prop :=
  ∀ ⦃level : Nat⦄ ⦃e : Expression⦄ ⦃rest : List Shape⦄, e.Legible same → level ≤ levels →
    12 * (e.operand (level + 2)).length ≤ fuel + 1 + level → Stops level rest →
    Yields total (e.operand (level + 2) ++ rest) (binary fuel level) (Expression.Alike same · e)
      rest

lemma yields_chain {fuel level : Nat} (hbinary : ∀ fuel' ≤ fuel, ReadsOperands same total fuel')
    {e : Expression} (h : e.Legible same) (hl : level < levels)
    (hf : 12 * (e.operand (level + 2)).length ≤ fuel + 2 + level) {rest after : List Shape}
    {Q : Expression → Prop} (hr : Stops (level + 1) rest)
    (hmore : ∀ fuel' e', fuel ≤ fuel' + (e.operand (level + 2)).length → fuel' ≤ fuel →
      e'.Alike same e → Yields total rest (binaryMore fuel' level e') Q after) :
    Yields total (e.operand (level + 2) ++ rest) (binary (fuel + 1) level) Q after := by
  have hlevels : levels = 6 := rfl
  by_cases hp : e.precedence = level + 2
  · obtain ⟨node, op, a, b, rfl⟩ := Expression.binary_of_precedence (e := e) (by omega)
    have hop : op.precedence = level + 2 := hp
    have hshapes : (Expression.binary node op a b).operand (level + 2) =
        a.operand (level + 2) ++ mark op.token :: b.operand (level + 3) := by
      rw [Expression.operand_of_le (Nat.le_of_eq hp.symm), Expression.shapes, hop]
      rfl
    rw [hshapes] at hf hmore ⊢
    simp only [List.length_append, List.length_cons] at hf hmore
    have hstops : Stops (level + 1) (mark op.token :: (b.operand (level + 3) ++ rest)) :=
      stops_token (by omega)
    rw [List.append_assoc]
    refine yields_chain hbinary h.1 hl (by omega) hstops fun fuel' a' hlow hhigh ha => ?_
    cases fuel' with
    | zero => omega
    | succ fuel' =>
      refine yields_peekKind.bind fun kind hkind => ?_
      simp only [hkind, List.cons_append, headKind_cons, operatorAt_token, hop, if_true]
      have hb : Yields total (b.operand (level + 3) ++ rest) (binary fuel' (level + 1))
          (Expression.Alike same · b) rest :=
        hbinary fuel' (by omega) h.2 hl
          (show 12 * (b.operand (level + 3)).length ≤ fuel' + 1 + (level + 1) by omega) hr
      refine yields_advance.bind fun _ _ => hb.bind fun b' hb => yields_freshId.bind
        fun _ _ => ?_
      exact hmore fuel' _ (by omega) (by omega) (.binary op ha hb)
  · have hoperand : e.operand (level + 2) = e.operand (level + 3) :=
      (Expression.operand_succ hp).symm
    rw [hoperand] at hf hmore ⊢
    have he : Yields total (e.operand (level + 3) ++ rest) (binary fuel (level + 1))
        (Expression.Alike same · e) rest :=
      hbinary fuel (Nat.le_refl _) h hl
        (show 12 * (e.operand (level + 3)).length ≤ fuel + 1 + (level + 1) by omega) hr
    rw [binary, if_pos hl]
    exact he.bind fun e' he => hmore fuel e' (by omega) (Nat.le_refl _) he

lemma yields_no_sign {fuel : Nat} {e : Expression} {Q : Expression → Prop} {after : List Shape}
    (h : e.Legible same) (he : Yields total (e.operand 9 ++ rest) (primary fuel) Q after) :
    Yields total (e.operand 9 ++ rest) (unary (fuel + 1)) Q after := by
  refine yields_peekKind.bind fun kind hkind => ?_
  have hnone : unaryAt kind = none := by
    have hall : ∀ kind ∈ literalKinds ++ [.identifier, .openParen], unaryAt kind = none := by
      decide
    exact hkind ▸ hall _ (Expression.headKind_primary h rest)
  simp only [hnone]
  exact he

lemma yields_no_assignment {fuel : Nat} {before : List Shape} {Q : Expression → Prop}
    (h : Yields total before (binary fuel 0) Q rest) (hr : Closes rest) :
    Yields total before (expression (fuel + 1)) Q rest := by
  obtain ⟨s, ss, rfl⟩ : ∃ s ss, rest = s :: ss := by
    cases rest with
    | nil => simp [Closes, headKind] at hr
    | cons s ss => exact ⟨s, ss, rfl⟩
  refine h.bind fun target ht => yields_peek.bind fun t hshape => ?_
  have hnone : assignAt t.kind = none ∧ stepAt t.kind = none := by
    have hall : ∀ kind ∈ [.closeParen, .comma, .semicolon],
        assignAt kind = none ∧ stepAt kind = none := by decide
    rw [show t.kind = s.1 from congrArg Prod.fst hshape]
    exact hall _ hr
  simp only [hnone]
  exact yields_pure ht

section Assignment

variable {fuel : Nat} {before ss : List Shape} {node : Node} {target : Target}

lemma yields_assign {op : AssignOperator} {value : Expression}
    (ht : Yields total before (binary fuel 0) (Expression.Alike same · (.name default target.name))
      (mark op.token :: ss))
    (hv : Yields total ss (expression fuel) (Expression.Alike same · value) rest) :
    Yields total before (expression (fuel + 1))
      (Expression.Alike same · (.assign node target op value)) rest := by
  refine ht.bind fun a ha => yields_peek_mark.bind fun t hkind => ?_
  have hassign : assignAt op.token = some op := by cases op <;> rfl
  simp only [hkind, hassign]
  refine yields_advance.bind fun _ _ => hv.bind fun value' hvalue => ?_
  cases ha
  exact yields_lastSpan.bind fun _ _ => yields_freshId.bind fun _ _ =>
    yields_pure (.assign op rfl hvalue)

lemma yields_step {op : StepOperator}
    (ht : Yields total before (binary fuel 0) (Expression.Alike same · (.name default target.name))
      (mark op.token :: ss)) :
    Yields total before (expression (fuel + 1))
      (Expression.Alike same · (.step node target op)) ss := by
  refine ht.bind fun a ha => yields_peek_mark.bind fun t hkind => ?_
  have hassign : assignAt op.token = none := by cases op <;> rfl
  have hstep : stepAt op.token = some op := by cases op <;> rfl
  simp only [hkind, hassign, hstep]
  refine yields_advance.bind fun _ _ => ?_
  cases ha
  exact yields_lastSpan.bind fun _ _ => yields_freshId.bind fun _ _ => yields_pure (.step op rfl)

end Assignment

lemma yields_variable {fuel : Nat} {node : Node} {n : String} (hr : headKind rest ≠ .openParen) :
    Yields total (Shape.name n :: rest) (primary (fuel + 1))
      (Expression.Alike same · (.name node n)) rest := by
  refine yields_peek.bind fun t ht => ?_
  have hkind : t.kind = .identifier := congrArg Prod.fst ht
  simp only [hkind]
  refine yields_peekSecond.bind fun next hnext => ?_
  rw [if_neg (by simpa [hnext] using hr), Token.content_of_shape ht]
  exact yields_advance.bind fun _ _ => yields_node fun _ => .name n

lemma yields_call {fuel : Nat} {node : Node} {callee : String} {es : List Expression}
    (h : Expression.AllLegible same es)
    (hes : es ≠ [] → Yields total (Expression.argumentShapes es ++ mark .closeParen :: rest)
      (arguments fuel #[]) (fun r => List.Forall₂ (Expression.Alike same) r.toList es)
      (mark .closeParen :: rest)) :
    Yields total (Shape.name callee :: mark .openParen ::
        (Expression.argumentShapes es ++ mark .closeParen :: rest)) (primary (fuel + 1))
      (Expression.Alike same · (.call node callee es)) rest := by
  refine yields_peek.bind fun t ht => ?_
  have hkind : t.kind = .identifier := congrArg Prod.fst ht
  simp only [hkind]
  refine yields_peekSecond.bind fun next hnext => ?_
  rw [if_pos (by simp [hnext]), Token.content_of_shape ht]
  refine yields_advance.bind fun _ _ => yields_advance.bind fun _ _ => ?_
  by_cases hnil : es = []
  · subst hnil
    refine (yields_eat rfl).bind fun closed hclosed => ?_
    rw [if_pos hclosed]
    exact yields_node fun _ => .call callee .nil
  · have hopening := Expression.headKind_arguments h hnil (mark .closeParen :: rest)
    have hne : headKind (Expression.argumentShapes es ++ mark .closeParen :: rest) ≠
        .closeParen := fun hclose => absurd (hclose ▸ hopening) (by decide)
    refine (yields_not_eat hne).bind fun closed hclosed => ?_
    rw [if_neg (by simp [hclosed])]
    exact (hes hnil).bind fun found hfound => (yields_expect rfl).bind fun _ _ =>
      yields_node fun _ => .call callee hfound

mutual

theorem yields_expression (fuel : Nat) {e : Expression} {rest : List Shape} (h : e.Legible same)
    (hf : 12 * e.shapes.length ≤ fuel) (hr : Closes rest) :
    Yields total (e.shapes ++ rest) (expression fuel) (Expression.Alike same · e) rest := by
  have hpos := List.length_pos_iff.mpr e.shapes_ne_nil
  cases fuel with
  | zero => omega
  | succ fuel =>
    by_cases hp : 2 ≤ e.precedence
    · have hoperand : e.operand 2 = e.shapes := Expression.operand_of_le hp
      rw [← hoperand] at hf ⊢
      exact yields_no_assignment (yields_binary fuel h (Nat.zero_le _) (by omega) hr.stops) hr
    · -- what is assigned to is read as a chain of operators that consists of a name
      have htarget {n : String} {ss : List Shape} (hn : IsIdentifier n) (hss : Stops 0 ss)
          (hfuel : 12 ≤ fuel + 1) : Yields total (Shape.name n :: ss) (binary fuel 0)
          (Expression.Alike same · (.name default n)) ss :=
        yields_binary fuel (e := .name default n) hn (Nat.zero_le _) hfuel hss
      obtain ⟨_, target, op, value, rfl⟩ | ⟨_, target, op, rfl⟩ :=
        Expression.assignment_of_precedence (Nat.not_le.mp hp)
      · simp only [Expression.shapes, List.length_cons] at hf
        exact yields_assign (htarget h.1 (stops_assign op) (by omega))
          (yields_expression fuel h.2 (by omega) hr)
      · simp only [Expression.shapes, List.length_cons, List.length_nil] at hf
        exact yields_step (htarget h (stops_step op) (by omega))
termination_by fuel
decreasing_by all_goals omega

theorem yields_binary (fuel : Nat) : ReadsOperands same total fuel := by
  intro level e rest h hl hf hr
  have hlevels : levels = 6 := rfl
  have hpos := List.length_pos_iff.mpr (e.operand_ne_nil (level + 2))
  cases fuel with
  | zero => omega
  | succ fuel =>
    by_cases hlevel : level < levels
    · exact yields_chain (fun fuel' _ => yields_binary fuel') h hlevel (by omega)
        (hr.mono (Nat.le_succ _)) fun _ _ _ _ he => yields_no_operator he (hr.operator _ le_rfl)
    · obtain rfl : level = 6 := by omega
      rw [binary, if_neg hlevel]
      exact yields_unary fuel h (by omega) hr.call
termination_by fuel
decreasing_by all_goals omega

theorem yields_unary (fuel : Nat) {e : Expression} {rest : List Shape} (h : e.Legible same)
    (hf : 12 * (e.operand 8).length ≤ fuel + 8) (hr : headKind rest ≠ .openParen) :
    Yields total (e.operand 8 ++ rest) (unary fuel) (Expression.Alike same · e) rest := by
  have hpos := List.length_pos_iff.mpr (e.operand_ne_nil 8)
  cases fuel with
  | zero => omega
  | succ fuel =>
    by_cases hp : e.precedence = 8
    · obtain ⟨node, op, a, rfl⟩ := Expression.unary_of_precedence hp
      have ha : a.Legible same := h
      have hshapes : (Expression.unary node op a).operand 8 = mark op.token :: a.operand 9 :=
        Expression.operand_of_le (Nat.le_of_eq hp.symm)
      rw [hshapes, List.length_cons] at hf
      rw [hshapes]
      refine yields_peekKind.bind fun kind hkind => ?_
      have hsign : unaryAt op.token = some op := by cases op <;> rfl
      simp only [hkind, List.cons_append, headKind_cons, hsign]
      cases fuel with
      | zero => omega
      | succ fuel =>
        exact yields_advance.bind fun _ _ =>
          (yields_no_sign ha (yields_primary fuel ha (by omega) hr)).bind fun a ha =>
            yields_freshId.bind fun _ _ => yields_pure (.unary op ha)
    · rw [← Expression.operand_succ hp] at hf ⊢
      exact yields_no_sign h (yields_primary fuel h (by omega) hr)
termination_by fuel
decreasing_by all_goals omega

theorem yields_primary (fuel : Nat) {e : Expression} {rest : List Shape} (h : e.Legible same)
    (hf : 12 * (e.operand 9).length ≤ fuel + 9) (hr : headKind rest ≠ .openParen) :
    Yields total (e.operand 9 ++ rest) (primary fuel) (Expression.Alike same · e) rest := by
  have hpos := List.length_pos_iff.mpr (e.operand_ne_nil 9)
  cases fuel with
  | zero => omega
  | succ fuel =>
    by_cases hp : e.precedence < 9
    · rw [Expression.operand_of_lt hp] at hf ⊢
      simp only [List.length_cons, List.length_append, List.length_nil] at hf
      simp only [List.cons_append, List.append_assoc, List.nil_append]
      refine yields_peek_mark.bind fun t hkind => ?_
      simp only [hkind]
      exact yields_advance.bind fun _ _ =>
        (yields_expression fuel h (by omega) (closes_cons (by decide))).bind fun e he =>
          (yields_expect rfl).bind fun _ _ => yields_pure he
    · rw [Expression.operand_of_le (Nat.not_lt.mp hp)] at hf ⊢
      obtain ⟨_, value, rfl⟩ | ⟨_, n, rfl⟩ | ⟨_, callee, es, rfl⟩ :=
        Expression.primary_of_precedence (Nat.not_lt.mp hp)
      · exact yields_literal h
      · exact yields_variable hr
      · simp only [Expression.shapes, List.length_cons, List.length_append, List.length_nil] at hf
        simp only [Expression.shapes, List.cons_append, List.append_assoc, List.nil_append]
        exact yields_call h.2 fun hes => yields_arguments fuel h.2 hes .nil (by omega)
termination_by fuel
decreasing_by all_goals omega

theorem yields_arguments (fuel : Nat) {es done : List Expression} {found : Array Expression}
    {rest : List Shape} (h : Expression.AllLegible same es) (hne : es ≠ [])
    (hfound : List.Forall₂ (Expression.Alike same) found.toList done)
    (hf : 12 * (Expression.argumentShapes es).length + 1 ≤ fuel) :
    Yields total (Expression.argumentShapes es ++ mark .closeParen :: rest) (arguments fuel found)
      (fun r => List.Forall₂ (Expression.Alike same) r.toList (done ++ es))
      (mark .closeParen :: rest) := by
  cases fuel with
  | zero => omega
  | succ fuel =>
    cases es with
    | nil => exact absurd rfl hne
    | cons e es =>
      have hpush {e' : Expression} (he : e'.Alike same e) :
          List.Forall₂ (Expression.Alike same) (found.push e').toList (done ++ [e]) := by
        rw [Array.toList_push]
        exact List.rel_append hfound (.cons he .nil)
      cases es with
      | nil =>
        simp only [Expression.argumentShapes] at hf ⊢
        refine (yields_expression fuel h.1 (by omega) (closes_cons (by decide))).bind
          fun e' he => (yields_not_eat (by simp)).bind fun more hmore => ?_
        rw [if_neg (by simp [hmore])]
        exact yields_pure (hpush he)
      | cons e₂ es =>
        simp only [Expression.argumentShapes, List.length_append, List.length_cons] at hf
        simp only [Expression.argumentShapes, List.append_assoc, List.cons_append]
        refine (yields_expression fuel h.1 (by omega) (closes_cons (by decide))).bind
          fun e' he => (yields_eat rfl).bind fun more hmore => ?_
        rw [if_pos hmore]
        rw [List.append_cons done]
        exact yields_arguments fuel h.2 (by simp) (hpush he) (by omega)
termination_by fuel
decreasing_by all_goals omega

end

end Parse

end Stagecraft
