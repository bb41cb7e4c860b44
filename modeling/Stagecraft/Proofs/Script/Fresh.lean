import Stagecraft.Proofs.Script.Finished
import Stagecraft.Proofs.Script.Genuine
import Stagecraft.Proofs.Script.Names

/-!
Reading numbers nodes upwards, so the numbers of the parts of a script rise in the order in which
the parts are listed, whatever tokens were read.
-/

namespace Stagecraft

structure Parser.Later (p q : Parser) : Prop extends p.Onward q where
  ids : p.nextId ≤ q.nextId

lemma Parser.Later.refl (p : Parser) : p.Later p :=
  ⟨.refl p, Nat.le_refl _⟩

lemma Parser.Later.trans {p q r : Parser} (h : p.Later q) (h' : q.Later r) : p.Later r :=
  ⟨h.toOnward.trans h'.toOnward, Nat.le_trans h.ids h'.ids⟩

lemma Parser.Later.subset {p q : Parser} (h : p.Later q) : q.rest ⊆ p.rest := by
  obtain ⟨ts, hrest, -⟩ := h.front
  exact hrest ▸ List.subset_append_right ts q.rest

lemma Parser.nextId_pastWhile (f : Token → Bool) (ts : List Token) (p : Parser) :
    (pastWhile f ts p).nextId = p.nextId := by
  induction ts generalizing p with
  | nil => rfl
  | cons t ts ih =>
    rw [pastWhile]
    split
    · exact ih (p.past t ts)
    · rfl

structure Parser.Clean (fits : String → Prop) (p : Parser) : Prop where
  final : p.final.kind = .endOfFile
  brackets : ∀ t ∈ p.rest, t.kind = .dialogueIdentifier → fits t.content

lemma Parser.Later.clean {fits : String → Prop} {p q : Parser} (h : p.Later q)
    (hp : p.Clean fits) : q.Clean fits :=
  ⟨h.final ▸ hp.final, fun t ht => hp.brackets t (h.subset ht)⟩

lemma Parser.clean_ofTokens {fits : String → Prop} {tokens : List Token}
    (diagnostics : List Diagnostic)
    (h : ∀ t ∈ tokens, t.kind = .dialogueIdentifier → fits t.content) :
    (ofTokens tokens diagnostics).Clean fits :=
  ⟨(proper_ofTokens tokens diagnostics).final, fun t ht =>
    h t ((List.takeWhile_subset _) ht)⟩

def Between (low high id : Nat) : Prop :=
  low ≤ id ∧ id < high

lemma Between.mono {low high low' high' id : Nat} (h : Between low high id) (hl : low' ≤ low)
    (hh : high ≤ high') : Between low' high' id :=
  ⟨Nat.le_trans hl h.1, Nat.lt_of_lt_of_le h.2 hh⟩

lemma Between.le {low high id : Nat} (h : Between low high id) : low ≤ high :=
  Nat.le_of_lt (Nat.lt_of_le_of_lt h.1 h.2)

structure Rising (low high : Nat) (ids : List Nat) : Prop where
  le : low ≤ high
  pairwise : ids.Pairwise (· < ·)
  between : ∀ id ∈ ids, Between low high id

section Rising

variable {low middle high low' high' : Nat} {ids ids' : List Nat}

lemma rising_nil (h : low ≤ high) : Rising low high [] :=
  ⟨h, .nil, by simp⟩

lemma rising_one {id : Nat} (h : Between low high id) : Rising low high [id] :=
  ⟨h.le, List.pairwise_singleton _ _, by simpa using h⟩

lemma Rising.mono (h : Rising low high ids) (hl : low' ≤ low) (hh : high ≤ high') :
    Rising low' high' ids :=
  ⟨Nat.le_trans hl (Nat.le_trans h.le hh), h.pairwise, fun id hid => (h.between id hid).mono hl hh⟩

lemma Rising.append (h : Rising low middle ids) (h' : Rising middle high ids') :
    Rising low high (ids ++ ids') := by
  refine ⟨Nat.le_trans h.le h'.le, List.pairwise_append.mpr
    ⟨h.pairwise, h'.pairwise, fun id hid id' hid' => ?_⟩, ?_⟩
  · exact Nat.lt_of_lt_of_le (h.between id hid).2 (h'.between id' hid').1
  · rw [List.forall_mem_append]
    exact ⟨(h.mono (Nat.le_refl _) h'.le).between, (h'.mono h.le (Nat.le_refl _)).between⟩

lemma Rising.sublist (h : Rising low high ids) (hs : ids'.Sublist ids) : Rising low high ids' :=
  ⟨h.le, h.pairwise.sublist hs, fun id hid => h.between id (hs.subset hid)⟩

end Rising

structure Lies (fits : String → Prop) (low high : Nat) (found : List Subtree) : Prop where
  numbers : Rising low high (found.map (·.node.id))
  names : ∀ d ∈ found.filterMap Subtree.dialogue?, ∀ name, d.name? = some name → fits name

section Lies

variable {fits : String → Prop} {low middle high low' high' : Nat} {found found' : List Subtree}
  {t : Subtree}

lemma lies_nil (h : low ≤ high) : Lies fits low high [] :=
  ⟨rising_nil h, by simp⟩

lemma lies_one (h : Between low high t.node.id) (ht : t.dialogue? = none) :
    Lies fits low high [t] :=
  ⟨rising_one h, by simp [ht]⟩

lemma lies_dialogue {d : Dialogue} (h : Between low high d.node.id)
    (hname : ∀ name, d.name? = some name → fits name) : Lies fits low high [.dialogue d] :=
  ⟨rising_one h, by simpa [Subtree.dialogue?] using hname⟩

lemma Lies.mono (h : Lies fits low high found) (hl : low' ≤ low) (hh : high ≤ high') :
    Lies fits low' high' found :=
  ⟨h.numbers.mono hl hh, h.names⟩

lemma Lies.until (h : Lies fits low high found) (hh : high ≤ high') : Lies fits low high' found :=
  h.mono (Nat.le_refl _) hh

lemma Lies.append (h : Lies fits low middle found) (h' : Lies fits middle high found') :
    Lies fits low high (found ++ found') := by
  refine ⟨?_, ?_⟩
  · rw [List.map_append]
    exact h.numbers.append h'.numbers
  · rw [List.filterMap_append, List.forall_mem_append]
    exact ⟨h.names, h'.names⟩

lemma Lies.concat (h : Lies fits low middle found) (hid : Between middle high t.node.id)
    (ht : t.dialogue? = none) : Lies fits low high (found ++ [t]) :=
  h.append (lies_one hid ht)

lemma Lies.cons (h : Lies fits middle high found) (hid : Between low middle t.node.id)
    (ht : t.dialogue? = none) : Lies fits low high (t :: found) :=
  (lies_one hid ht).append h

lemma Lies.between_name {node : Node} {name : String}
    (h : Lies fits low high (Expression.name node name).subtrees) : Between low high node.id :=
  h.numbers.between node.id (by simp [Expression.subtrees, Subtree.node, Expression.node])

end Lies

namespace Parse

def Quiet (x : Parse α) : Prop :=
  ∀ p : Parser, p.Later (x p).2

lemma Quiet.bind {x : Parse α} {f : α → Parse β} (hx : Quiet x) (hf : ∀ a, Quiet (f a)) :
    Quiet (x >>= f) :=
  fun p => (hx p).trans (hf _ _)

lemma quiet_pure (a : α) : Quiet (pure a) :=
  fun p => .refl p

lemma quiet_peek : Quiet peek :=
  fun p => .refl p

lemma quiet_peekKind : Quiet peekKind :=
  fun p => .refl p

lemma quiet_peekSecond : Quiet peekSecond :=
  fun p => .refl p

lemma quiet_lastSpan : Quiet lastSpan :=
  fun p => .refl p

lemma quiet_report {issue : Issue} {span : Span} : Quiet (report issue span) :=
  fun p => ⟨(still_report p).1, Nat.le_refl _⟩

lemma quiet_advance : Quiet advance := by
  intro p
  unfold advance
  split
  · exact .refl p
  · next t rest h => exact ⟨Parser.onward_past h, Nat.le_refl _⟩

lemma quiet_unexpected {what : String} : Quiet (unexpected what) :=
  quiet_peek.bind fun _ => quiet_report

lemma quiet_skipWhile {f : Token → Bool} : Quiet (skipWhile f) :=
  fun p => ⟨Parser.onward_pastWhile f p.rest rfl,
    Nat.le_of_eq (Parser.nextId_pastWhile f p.rest p).symm⟩

lemma quiet_eat {kind : TokenKind} : Quiet (eat kind) := by
  refine quiet_peekKind.bind fun next => ?_
  split
  · exact quiet_advance.bind fun _ => quiet_pure _
  · exact quiet_pure _

lemma quiet_expect {kind : TokenKind} {what : String} : Quiet (expect kind what) := by
  refine quiet_eat.bind fun found => ?_
  split
  · exact quiet_pure _
  · exact quiet_unexpected.bind fun _ => quiet_pure _

lemma quiet_synchronize : Quiet synchronize :=
  quiet_skipWhile.bind fun _ => quiet_eat.bind fun _ => quiet_pure _

lemma quiet_endStatement : Quiet endStatement := by
  refine quiet_eat.bind fun found => ?_
  split
  · exact quiet_unexpected.bind fun _ => quiet_synchronize
  · exact quiet_pure _

lemma quiet_name {what : String} : Quiet (name what) := by
  refine quiet_peekKind.bind fun kind => ?_
  split
  · exact quiet_advance.bind fun _ => quiet_pure _
  · exact quiet_advance.bind fun _ => quiet_pure _
  · exact quiet_unexpected.bind fun _ => quiet_pure _

def Reads (fits : String → Prop) (low : Nat) (Q : Nat → α → Prop) (x : Parse α) : Prop :=
  ∀ p : Parser, p.Clean fits → low ≤ p.nextId →
    p.Later (x p).2 ∧ ((x p).2.cuts = p.cuts → Q (x p).2.nextId (x p).1)

variable {fits : String → Prop}

section Reads

variable {low : Nat} {Q : Nat → α → Prop} {R : Nat → β → Prop}

lemma reads_pure {a : α} (h : ∀ high, low ≤ high → Q high a) : Reads fits low Q (pure a) :=
  fun p _ hp => ⟨.refl p, fun _ => h _ hp⟩

lemma reads_cut {a : α} : Reads fits low Q (cut a) :=
  fun _ _ _ => ⟨⟨⟨rfl, Nat.le_succ _, [], rfl, rfl, rfl⟩, Nat.le_refl _⟩,
    fun hcuts => absurd hcuts (Nat.succ_ne_self _)⟩

lemma Reads.mono {Q' : Nat → α → Prop} {x : Parse α} (h : Reads fits low Q x)
    (hQ : ∀ high a, low ≤ high → Q high a → Q' high a) : Reads fits low Q' x :=
  fun p hclean hp => ⟨(h p hclean hp).1, fun hcuts =>
    hQ _ _ (Nat.le_trans hp (h p hclean hp).1.ids) ((h p hclean hp).2 hcuts)⟩

lemma Reads.bind {x : Parse α} {f : α → Parse β} (hx : Reads fits low Q x)
    (hf : ∀ a middle, low ≤ middle →
      Reads fits middle (fun high b => Q middle a → R high b) (f a)) :
    Reads fits low R (x >>= f) := by
  intro p hclean hp
  obtain ⟨hlater, hq⟩ := hx p hclean hp
  obtain ⟨hlater', hr⟩ := hf (x p).1 _ (Nat.le_trans hp hlater.ids) (x p).2 (hlater.clean hclean)
    (Nat.le_refl _)
  refine ⟨hlater.trans hlater', fun hcuts => ?_⟩
  -- what was not cut short as a whole was not cut short on the way
  have hmiddle : (x p).2.cuts = p.cuts :=
    Nat.le_antisymm (Nat.le_trans hlater'.cuts (Nat.le_of_eq hcuts)) hlater.cuts
  exact hr (hcuts.trans hmiddle.symm) (hq hmiddle)

lemma Reads.after {x : Parse α} {f : α → Parse β} (hx : Quiet x)
    (hf : ∀ a, Reads fits low R (f a)) : Reads fits low R (x >>= f) := by
  intro p hclean hp
  have hlater := hx p
  obtain ⟨hlater', hr⟩ := hf (x p).1 (x p).2 (hlater.clean hclean) (Nat.le_trans hp hlater.ids)
  refine ⟨hlater.trans hlater', fun hcuts => hr (hcuts.trans ?_)⟩
  exact Nat.le_antisymm hlater.cuts (Nat.le_trans hlater'.cuts (Nat.le_of_eq hcuts))

end Reads

lemma quiet_freshId : Quiet freshId :=
  fun p => ⟨(still_freshId p).1, Nat.le_succ _⟩

lemma reads_freshId {low : Nat} : Reads fits low (Between low) freshId :=
  fun p _ hp => ⟨quiet_freshId p, fun _ => ⟨hp, Nat.lt_succ_self _⟩⟩

lemma reads_peek {low : Nat} : Reads fits low
    (fun _ (t : Token) => t.kind = .dialogueIdentifier → fits t.content) peek := by
  refine fun p hclean _ => ⟨.refl p, fun _ hkind => ?_⟩
  change (p.rest.headD p.final).kind = _ at hkind
  change fits (p.rest.headD p.final).content
  cases hrest : p.rest with
  | nil =>
    rw [hrest, List.headD_nil, hclean.final] at hkind
    cases hkind
  | cons t rest =>
    rw [hrest] at hkind
    exact hclean.brackets t (hrest ▸ List.mem_cons_self) hkind

lemma reads_made {low : Nat} {Q : Nat → α → Prop} {first : Span} {make : Node → α}
    (h : ∀ node high, Between low high node.id → Q high (make node)) :
    Reads fits low Q (do pure (make (← nodeFrom first))) := by
  have hnode : Reads fits low (fun high node => Between low high node.id) (nodeFrom first) :=
    reads_freshId.bind fun id middle _ => .after quiet_lastSpan fun _ =>
      reads_pure fun high hh hid => hid.mono (Nat.le_refl _) hh
  exact hnode.bind fun node middle _ => reads_pure fun high hh hid =>
    h node high (hid.mono (Nat.le_refl _) hh)

lemma reads_assignment {low : Nat} {Q : Nat → Expression → Prop} {target other : Expression}
    {operator : Span} {make : Node → Target → Expression}
    (hother : ∀ high, low ≤ high → Q high other)
    (hmake : ∀ node name own high, target = .name node name → Between low high own.id →
      Q high (make own { node, name })) :
    Reads fits low Q (assignment target operator other make) := by
  unfold assignment
  split
  · next node name =>
    exact .after quiet_lastSpan fun _ => reads_freshId.bind fun id middle _ =>
      reads_pure fun high hh hid => hmake node name _ high rfl (hid.mono (Nat.le_refl _) hh)
  · exact .after quiet_report fun _ => reads_pure hother

mutual

theorem reads_expression (fuel low : Nat) :
    Reads fits low (fun high e => Lies fits low high e.subtrees) (expression fuel) := by
  match fuel with
  | 0 => exact reads_cut
  | fuel + 1 =>
    refine (reads_binary fuel 0 low).bind fun target middle hmiddle =>
      .after quiet_peek fun t => ?_
    split
    · refine .after quiet_advance fun _ => (reads_expression fuel middle).bind
        fun value middle' _ => reads_assignment (fun high hh hvalue _ => hvalue.mono hmiddle hh)
          fun node name own high hname hown hvalue htarget => ?_
      subst hname
      exact (hvalue.cons htarget.between_name rfl).concat hown rfl
    · refine .after quiet_advance fun _ => reads_assignment
        (fun high hh htarget => htarget.until hh) fun node name own high hname hown htarget => ?_
      subst hname
      exact (lies_one htarget.between_name rfl).concat hown rfl
    · exact reads_pure fun high hh htarget => htarget.until hh

theorem reads_binary (fuel level low : Nat) :
    Reads fits low (fun high e => Lies fits low high e.subtrees) (binary fuel level) := by
  match fuel with
  | 0 => exact reads_cut
  | fuel + 1 =>
    rw [binary]
    split
    · exact (reads_binary fuel (level + 1) low).bind fun left middle _ =>
        reads_binaryMore fuel level low middle left
    · exact reads_unary fuel low

theorem reads_binaryMore (fuel level start low : Nat) (left : Expression) :
    Reads fits low (fun high e => Lies fits start low left.subtrees →
      Lies fits start high e.subtrees) (binaryMore fuel level left) := by
  match fuel with
  | 0 => exact reads_cut
  | fuel + 1 =>
    refine .after quiet_peekKind fun kind => ?_
    split
    · exact reads_pure fun high hh hleft => hleft.until hh
    · exact .after quiet_advance fun _ => (reads_binary fuel (level + 1) low).bind
        fun right middle _ => reads_freshId.bind fun id middle' _ =>
          (reads_binaryMore fuel level start middle' _).mono fun high e _ h hid hright hleft =>
            h ((hleft.append hright).concat hid rfl)

theorem reads_unary (fuel low : Nat) :
    Reads fits low (fun high e => Lies fits low high e.subtrees) (unary fuel) := by
  match fuel with
  | 0 => exact reads_cut
  | fuel + 1 =>
    refine .after quiet_peekKind fun kind => ?_
    split
    · exact reads_primary fuel low
    · exact .after quiet_advance fun _ => (reads_unary fuel low).bind fun operand middle _ =>
        reads_freshId.bind fun id middle' _ => reads_pure fun high hh hid hoperand =>
          hoperand.concat (hid.mono (Nat.le_refl _) hh) rfl

theorem reads_primary (fuel low : Nat) :
    Reads fits low (fun high e => Lies fits low high e.subtrees) (primary fuel) := by
  match fuel with
  | 0 => exact reads_cut
  | fuel + 1 =>
    refine .after quiet_peek fun t => ?_
    have hliteral (value : Literal) : Reads fits low
        (fun high (e : Expression) => Lies fits low high e.subtrees) (do
          let _ ← advance
          pure (.literal (← nodeFrom t.span) value)) :=
      .after quiet_advance fun _ => reads_made fun _ _ hid => lies_one hid rfl
    simp only
    split
    · split
      · exact hliteral _
      · exact hliteral _
      · exact hliteral _
    · exact hliteral _
    · exact hliteral _
    · exact hliteral _
    · exact hliteral _
    · refine .after quiet_peekSecond fun second => ?_
      split
      · refine .after quiet_advance fun _ => .after quiet_advance fun _ =>
          .after quiet_eat fun closed => ?_
        split
        · exact reads_made fun _ _ hid => lies_one hid rfl
        · exact (reads_arguments fuel low low #[]).bind fun found middle _ =>
            .after quiet_expect fun _ => reads_made fun _ _ hid hfound =>
              (hfound (lies_nil (Nat.le_refl low))).concat hid rfl
      · exact .after quiet_advance fun _ => reads_made fun _ _ hid => lies_one hid rfl
    · exact .after quiet_advance fun _ => (reads_expression fuel low).bind fun inner middle _ =>
        .after quiet_expect fun _ => reads_pure fun high hh hinner => hinner.until hh
    · refine .after quiet_unexpected fun _ => ?_
      split
      · exact hliteral _
      · exact reads_made fun _ _ hid => lies_one hid rfl

theorem reads_arguments (fuel start low : Nat) (found : Array Expression) :
    Reads fits low (fun high es => Lies fits start low (Expression.subtreesAll found.toList) →
      Lies fits start high (Expression.subtreesAll es.toList)) (arguments fuel found) := by
  match fuel with
  | 0 => exact reads_cut
  | fuel + 1 =>
    refine (reads_expression fuel low).bind fun e middle _ => .after quiet_eat fun more => ?_
    have hpush (high : Nat) (hh : middle ≤ high) (he : Lies fits low middle e.subtrees)
        (hfound : Lies fits start low (Expression.subtreesAll found.toList)) :
        Lies fits start high (Expression.subtreesAll (found.push e).toList) := by
      rw [Array.toList_push, Expression.subtreesAll_concat]
      exact (hfound.append he).until hh
    split
    · exact (reads_arguments fuel start middle _).mono fun high es _ h he hfound =>
        h (hpush middle (Nat.le_refl _) he hfound)
    · exact reads_pure hpush

end

lemma reads_condition (fuel low : Nat) :
    Reads fits low (fun high e => Lies fits low high e.subtrees) (condition fuel) :=
  .after quiet_expect fun _ => (reads_expression fuel low).bind fun _ _ _ =>
    .after quiet_expect fun _ => reads_pure fun _ hh he => he.until hh

lemma reads_flush {found : Array DialoguePart} {pending : Pending} (start low : Nat) :
    Reads fits low (fun high parts => Lies fits start low (DialoguePart.subtreesAll found.toList) →
      Lies fits start high (DialoguePart.subtreesAll parts.toList)) (flush found pending) := by
  unfold flush
  dsimp only
  split
  · exact reads_pure fun high hh hfound => hfound.until hh
  · refine .after (fun _ => ⟨⟨rfl, Nat.le_refl _, [], rfl, rfl, rfl⟩, Nat.le_refl _⟩) fun _ =>
      reads_pure fun high hh hfound => ?_
    rw [Array.toList_push, DialoguePart.subtreesAll_concat]
    exact hfound.append (lies_nil hh)

mutual

theorem reads_statement (fuel low : Nat) :
    Reads fits low (fun high s => Lies fits low high s.subtrees) (statement fuel) := by
  match fuel with
  | 0 => exact reads_cut
  | fuel + 1 =>
    refine .after quiet_peek fun t => ?_
    split
    · exact (reads_block fuel low).bind fun body middle _ => reads_made fun _ _ hid hbody =>
        hbody.concat hid rfl
    · refine .after quiet_advance fun _ => (reads_condition fuel low).bind fun c m _ =>
        (reads_statement fuel m).bind fun yes m' _ => .after quiet_eat fun more => ?_
      split
      · exact (reads_statement fuel m').bind fun no m'' _ => reads_made
          fun _ _ hid hno hyes hc => ((hc.append hyes).append hno).concat hid rfl
      · exact reads_made fun _ _ hid hyes hc => (hc.append hyes).concat hid rfl
    · exact .after quiet_advance fun _ => (reads_condition fuel low).bind fun c m _ =>
        (reads_statement fuel m).bind fun body m' _ => reads_made fun _ _ hid hbody hc =>
          (hc.append hbody).concat hid rfl
    · refine .after quiet_advance fun _ => .after quiet_expect fun opened => ?_
      split
      · exact (reads_choices fuel low low #[]).bind fun cases m _ => .after quiet_expect fun _ =>
          reads_made fun _ _ hid hcases => (hcases (lies_nil (Nat.le_refl low))).concat hid rfl
      · exact reads_made fun _ _ hid => lies_one hid rfl
    · exact .after quiet_advance fun _ => .after quiet_name fun _ => .after quiet_endStatement
        fun _ => reads_made fun _ _ hid => lies_one hid rfl
    · exact .after quiet_advance fun _ => .after quiet_name fun _ => .after quiet_endStatement
        fun _ => reads_made fun _ _ hid => lies_one hid rfl
    · refine .after quiet_advance fun _ => .after quiet_peekKind fun kind => ?_
      split
      · exact .after quiet_endStatement fun _ => reads_made fun _ _ hid => lies_one hid rfl
      · exact (reads_expression fuel low).bind fun value m _ => .after quiet_endStatement
          fun _ => reads_made fun _ _ hid hvalue => hvalue.concat hid rfl
    · exact .after quiet_advance fun _ => .after quiet_endStatement fun _ =>
        reads_made fun _ _ hid => lies_one hid rfl
    · exact .after quiet_advance fun _ => reads_made fun _ _ hid => lies_one hid rfl
    · split
      · exact (reads_dialogue fuel low).bind fun value m _ => reads_made fun _ _ hid hvalue =>
          hvalue.concat hid rfl
      · exact (reads_expression fuel low).bind fun value m _ => .after quiet_endStatement
          fun _ => reads_made fun _ _ hid hvalue => hvalue.concat hid rfl

theorem reads_block (fuel low : Nat) :
    Reads fits low (fun high body => Lies fits low high body.subtrees) (block fuel) := by
  match fuel with
  | 0 => exact reads_cut
  | fuel + 1 =>
    refine reads_freshId.bind fun id m _ => .after quiet_peek fun t =>
      .after quiet_expect fun opened => ?_
    split
    · exact (reads_statements fuel m m #[]).bind fun found m' _ => .after quiet_expect fun _ =>
        .after quiet_lastSpan fun _ => reads_pure fun high hh hfound hid =>
          ((hfound (lies_nil (Nat.le_refl m))).until hh).cons hid rfl
    · exact reads_pure fun high hh hid => lies_one (hid.mono (Nat.le_refl _) hh) rfl

theorem reads_statements (fuel start low : Nat) (found : Array Statement) :
    Reads fits low (fun high body => Lies fits start low (Statement.subtreesAll found.toList) →
      Lies fits start high (Statement.subtreesAll body.toList)) (statements fuel found) := by
  match fuel with
  | 0 => exact reads_cut
  | fuel + 1 =>
    refine .after quiet_peekKind fun kind => ?_
    split
    · exact reads_pure fun high hh hfound => hfound.until hh
    · refine .after (fun p => .refl p) fun before => (reads_statement fuel low).bind
        fun s m _ => .after (fun p => .refl p) fun after => ?_
      have hmore : Reads fits m (fun high body => Lies fits low m s.subtrees →
          Lies fits start low (Statement.subtreesAll found.toList) →
          Lies fits start high (Statement.subtreesAll body.toList))
          (statements fuel (found.push s)) := by
        refine (reads_statements fuel start m _).mono fun high body _ h hs hfound => h ?_
        rw [Array.toList_push, Statement.subtreesAll_concat]
        exact hfound.append hs
      split
      · exact .after quiet_advance fun _ => hmore
      · exact hmore

theorem reads_choices (fuel start low : Nat) (found : Array Choice) :
    Reads fits low (fun high cases => Lies fits start low (Choice.subtreesAll found.toList) →
      Lies fits start high (Choice.subtreesAll cases.toList)) (choices fuel found) := by
  match fuel with
  | 0 => exact reads_cut
  | fuel + 1 =>
    refine .after quiet_peekKind fun kind => ?_
    split
    · exact reads_pure fun high hh hfound => hfound.until hh
    · exact reads_pure fun high hh hfound => hfound.until hh
    · refine .after quiet_advance fun t => .after quiet_name fun label => .after quiet_expect
        fun _ => (reads_statement fuel low).bind fun body m _ => reads_freshId.bind
          fun id m' _ => (reads_choices fuel start m' _).mono
            fun high cases _ h hid hbody hfound => h ?_
      rw [Array.toList_push, Choice.subtreesAll_concat]
      exact hfound.append (hbody.concat hid rfl)
    · refine .after quiet_unexpected fun _ => .after quiet_synchronize fun _ =>
        .after quiet_peekKind fun kind => ?_
      split
      · exact reads_pure fun high hh hfound => hfound.until hh
      · exact reads_choices fuel start low found

theorem reads_dialogue (fuel low : Nat) :
    Reads fits low (fun high d => Lies fits low high d.subtrees) (dialogue fuel) := by
  match fuel with
  | 0 => exact reads_freshId.bind fun id m _ => reads_cut
  | fuel + 1 =>
    refine .after quiet_advance fun t => reads_freshId.bind fun id m _ =>
      .after quiet_skipWhile fun _ => reads_peek.bind fun next m' hm' => ?_
    have hrest (name : Option String) : Reads fits m' (fun high d =>
        (∀ n, name = some n → fits n) → Between low m id → Lies fits low high d.subtrees) (do
          let parts ← dialogueParts fuel #[] {}
          let last ← lastSpan
          pure (Dialogue.mk { id, span := t.span.through last } (boxName t.content) name
            parts.toList)) := by
      refine (reads_dialogueParts fuel m' m' #[] {}).bind fun parts m'' _ =>
        .after quiet_lastSpan fun last => reads_pure fun high hh hparts hname hid => ?_
      have hblock : Lies fits low m' [.dialogue (.mk { id, span := t.span.through last }
          (boxName t.content) name parts.toList)] :=
        lies_dialogue (hid.mono (Nat.le_refl _) hm') hname
      exact hblock.append ((hparts (lies_nil (Nat.le_refl m'))).until hh)
    simp only
    split
    · next hkind =>
      exact .after quiet_advance fun _ => (hrest (some next.content)).mono
        fun high d _ h hnext => h fun n hn => Option.some.inj hn ▸ hnext (by simpa using hkind)
    · exact (hrest none).mono fun high d _ h _ => h fun _ hn => nomatch hn

theorem reads_dialogueParts (fuel start low : Nat) (found : Array DialoguePart)
    (pending : Pending) : Reads fits low (fun high parts =>
      Lies fits start low (DialoguePart.subtreesAll found.toList) →
        Lies fits start high (DialoguePart.subtreesAll parts.toList))
      (dialogueParts fuel found pending) := by
  match fuel with
  | 0 => exact reads_cut
  | fuel + 1 =>
    refine .after quiet_peek fun t => ?_
    split
    · exact .after quiet_advance fun _ => reads_flush start low
    · split
      · exact .after quiet_unexpected fun _ => reads_flush start low
      · refine (reads_flush start low).bind fun found m _ => (reads_block fuel m).bind
          fun body m' _ => (reads_dialogueParts fuel start m' _ {}).mono
            fun high parts _ h hbody hfound hstart => h ?_
        rw [Array.toList_push, DialoguePart.subtreesAll_concat]
        exact (hfound hstart).append hbody
      · exact .after quiet_advance fun _ => reads_dialogueParts fuel start low found _
      · exact .after quiet_advance fun _ => reads_dialogueParts fuel start low found _
      · exact .after quiet_advance fun _ => reads_dialogueParts fuel start low found _
      · exact .after quiet_advance fun _ => reads_dialogueParts fuel start low found _
      · exact .after quiet_advance fun _ => reads_dialogueParts fuel start low found _
      · exact .after quiet_unexpected fun _ => .after quiet_advance fun _ =>
          reads_dialogueParts fuel start low found _

end

lemma reads_formalParameters (fuel start low : Nat) (found : Array FormalParameter) :
    Reads fits low (fun high ps => Lies fits start low (found.toList.map .parameter) →
      Lies fits start high (ps.toList.map .parameter)) (formalParameters fuel found) := by
  induction fuel generalizing low found with
  | zero => exact reads_cut
  | succ fuel ih =>
    refine .after quiet_peek fun t => ?_
    split
    · refine .after quiet_advance fun _ => reads_freshId.bind fun id m _ =>
        .after quiet_eat fun more => ?_
      have hpush (high : Nat) (hh : m ≤ high) (hid : Between low m id)
          (hfound : Lies fits start low (found.toList.map .parameter)) :
          Lies fits start high ((found.push
            { node := { id, span := t.span }, name := t.content }).toList.map .parameter) := by
        rw [Array.toList_push, List.map_append]
        exact (hfound.concat hid rfl).until hh
      split
      · exact (ih m _).mono fun high ps _ h hid hfound => h (hpush m (Nat.le_refl _) hid hfound)
      · exact .after quiet_expect fun _ => reads_pure hpush
    · exact .after quiet_unexpected fun _ => .after quiet_skipWhile fun _ =>
        .after quiet_eat fun _ => reads_pure fun high hh hfound => hfound.until hh

lemma reads_parameterList (fuel low : Nat) : Reads fits low
    (fun high ps => Lies fits low high (ps.map .parameter)) (parameterList fuel) := by
  refine .after quiet_expect fun opened => ?_
  split
  · refine .after quiet_eat fun closed => ?_
    split
    · exact reads_pure fun high hh => lies_nil hh
    · exact (reads_formalParameters fuel low low #[]).bind fun ps m _ =>
        reads_pure fun high hh hps => (hps (lies_nil (Nat.le_refl low))).until hh
  · exact reads_pure fun high hh => lies_nil hh

lemma reads_member (fuel low : Nat) :
    Reads fits low (fun high m => Lies fits low high m.subtrees) (member fuel) := by
  refine .after quiet_advance fun t => reads_freshId.bind fun id m _ => .after quiet_name
    fun name => ?_
  simp only
  split
  · exact (reads_block fuel m).bind fun body m' _ => reads_pure fun high hh hbody hid =>
      (hbody.until hh).cons hid rfl
  · exact (reads_block fuel m).bind fun body m' _ => reads_pure fun high hh hbody hid =>
      (hbody.until hh).cons hid rfl
  · exact (reads_parameterList fuel m).bind fun parameters m' _ => (reads_block fuel m').bind
      fun body m'' _ => reads_pure fun high hh hbody hparameters hid =>
        (hparameters.cons hid rfl).append (hbody.until hh)

lemma reads_items (fuel low : Nat) (includes : Array Include) (members : Array Member) :
    Reads fits low (fun high found => Lies fits 0 low (members.toList.flatMap Member.subtrees) →
      Lies fits 0 high (found.2.flatMap Member.subtrees)) (items fuel includes members) := by
  induction fuel generalizing low includes members with
  | zero => exact reads_cut
  | succ fuel ih =>
    refine .after quiet_peek fun t => ?_
    split
    · exact reads_pure fun high hh hmembers => hmembers.until hh
    split
    · exact .after quiet_advance fun _ => ih low _ members
    split
    · refine (reads_member fuel low).bind fun m middle _ => (ih middle includes _).mono
        fun high found _ h hm hmembers => h ?_
      rw [Array.toList_push, List.flatMap_append, List.flatMap_singleton]
      exact hmembers.append hm
    split
    · refine (reads_dialogue fuel low).bind fun d middle _ => (ih middle includes _).mono
        fun high found _ h hd hmembers => h ?_
      rw [Array.toList_push, List.flatMap_append, List.flatMap_singleton]
      exact hmembers.append hd
    · exact .after quiet_unexpected fun _ => .after quiet_advance fun _ =>
        .after quiet_skipWhile fun _ => ih low includes members

lemma lies_script {tokens : List Token} (diagnostics : List Diagnostic) (path : String)
    (h : ∀ t ∈ tokens, t.kind = .dialogueIdentifier → fits t.content) :
    let p := Parser.ofTokens tokens diagnostics
    (script p.budget path p).2.cuts = 0 ∧
      ∃ high, Lies fits 0 high (script p.budget path p).1.subtrees := by
  intro p
  have hwhole : (script p.budget path p).2.cuts = 0 := by
    refine (goes_script p.budget path p (Parser.proper_ofTokens tokens diagnostics)).whole ?_
    unfold Parser.budget
    omega
  obtain ⟨-, hlies⟩ :=
    reads_items p.budget 0 #[] #[] p (Parser.clean_ofTokens diagnostics h) (Nat.le_refl _)
  exact ⟨hwhole, _, hlies hwhole (lies_nil (Nat.le_refl 0))⟩

/-- Every part of a script that is read from tokens, whatever tokens they are, has a number of its
own, also where reading skipped tokens or put something else in the place of a part. -/
theorem numbers_distinct (tokens : List Token) (diagnostics : List Diagnostic) (path : String) :
    let p := Parser.ofTokens tokens diagnostics
    (script p.budget path p).2.cuts = 0 ∧
      ((script p.budget path p).1.subtrees.map (·.node.id)).Nodup := by
  obtain ⟨hwhole, high, hlies⟩ :=
    @lies_script (fun _ => True) tokens diagnostics path fun _ _ _ => trivial
  exact ⟨hwhole, hlies.numbers.pairwise.imp Nat.ne_of_lt⟩

end Parse

def Dialogue.IsPlain (d : Dialogue) : Prop :=
  ∀ name, d.name? = some name → FitsBrackets name

def Member.places (m : Member) : List Nat :=
  m.node.id :: m.dialogues.toList.map (·.node.id)

def Member.useNodes (m : Member) : List Nat :=
  m.uses.toList.map (·.node.id)

structure Member.AllRise (high : Nat) (members : List Member) : Prop where
  places : Rising 0 high (members.flatMap places)
  names : Rising 0 high (members.flatMap useNodes)
  plain : ∀ m ∈ members, ∀ d ∈ m.blocks, d.IsPlain

def Member.Apart (m m' : Member) : Prop :=
  m.node.id ≠ m'.node.id ∧ Names (fun id => Names (· ≠ id) m'.uses) m.uses

namespace Member

lemma places_sublist (m : Member) : m.places.Sublist (m.subtrees.map (·.node.id)) := by
  have hplaces := (Subtree.dialogues_sublist m.subtrees.tail).cons_cons m.node.id
  rw [← m.toList_dialogues] at hplaces
  cases m with
  | dialogue value =>
    cases value
    exact hplaces
  | _ => exact hplaces

lemma useNodes_sublist (m : Member) : m.useNodes.Sublist (m.subtrees.map (·.node.id)) := by
  rw [useNodes, m.toList_uses]
  exact Subtree.uses_sublist m.subtrees

lemma AllRise.apart {high : Nat} {members : List Member} (h : AllRise high members) :
    members.Pairwise Apart := by
  obtain ⟨-, hplaces⟩ := List.pairwise_flatMap.mp h.places.pairwise
  obtain ⟨-, hnames⟩ := List.pairwise_flatMap.mp h.names.pairwise
  refine (hplaces.and hnames).imp fun {m m'} ⟨hp, hn⟩ => ⟨?_, fun use huse use' huse' => ?_⟩
  · exact Nat.ne_of_lt (hp _ List.mem_cons_self _ List.mem_cons_self)
  · have hlt := hn _ (List.mem_map_of_mem (Array.mem_toList_iff.mpr huse)) _
      (List.mem_map_of_mem (Array.mem_toList_iff.mpr huse'))
    exact (Nat.ne_of_lt hlt).symm

end Member

lemma Lies.allRise {high : Nat} {members : List Member}
    (h : Lies FitsBrackets 0 high (members.flatMap Member.subtrees)) :
    Member.AllRise high members := by
  obtain ⟨hnumbers, hnames⟩ := h
  rw [List.map_flatMap] at hnumbers
  refine ⟨hnumbers.sublist (.flatMap_right _ fun m _ => m.places_sublist),
    hnumbers.sublist (.flatMap_right _ fun m _ => m.useNodes_sublist), fun m hm d hd => ?_⟩
  rw [m.blocks_eq] at hd
  refine hnames d ?_
  rw [List.filterMap_flatMap]
  exact List.mem_flatMap.mpr ⟨m, hm, hd⟩

namespace Parse

theorem allRise_parseScript (path source : String) :
    ∃ high, Member.AllRise high (parseScript path source).value.members := by
  obtain ⟨hgenuine, -⟩ := Scanner.genuine_shapes source
  have hbrackets (t : Token) (ht : t ∈ (Scanner.tokens source).1)
      (hkind : t.kind = .dialogueIdentifier) : FitsBrackets t.content := by
    have hshape := hgenuine t.shape (List.mem_map_of_mem ht)
    rw [Token.shape, hkind] at hshape
    obtain ⟨s, hs, hfits⟩ := hshape
    rwa [Token.content, hs]
  obtain ⟨-, high, hlies⟩ := lies_script (Scanner.tokens source).2 path hbrackets
  exact ⟨high, hlies.allRise⟩

lemma path_parseScript (path source : String) : (parseScript path source).value.path = path := rfl

end Parse

end Stagecraft
