import Stagecraft.Proofs.Script.Lawful

namespace Stagecraft

open Shape

abbrev Literal.Sound (value : Literal) : Prop :=
  value.Writable → value.Legible Eq

abbrev Expression.Sound (e : Expression) : Prop :=
  e.Writable → e.Legible Eq

abbrev Statement.Sound (s : Statement) : Prop :=
  s.Writable → s.Stable Eq

abbrev Block.Sound (b : Block) : Prop :=
  b.Writable → b.Stable Eq

abbrev Choice.Sound (c : Choice) : Prop :=
  c.Writable → c.Stable Eq

abbrev Dialogue.Sound (d : Dialogue) : Prop :=
  d.Writable → d.Stable Eq

abbrev FormalParameter.Sound (p : FormalParameter) : Prop :=
  IsUndirected p.name → IsIdentifier p.name

abbrev Member.Sound (m : Member) : Prop :=
  m.Writable → m.Stable Eq

abbrev Include.Sound (i : Include) : Prop :=
  i.Writable → FitsDirective i.path

abbrev Script.Sound (s : Script) : Prop :=
  s.Writable → s.Stable Eq

section Lists

lemma Expression.allSound {es : List Expression} (h : ∀ e ∈ es, e.Sound)
    (hw : Expression.AllWritable es) : Expression.AllLegible Eq es := by
  induction es with
  | nil => trivial
  | cons e es ih =>
    rw [List.forall_mem_cons] at h
    exact ⟨h.1 hw.1, ih h.2 hw.2⟩

lemma Statement.allSound {ss : List Statement} (h : ∀ s ∈ ss, s.Sound)
    (hw : Statement.AllWritable ss) : Statement.AllStable Eq ss := by
  induction ss with
  | nil => trivial
  | cons s ss ih =>
    rw [List.forall_mem_cons] at h
    exact ⟨h.1 hw.1, ih h.2 hw.2⟩

lemma Choice.allSound {cs : List Choice} (h : ∀ c ∈ cs, c.Sound) (hw : Choice.AllWritable cs) :
    Choice.AllStable Eq cs := by
  induction cs with
  | nil => trivial
  | cons c cs ih =>
    rw [List.forall_mem_cons] at h
    exact ⟨h.1 hw.1, ih h.2 hw.2⟩

end Lists

lemma isIdentifier_of_genuine {t : Token} (h : Genuine t.shape) (ht : t.kind = .identifier)
    (hname : IsUndirected t.content) : IsIdentifier t.content := by
  rw [Token.shape, ht] at h
  obtain ⟨s, hs, hgenuine⟩ := h
  have hcontent : t.content = s := by rw [Token.content, hs]
  rw [hcontent] at hname ⊢
  exact isIdentifier_iff.mpr (hgenuine.imp_left fun hsigiled => ⟨hsigiled, hname⟩)

lemma sound_text_of_genuine {t : Token} (h : Genuine t.shape) (ht : t.kind = .stringLiteral) :
    (Literal.text t.content).Sound := by
  rw [Token.shape, ht] at h
  obtain ⟨s, hs, hsigiled⟩ := h
  have hcontent : t.content = s := by rw [Token.content, hs]
  rw [hcontent]
  exact fun _ => hsigiled

lemma sound_number (x : Float) : (Literal.number x).Sound :=
  fun h => ⟨x, rfl, h⟩

lemma sound_delta (x : Float) : (Literal.delta x).Sound :=
  fun h => ⟨x, rfl, h⟩

namespace Parse

section Expressions

abbrev FindsExpression (A : Prop) (x : Parse Expression) : Prop :=
  Finds A Anywhere x Expression.Sound fun _ => Anywhere

lemma Finds.anywhere {A : Prop} {P : List Shape → Prop} {α : Type} {x : Parse α} {S : α → Prop}
    (h : Finds A Anywhere x S fun _ => Anywhere) : Finds A P x S fun _ => Anywhere :=
  h.pre fun hA _ _ _ => ⟨hA, trivial⟩

lemma finds_gap {A : Prop} {P : List Shape → Prop} :
    Finds A P (cut gap) Expression.Sound fun _ => Anywhere :=
  finds_cut fun _ _ _ => ⟨fun _ => trivial, trivial⟩

lemma finds_assignment {A : Prop} {target other : Expression} {operator : Span}
    {make : Node → Target → Expression}
    (h : A → ∀ node t n, target = .name n t.name → (make node t).Sound) :
    FindsExpression A (assignment target operator other make) := by
  unfold assignment
  split
  · next node name =>
    exact finds_lastSpan.bind fun _ => finds_freshId.bind fun _ => finds_pure fun hA _ _ =>
      ⟨h hA.1.1 _ { node, name } node rfl, trivial⟩
  · exact finds_report.bind fun _ => finds_pure fun hA => hA.2.elim

mutual

theorem finds_expression (fuel : Nat) : FindsExpression True (expression fuel) := by
  match fuel with
  | 0 => exact finds_gap
  | fuel + 1 =>
    refine (finds_binary fuel 0).bind fun target => finds_peek.bind fun t => ?_
    split
    · next op _ =>
      refine .after careful_advance fun _ => (finds_expression fuel).bind fun value =>
        finds_assignment fun hA node t n htarget hw => ?_
      obtain ⟨⟨⟨-, hsound⟩, -⟩, hvalue⟩ := hA
      subst htarget
      exact ⟨hsound hw.1, hvalue hw.2⟩
    · refine .after careful_advance fun _ => finds_assignment fun hA node t n htarget hw => ?_
      obtain ⟨⟨-, hsound⟩, -⟩ := hA
      subst htarget
      exact hsound hw
    · exact finds_pure fun hA _ _ => ⟨hA.1.2, trivial⟩

theorem finds_binary (fuel level : Nat) : FindsExpression True (binary fuel level) := by
  match fuel with
  | 0 => exact finds_gap
  | fuel + 1 =>
    rw [binary]
    split
    · exact (finds_binary fuel (level + 1)).bind fun left =>
        (finds_binaryMore fuel level left).pre fun hA _ _ _ => ⟨hA.2, trivial⟩
    · exact finds_unary fuel

theorem finds_binaryMore (fuel level : Nat) (left : Expression) :
    FindsExpression left.Sound (binaryMore fuel level left) := by
  match fuel with
  | 0 => exact finds_cut fun hA _ _ => ⟨hA, trivial⟩
  | fuel + 1 =>
    refine .after careful_peekKind fun kind => ?_
    split
    · exact finds_pure fun hA _ _ => ⟨hA, trivial⟩
    · refine .after careful_advance fun _ => (finds_binary fuel (level + 1)).bind fun right =>
        finds_freshId.bind fun id => (finds_binaryMore fuel level _).pre fun hA _ _ _ => ⟨?_, trivial⟩
      exact fun hw => ⟨hA.1.1 hw.1, hA.1.2 hw.2⟩

theorem finds_unary (fuel : Nat) : FindsExpression True (unary fuel) := by
  match fuel with
  | 0 => exact finds_gap
  | fuel + 1 =>
    refine .after careful_peekKind fun kind => ?_
    split
    · exact finds_primary fuel
    · exact .after careful_advance fun t => (finds_unary fuel).bind fun operand =>
        finds_freshId.bind fun _ => finds_pure fun hA _ _ => ⟨hA.1.2, trivial⟩

theorem finds_primary (fuel : Nat) : FindsExpression True (primary fuel) := by
  match fuel with
  | 0 => exact finds_gap
  | fuel + 1 =>
    refine finds_peek.bind fun t => ?_
    have hliteral {P : List Shape → Prop} {value : Literal}
        (h : Genuine t.shape → value.Sound) : Finds (True ∧ Genuine t.shape) P (do
          let _ ← advance
          pure (.literal (← nodeFrom t.span) value)) Expression.Sound fun _ => Anywhere :=
      .after careful_advance fun _ => finds_node fun hA _ _ _ => ⟨h hA.2, trivial⟩
    simp only
    split
    · split
      · exact hliteral fun _ => sound_delta _
      · exact hliteral fun _ => sound_number _
      · exact hliteral fun _ => sound_number _
    · next hkind => exact hliteral fun ht => sound_text_of_genuine ht hkind
    · exact hliteral fun _ _ => trivial
    · exact hliteral fun _ _ => trivial
    · exact hliteral fun _ _ => trivial
    · next hkind =>
      refine .after careful_peekSecond fun second => ?_
      split
      · refine .after careful_advance fun _ => .after careful_advance fun _ =>
          .after careful_eat fun closed => ?_
        split
        · exact finds_node fun hA _ _ _ =>
            ⟨fun hw => ⟨isIdentifier_of_genuine hA.2 hkind hw.1, trivial⟩, trivial⟩
        · refine ((finds_arguments fuel #[]).pre fun _ _ _ _ => ⟨by simp, trivial⟩).bind
            fun found => .after careful_expect fun _ => finds_node fun hA _ _ _ => ⟨?_, trivial⟩
          exact fun hw => ⟨isIdentifier_of_genuine hA.1.2 hkind hw.1,
            Expression.allSound (fun e he => hA.2 e (by simpa using he)) hw.2⟩
      · exact .after careful_advance fun _ => finds_node fun hA _ _ _ =>
          ⟨fun hw => isIdentifier_of_genuine hA.2 hkind hw, trivial⟩
    · exact .after careful_advance fun _ => (finds_expression fuel).bind fun inner =>
        .after careful_expect fun _ => finds_pure fun hA _ _ => ⟨hA.2, trivial⟩
    · refine finds_unexpected.bind fun _ => ?_
      split
      · exact .after careful_advance fun _ => finds_node fun hA => hA.2.elim
      · exact finds_node fun hA => hA.2.elim

theorem finds_arguments (fuel : Nat) (found : Array Expression) :
    Finds (∀ e ∈ found, e.Sound) Anywhere (arguments fuel found)
      (fun es => ∀ e ∈ es, e.Sound) fun _ => Anywhere := by
  match fuel with
  | 0 => exact finds_cut fun hA _ _ => ⟨hA, trivial⟩
  | fuel + 1 =>
    refine (finds_expression fuel).bind fun e => .after careful_eat fun more => ?_
    have hpush (hA : (∀ e ∈ found, e.Sound) ∧ e.Sound) : ∀ e' ∈ found.push e, e'.Sound := by
      intro e' he'
      rcases Array.mem_push.mp he' with he' | rfl
      · exact hA.1 e' he'
      · exact hA.2
    split
    · exact (finds_arguments fuel _).pre fun hA _ _ _ => ⟨hpush hA, trivial⟩
    · exact finds_pure fun hA _ _ => ⟨hpush hA, trivial⟩

end

lemma finds_condition (fuel : Nat) : Finds True Anywhere (condition fuel) Expression.Sound
    fun _ ss => headKind ss ≠ .startTag :=
  .after careful_expect fun _ => (finds_expression fuel).bind fun _ => finds_expect.bind fun _ =>
    finds_pure fun hA _ h => by
      obtain ⟨t, ht, hadvanced⟩ := h
      exact ⟨hA.1.2, headKind_after hadvanced ht⟩

end Expressions

end Parse

section Dialogue

variable {t : Shape} {ts ss : List Shape}

inductive Voiced : Shape → Prop
  | startTag (s : String) : FitsTag s → Voiced (.startTag, .text s)
  | endTag (s : String) : FitsTag s → Voiced (.endTag, .text s)
  | name (s : String) : FitsBrackets s → Voiced (.dialogueIdentifier, .text s)
  | text (s : String) : s.toList ≠ [] → (∀ c ∈ s.toList, c ≠ '\n' ∧ c ≠ '\x7b') →
    Voiced (.markupText, .text s)
  | lineBreak (value : TokenValue) : Voiced (.markupLineBreak, value)

lemma voiced (h : Genuine t) (ht : t.isSpoken = true) : Voiced t := by
  obtain ⟨kind, value⟩ := t
  have hall (kind : TokenKind) : kind.isSpoken = true → kind ∈
      [.startTag, .endTag, .dialogueIdentifier, .markupText, .markupLineBreak] := by
    cases kind <;> decide
  have hkind := hall kind ht
  simp only [List.mem_cons, List.not_mem_nil, or_false] at hkind
  rcases hkind with rfl | rfl | rfl | rfl | rfl
  · obtain ⟨s, rfl, hs⟩ := h
    exact .startTag s hs
  · obtain ⟨s, rfl, hs⟩ := h
    exact .endTag s hs
  · obtain ⟨s, rfl, hs⟩ := h
    exact .name s hs
  · obtain ⟨s, rfl, hne, hs⟩ := h
    exact .text s hne hs
  · exact .lineBreak value

lemma Voiced.ne_nil (h : Voiced t) : said t ≠ [] := by
  cases h with
  | text s hne => exact hne
  | _ => exact List.cons_ne_nil _ _

lemma Voiced.mem (h : Voiced t) : ∀ c ∈ said t, (c = '\n' → t.1 = .markupLineBreak) ∧ c ≠ '\x7b' := by
  have hplain {cs : List Char} (hcs : ∀ c ∈ cs, c ≠ '\n' ∧ c ≠ '\x7b') (kind : TokenKind) :
      ∀ c ∈ cs, (c = '\n' → kind = .markupLineBreak) ∧ c ≠ '\x7b' :=
    fun c hc => ⟨fun heq => absurd heq (hcs c hc).1, (hcs c hc).2⟩
  have hin {s : String} (hs : FitsTag s) : ∀ c ∈ s.toList, c ≠ '\n' ∧ c ≠ '\x7b' := by
    intro c hc
    constructor <;> rintro rfl <;> exact absurd (hs.2 _ hc).2 (by decide)
  have hname {s : String} (hs : FitsBrackets s) : ∀ c ∈ s.toList, c ≠ '\n' ∧ c ≠ '\x7b' := by
    intro c hc
    constructor <;> rintro rfl <;> exact absurd (hs.2 _ hc) (by decide)
  cases h with
  | startTag s hs =>
    refine hplain (fun c hc => ?_) _
    simp only [said, List.mem_cons, List.mem_append, List.not_mem_nil, or_false] at hc
    rcases hc with rfl | hc | rfl
    · decide
    · exact hin hs c hc
    · decide
  | endTag s hs =>
    refine hplain (fun c hc => ?_) _
    simp only [said, List.mem_cons, List.mem_append, List.not_mem_nil, or_false] at hc
    rcases hc with rfl | rfl | hc | rfl
    · decide
    · decide
    · exact hin hs c hc
    · decide
  | name s hs =>
    refine hplain (fun c hc => ?_) _
    simp only [said, List.mem_cons, List.mem_append, List.not_mem_nil, or_false] at hc
    rcases hc with rfl | hc | rfl
    · decide
    · exact hname hs c hc
    · decide
  | text s hne hs => exact hplain hs _
  | lineBreak value =>
    intro c hc
    obtain rfl : c = '\n' := by simpa [said] using hc
    exact ⟨fun _ => rfl, by decide⟩

lemma Voiced.isChain (h : Voiced t) : (said t).IsChain Lined := by
  by_cases hbreak : t.1 = .markupLineBreak
  · obtain ⟨kind, value⟩ := t
    subst hbreak
    exact .singleton _
  · exact Markup.isChain_lined fun hmem => hbreak ((h.mem _ hmem).1 rfl)

lemma lined_said (h : Lawful ts) (hts : ∀ t ∈ ts, t.isSpoken = true) :
    (ts.flatMap said).IsChain Lined := by
  induction ts with
  | nil => exact .nil
  | cons t ts ih =>
    rw [List.forall_mem_cons] at hts
    have ht := voiced (h.genuine t List.mem_cons_self) hts.1
    refine List.isChain_append.mpr ⟨ht.isChain, ih h.tail hts.2, fun c hc d hd => ?_⟩
    cases ts with
    | nil => cases hd
    | cons u ts =>
      have hu := voiced (h.genuine u (by simp)) (hts.2 u List.mem_cons_self)
      change d ∈ (said u ++ ts.flatMap said).head? at hd
      rw [List.head?_append_of_ne_nil _ hu.ne_nil] at hd
      have hfollows := (List.isChain_cons_cons.mp h.follows).1
      refine ⟨fun heq => ?_, fun heq => ?_⟩
      · exact hfollows.stop ((hu.mem d (List.mem_of_head? hd)).1 heq) c hc
      · exact hfollows.start ((ht.mem c (List.mem_of_getLast? hc)).1 heq) d hd

lemma said_prefix_speech (hts : ∀ t ∈ ts, t.isSpoken = true) :
    ts.flatMap said <+: speech (ts ++ ss) := by
  rw [speech, List.takeWhile_append_of_pos hts, List.flatMap_append]
  exact List.prefix_append _ _

structure IsLines (cs : List Char) : Prop where
  brace : '\x7b' ∉ cs
  lined : cs.IsChain Lined
  shut : Shut cs

lemma IsLines.within {s cs : List Char} (h : IsLines cs) (hs : s <:+: cs) : IsLines s :=
  ⟨fun hmem => h.brace (hs.subset hmem), Markup.isChain_within h.lined hs, h.shut.within hs⟩

lemma isLines_said (h : Lawful (ts ++ ss)) (hts : ∀ t ∈ ts, t.isSpoken = true) :
    IsLines (ts.flatMap said) := by
  refine ⟨?_, lined_said ⟨fun t ht => h.genuine t (List.mem_append_left _ ht),
    (List.isChain_append.mp h.follows).1, fun u hu => ?_⟩ hts,
    (h.shut List.suffix_rfl).within (said_prefix_speech hts).isInfix⟩
  · rw [List.mem_flatMap]
    rintro ⟨t, ht, hmem⟩
    exact ((voiced (h.genuine t (List.mem_append_left _ ht)) (hts t ht)).mem _ hmem).2 rfl
  · obtain ⟨front, rfl⟩ := hu
    have hmore := h.shut (u := u ++ ss) ⟨front, by simp⟩
    refine hmore.within (List.IsPrefix.isInfix ?_)
    have hu : ∀ t ∈ u, t.isSpoken = true := fun t ht => hts t (List.mem_append_right _ ht)
    rw [speech, List.takeWhile_eq_self_iff.mpr hu]
    exact said_prefix_speech hu

def DialoguePart.isCode : DialoguePart → Bool
  | .code _ => true
  | .markup _ _ => false

def DialoguePart.Given : DialoguePart → Prop
  | .markup pieces _ => ∃ source, source ≠ [] ∧ IsLines source ∧ Markup.read source = (pieces, [])
  | .code b => b.Sound

structure Parted (parts : Array DialoguePart) : Prop where
  given : ∀ part ∈ parts, part.Given
  apart : parts.toList.IsChain fun a b => a.isCode = true ∨ b.isCode = true

lemma Parted.push {parts : Array DialoguePart} {part : DialoguePart} (h : Parted parts)
    (hpart : part.Given)
    (hcode : part.isCode = true ∨ ∀ last ∈ parts.toList.getLast?, last.isCode = true) :
    Parted (parts.push part) := by
  refine ⟨fun part' h' => ?_, ?_⟩
  · rcases Array.mem_push.mp h' with h' | rfl
    · exact h.given part' h'
    · exact hpart
  · rw [Array.toList_push]
    refine List.isChain_append.mpr ⟨h.apart, .singleton _, fun last hlast next hnext => ?_⟩
    cases hnext
    exact hcode.elim .inr fun hall => .inl (hall last hlast)

lemma sound_markup {pieces : List Markup} {source : List Char} (hne : source ≠ [])
    (hlines : IsLines source) (hread : Markup.read source = (pieces, []))
    (hw : Markup.Writable pieces) : Steady (Markup.renderAll pieces).toList ∧
      Markup.read (Markup.renderAll pieces).toList = (pieces, []) := by
  obtain ⟨hformed, hchain, hpieces⟩ := Markup.formed_read hne hread
  exact ⟨Markup.steady_renderAll hpieces hformed hchain hlines.brace hlines.lined hlines.shut
    hw.trimmed hw.returns hw.goesOn, Markup.read_renderAll hformed hchain hw.plain⟩

lemma sound_parts {nameless text : Bool} {parts : List DialoguePart}
    (hgiven : ∀ part ∈ parts, part.Given)
    (hchain : parts.IsChain fun a b => a.isCode = true ∨ b.isCode = true)
    (htext : text = true → ∀ part ∈ parts.head?, part.isCode = true)
    (hw : DialoguePart.AllWritable nameless parts) :
    DialoguePart.AllStable Eq nameless text parts := by
  induction parts generalizing nameless text with
  | nil => trivial
  | cons part parts ih =>
    rw [List.forall_mem_cons] at hgiven
    rw [List.isChain_cons] at hchain
    cases part with
    | markup pieces span =>
      obtain ⟨source, hne, hlines, hread⟩ := hgiven.1
      obtain ⟨hpieces, hname, hrest⟩ := hw
      obtain ⟨hsteady, hreread⟩ := sound_markup hne hlines hread hpieces
      have htext' : text = false := by
        by_contra h
        cases htext (Bool.eq_true_of_not_eq_false h) _ rfl
      exact ⟨htext', hsteady, hname, hreread, ih hgiven.2 hchain.2 (fun _ part hpart =>
        (hchain.1 part hpart).resolve_left Bool.false_ne_true) hrest⟩
    | code b => exact ⟨hgiven.1 hw.1, ih hgiven.2 hchain.2 (by simp) hw.2⟩

namespace Parse

structure Pending.Says (pending : Pending) (ts : List Shape) : Prop where
  chars : pending.chars.toList = ts.flatMap said
  spoken : ∀ t ∈ ts, t.isSpoken = true

lemma says_nil : Pending.Says {} [] :=
  ⟨rfl, by simp⟩

lemma Pending.Says.add {pending : Pending} {t : Token} (h : pending.Says ts)
    (hgenuine : Genuine t.shape) (ht : t.shape.isSpoken = true) :
    (pending.add t).Says (ts ++ [t.shape]) := by
  have hpush (text : List Char) : (text.foldl Array.push pending.chars).toList =
      pending.chars.toList ++ text := by simp
  refine ⟨?_, fun u hu => ?_⟩
  · rw [List.flatMap_append, ← h.chars, List.flatMap_singleton, Pending.add, hpush]
    congr 1
    obtain ⟨kind, text, value, span⟩ := t
    cases voiced hgenuine ht <;> simp [said, Token.shape, Token.content]
  · rcases List.mem_append.mp hu with hu | hu
    · exact h.spoken u hu
    · cases List.mem_singleton.mp hu
      exact ht

structure Pausing (found : Array DialoguePart) (pending : Pending) (ts : List Shape) : Prop where
  parted : Parted found
  last : ∀ part ∈ found.toList.getLast?, part.isCode = true
  pending : pending.Says ts

lemma finds_flush {found : Array DialoguePart} {pending : Pending} {ts : List Shape} {A : Prop}
    {P : List Shape → Prop}
    (h : A → ∀ ss, P ss → Pausing found pending ts ∧ IsLines (ts.flatMap said)) :
    Finds A P (flush found pending) Parted fun _ => Anywhere := by
  unfold flush
  simp only
  generalize hinner : ((pending.chars.toList.dropWhile _).reverse.dropWhile _).reverse = inner
  split
  · exact finds_pure fun hA ss hP => ⟨(h hA ss hP).1.parted, trivial⟩
  · next hne =>
    have hcareful (ds : Array Diagnostic) : Careful (modify fun p : Parser =>
        { p with diagnostics := p.diagnostics ++ ds }) :=
      fun _ hp => ⟨⟨hp.left, hp.final⟩, fun h => (Array.append_eq_empty_iff.mp h).1⟩
    refine ⟨(hcareful _).bind fun _ => careful_pure, fun p hp hclean hA hP => ?_⟩
    obtain ⟨hpausing, hlines⟩ := h hA _ hP
    have hunmatched : (Markup.readAt (pending.span.getD .unplaced) inner).2.toArray = #[] :=
      (Array.append_eq_empty_iff.mp hclean).2
    have hread : Markup.read inner = ((Markup.read inner).1, []) := by
      have hnil : (Markup.read inner).2 = [] := by simpa [Markup.readAt] using hunmatched
      rw [← hnil]
    have hwithin : inner <:+: ts.flatMap said := by
      rw [← hinner, ← hpausing.pending.chars, ← List.reverse_infix, List.reverse_reverse]
      refine List.IsInfix.trans (List.dropWhile_suffix _).isInfix ?_
      rw [List.reverse_infix]
      exact (List.dropWhile_suffix _).isInfix
    exact ⟨hpausing.parted.push ⟨inner, by simpa using hne, hlines.within hwithin, hread⟩
      (.inr hpausing.last), trivial⟩

end Parse

end Dialogue

end Stagecraft
