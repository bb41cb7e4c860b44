import Stagecraft.Proofs.Script.Found

namespace Stagecraft

open Shape

namespace Parse

lemma forall_mem_push {α : Type} {P : α → Prop} {found : Array α} {a : α} (h : ∀ x ∈ found, P x)
    (ha : P a) : ∀ x ∈ found.push a, P x := by
  intro x hx
  rcases Array.mem_push.mp hx with hx | rfl
  · exact h x hx
  · exact ha

lemma startTag_of_isDialogueStart {t : Token} (h : t.isDialogueStart = true) :
    t.kind = .startTag := by
  simp only [Token.isDialogueStart, Bool.and_eq_true, beq_iff_eq] at h
  exact h.1

lemma fitsTag_boxName {t : Token} (h : Genuine t.shape) (ht : t.kind = .startTag) :
    FitsTag (boxName t.content) := by
  rw [Token.shape, ht] at h
  obtain ⟨s, hs, hfits⟩ := h
  have hcontent : t.content = s := by rw [Token.content, hs]
  rw [hcontent, FitsTag, boxName, Text.trim, String.toList_ofList]
  refine ⟨Text.isTrimmed_trim, fun c hc => hfits.2 c ?_⟩
  have hmem := Text.mem_of_mem_trim hc
  rw [String.toList_ofList] at hmem
  exact (List.dropWhile_sublist _).mem ((List.drop_sublist _ _).mem hmem)

lemma fitsBrackets_content {t : Token} (h : Genuine t.shape) (ht : t.kind = .dialogueIdentifier) :
    FitsBrackets t.content := by
  rw [Token.shape, ht] at h
  obtain ⟨s, hs, hfits⟩ := h
  rwa [show t.content = s by rw [Token.content, hs]]

section Statements

abbrev FindsStatement (strict : Bool) (x : Parse Statement) : Prop :=
  Finds True (fun ss => strict = true → headKind ss ≠ .startTag) x
    (fun s => s.Sound ∧ (strict = true → s.isDialogue = false))
    fun s ss => s.endsOpen = true → headKind ss ≠ .elseWord

lemma finds_end {A : Prop} {P : List Shape → Prop} {strict : Bool} {first : Span}
    {make : Node → Statement} (hsound : A → ∀ node, (make node).Sound)
    (h : ∀ node, (make node).isDialogue = false ∧ (make node).endsOpen = false) :
    Finds A P (do endStatement; pure (make (← nodeFrom first)))
      (fun s => s.Sound ∧ (strict = true → s.isDialogue = false))
      fun s ss => s.endsOpen = true → headKind ss ≠ .elseWord :=
  .after careful_endStatement fun _ => finds_node fun hA node _ _ =>
    ⟨⟨hsound hA node, fun _ => (h node).1⟩, fun hopen => by simp [(h node).2] at hopen⟩

lemma finds_else {s : Statement} :
    Finds True (fun ss => s.endsOpen = true → headKind ss ≠ .elseWord) (eat .elseWord)
      (fun found => found = true → s.endsOpen = false)
      fun found ss => found = false → headKind ss ≠ .elseWord :=
  finds_eat.post fun _ found ss _ h => by
    refine ⟨fun hfound => ?_, fun hfound => (h.2 hfound).2⟩
    obtain ⟨t, ht, hadvanced⟩ := h.1 hfound
    obtain ⟨before, hopen, hkind⟩ := hadvanced.kind
    by_contra hs
    exact hopen (Bool.eq_true_of_not_eq_false hs) (hkind.trans ht)

mutual

theorem finds_statement (fuel : Nat) (strict : Bool) : FindsStatement strict (statement fuel) := by
  match fuel with
  | 0 =>
    exact finds_cut fun _ _ _ =>
      ⟨⟨fun _ => trivial, fun _ => rfl⟩, fun h => absurd h Bool.false_ne_true⟩
  | fuel + 1 =>
    refine finds_peek.bind fun t => ?_
    split
    · exact (finds_block fuel).anywhere.bind fun body => finds_node fun hA _ _ _ =>
        ⟨⟨hA.2, fun _ => rfl⟩, fun h => absurd h Bool.false_ne_true⟩
    · refine .after careful_advance fun _ => (finds_condition fuel).bind fun c =>
        ((finds_statement fuel true).pre fun _ _ _ hP => ⟨trivial, fun _ => hP⟩).bind fun yes =>
          finds_else.bind fun more => ?_
      cases more with
      | true =>
        refine ((finds_statement fuel false).pre fun _ _ _ _ => ⟨trivial, by simp⟩).bind fun no =>
          finds_node fun hA _ ss hP => ?_
        obtain ⟨⟨⟨⟨-, hc⟩, hyes, hdialogue⟩, hopen⟩, hno, -⟩ := hA
        exact ⟨⟨fun hw => ⟨hc hw.1, hyes hw.2.1, hdialogue rfl, hno hw.2.2, hopen rfl⟩,
          fun _ => rfl⟩, hP⟩
      | false =>
        refine finds_node fun hA _ ss hP => ?_
        obtain ⟨⟨⟨hA, hc⟩, hyes, hdialogue⟩, -⟩ := hA
        exact ⟨⟨fun hw => ⟨hc hw.1, hyes hw.2, hdialogue rfl⟩, fun _ => rfl⟩, fun _ => hP rfl⟩
    · refine .after careful_advance fun _ => (finds_condition fuel).bind fun c =>
        ((finds_statement fuel true).pre fun _ _ _ hP => ⟨trivial, fun _ => hP⟩).bind fun body =>
          finds_node fun hA _ ss hP => ?_
      obtain ⟨⟨-, hc⟩, hbody, hdialogue⟩ := hA
      exact ⟨⟨fun hw => ⟨hc hw.1, hbody hw.2, hdialogue rfl⟩, fun _ => rfl⟩, hP⟩
    · refine .after careful_advance fun _ => .after careful_expect fun opened => ?_
      split
      · refine ((finds_choices fuel #[]).pre fun _ _ _ _ => ⟨by simp, trivial⟩).bind fun cases =>
          .after careful_expect fun _ => finds_node fun hA _ _ _ => ?_
        exact ⟨⟨fun hw => Choice.allSound (fun c hc => hA.2 c (by simpa using hc)) hw,
          fun _ => rfl⟩, fun h => absurd h Bool.false_ne_true⟩
      · exact finds_node fun _ _ _ _ =>
          ⟨⟨fun _ => trivial, fun _ => rfl⟩, fun h => absurd h Bool.false_ne_true⟩
    · exact .after careful_advance fun _ => .after careful_name fun _ =>
        finds_end (fun _ _ _ => trivial) fun _ => ⟨rfl, rfl⟩
    · exact .after careful_advance fun _ => .after careful_name fun _ =>
        finds_end (fun _ _ _ => trivial) fun _ => ⟨rfl, rfl⟩
    · refine .after careful_advance fun _ => .after careful_peekKind fun kind => ?_
      split
      · exact finds_end (fun _ _ _ => trivial) fun _ => ⟨rfl, rfl⟩
      · exact (finds_expression fuel).bind fun value =>
          finds_end (fun hA _ => hA.2) fun _ => ⟨rfl, rfl⟩
    · exact .after careful_advance fun _ => finds_end (fun _ _ _ => trivial) fun _ => ⟨rfl, rfl⟩
    · exact .after careful_advance fun _ => finds_node fun _ _ _ _ =>
        ⟨⟨fun _ => trivial, fun _ => rfl⟩, fun h => absurd h Bool.false_ne_true⟩
    · split
      · next hstart =>
        -- where no tag can open this is not reached
        have hdialogue : Finds (strict = false) (fun ss => headKind ss = .startTag)
            (do
              let d ← dialogue fuel
              pure (.dialogue (← nodeFrom t.span) d))
            (fun s : Statement => s.Sound ∧ (strict = true → s.isDialogue = false))
            fun s ss => s.endsOpen = true → headKind ss ≠ .elseWord :=
          (finds_dialogue fuel).bind fun d => finds_node fun hA _ _ _ =>
            ⟨⟨hA.2, fun h => by simp [hA.1] at h⟩, fun h => absurd h Bool.false_ne_true⟩
        refine hdialogue.pre fun _ ss _ hP => ?_
        have hkind := hP.2.headKind.trans (startTag_of_isDialogueStart hstart)
        refine ⟨?_, hkind⟩
        by_contra h
        exact hP.1 (Bool.eq_true_of_not_eq_false h) hkind
      · exact (finds_expression fuel).anywhere.bind fun value =>
          finds_end (fun hA _ => hA.2) fun _ => ⟨rfl, rfl⟩

theorem finds_block (fuel : Nat) :
    Finds True Anywhere (block fuel) Block.Sound fun _ => Anywhere := by
  match fuel with
  | 0 => exact finds_cut fun _ _ _ => ⟨fun _ => trivial, trivial⟩
  | fuel + 1 =>
    refine finds_freshId.bind fun id => .after careful_peek fun t =>
      .after careful_expect fun opened => ?_
    split
    · exact ((finds_statements fuel #[]).pre fun _ _ _ _ => ⟨by simp, trivial⟩).bind fun found =>
        .after careful_expect fun _ => finds_lastSpan.bind fun _ => finds_pure fun hA _ _ =>
          ⟨fun hw => Statement.allSound (fun s hs => hA.1.2 s (by simpa using hs)) hw, trivial⟩
    · exact finds_pure fun _ _ _ => ⟨fun _ => trivial, trivial⟩

theorem finds_statements (fuel : Nat) (found : Array Statement) :
    Finds (∀ s ∈ found, s.Sound) Anywhere (statements fuel found)
      (fun ss => ∀ s ∈ ss, s.Sound) fun _ => Anywhere := by
  match fuel with
  | 0 => exact finds_cut fun hA _ _ => ⟨hA, trivial⟩
  | fuel + 1 =>
    refine .after careful_peekKind fun kind => ?_
    split
    · exact finds_pure fun hA _ _ => ⟨hA, trivial⟩
    · refine finds_get.bind fun before => ((finds_statement fuel false).pre fun _ _ _ _ =>
        ⟨trivial, by simp⟩).bind fun s => finds_get.bind fun after => ?_
      split
      · exact .after careful_advance fun _ => (finds_statements fuel _).pre fun hA _ _ _ =>
          ⟨forall_mem_push hA.1.1.1 hA.1.2.1, trivial⟩
      · exact (finds_statements fuel _).pre fun hA _ _ _ =>
          ⟨forall_mem_push hA.1.1.1 hA.1.2.1, trivial⟩

theorem finds_choices (fuel : Nat) (found : Array Choice) :
    Finds (∀ c ∈ found, c.Sound) Anywhere (choices fuel found)
      (fun cs => ∀ c ∈ cs, c.Sound) fun _ => Anywhere := by
  match fuel with
  | 0 => exact finds_cut fun hA _ _ => ⟨hA, trivial⟩
  | fuel + 1 =>
    refine .after careful_peekKind fun kind => ?_
    split
    · exact finds_pure fun hA _ _ => ⟨hA, trivial⟩
    · exact finds_pure fun hA _ _ => ⟨hA, trivial⟩
    · exact .after careful_advance fun t => .after careful_name fun label =>
        .after careful_expect fun _ => ((finds_statement fuel false).pre fun _ _ _ _ =>
          ⟨trivial, by simp⟩).bind fun body => finds_freshId.bind fun id =>
            (finds_choices fuel _).pre fun hA _ _ _ => ⟨forall_mem_push hA.1.1
              fun hw => ⟨hw.1, hw.2.1, hA.1.2.1 hw.2.2⟩, trivial⟩
    · refine finds_unexpected.bind fun _ => .after careful_synchronize fun _ =>
        .after careful_peekKind fun kind => ?_
      split
      · exact finds_pure fun hA => hA.2.elim
      · exact (finds_choices fuel _).pre fun hA => hA.2.elim

theorem finds_dialogue (fuel : Nat) :
    Finds True (fun ss => headKind ss = .startTag) (dialogue fuel) Dialogue.Sound
      fun _ => Anywhere := by
  match fuel with
  | 0 =>
    refine finds_freshId.bind fun id => finds_cut fun _ _ _ =>
      ⟨fun _ => ⟨?_, by simp, trivial⟩, trivial⟩
    simp [FitsTag, Text.IsTrimmed]
  | fuel + 1 =>
    refine finds_advance.bind fun t => ?_
    have hrest {A : Prop} {id : Nat} {name : Option String}
        (hname : A → ∀ n, name = some n → FitsBrackets n) :
        Finds (A ∧ FitsTag (boxName t.content)) Anywhere (do
          let parts ← dialogueParts fuel #[] {}
          let last ← lastSpan
          pure (Dialogue.mk { id, span := t.span.through last } (boxName t.content) name
            parts.toList)) Dialogue.Sound fun _ => Anywhere :=
      ((finds_dialogueParts fuel #[] {} []).pre fun _ ss hss _ =>
        ⟨⟨⟨by simp, .nil⟩, by simp, says_nil⟩, hss⟩).bind fun parts =>
          finds_lastSpan.bind fun _ => finds_pure fun hA _ _ =>
            ⟨fun hw => ⟨hA.1.1.2, hname hA.1.1.1, sound_parts (fun part hpart =>
              hA.1.2.given part (by simpa using hpart)) hA.1.2.apart (by simp) hw⟩, trivial⟩
    have hbox : Finds (FitsTag (boxName t.content)) Anywhere (do
        let id ← freshId
        skipWhile (·.kind == .markupLineBreak)
        let next ← peek
        let name ← if next.kind == .dialogueIdentifier then do
            let _ ← advance
            pure (some next.content)
          else pure none
        let parts ← dialogueParts fuel #[] {}
        pure (.mk { id, span := t.span.through (← lastSpan) } (boxName t.content) name
          parts.toList)) Dialogue.Sound fun _ => Anywhere := by
      refine finds_freshId.bind fun id => .after careful_skipWhile fun _ =>
        finds_peek.bind fun next => ?_
      split
      · next hkind =>
        refine .after careful_advance fun _ => finds_value ?_
        refine (hrest fun hA n hn => ?_).pre fun hA _ _ _ => ⟨⟨hA.2, hA.1.1⟩, trivial⟩
        cases hn
        exact fitsBrackets_content hA (by simpa using hkind)
      · refine finds_value ?_
        exact (hrest (A := True) (by simp)).anywhere.pre fun hA _ _ hP => ⟨⟨trivial, hA.1.1⟩, hP⟩
    refine hbox.pre fun hA ss _ hP => ⟨?_, trivial⟩
    obtain ⟨before, hbefore, hkind⟩ := hP.kind
    exact fitsTag_boxName hA.2 (hkind.symm.trans hbefore)

theorem finds_dialogueParts (fuel : Nat) (found : Array DialoguePart) (pending : Pending)
    (ts : List Shape) : Finds (Pausing found pending ts) (fun ss => Lawful (ts ++ ss))
      (dialogueParts fuel found pending) Parted fun _ => Anywhere := by
  match fuel with
  | 0 => exact finds_cut fun hA _ _ => ⟨hA.parted, trivial⟩
  | fuel + 1 =>
    refine finds_peek.bind fun t => ?_
    have hspoken (ht : t.kind.isSpoken = true) : Finds (Pausing found pending ts ∧ Genuine t.shape)
        (fun ss => Lawful (ts ++ ss) ∧ Heads t ss) (do
          let _ ← advance
          dialogueParts fuel found (pending.add t)) Parted fun _ => Anywhere := by
      refine finds_advance.bind fun t' =>
        (finds_dialogueParts fuel found (pending.add t) (ts ++ [t.shape])).pre fun hA ss _ hP => ?_
      refine ⟨⟨hA.1.1.parted, hA.1.1.last, hA.1.1.pending.add hA.1.2 ht⟩, ?_⟩
      obtain ⟨before, ⟨hlawful, hheads⟩, -, hbefore⟩ := hP.before
      rcases hheads with ⟨rest, rfl⟩ | ⟨rfl, hend⟩
      · rcases hbefore with hbefore | ⟨hbefore, -⟩
        · rw [List.cons.injEq] at hbefore
          rw [List.append_assoc, List.singleton_append, ← hbefore.2]
          exact hlawful
        · cases hbefore
      · rw [hend] at ht
        cases ht
    have hflush {P : List Shape → Prop} :
        Finds (Pausing found pending ts ∧ IsLines (ts.flatMap said)) P (flush found pending)
          Parted fun _ => Anywhere :=
      finds_flush fun hA _ _ => hA
    split
    · refine (Finds.after (P := Anywhere) careful_advance fun _ => hflush).pre fun hA ss _ hP => ?_
      exact ⟨⟨hA.1, isLines_said hP.1 hA.1.pending.spoken⟩, trivial⟩
    · split
      · exact finds_unexpected.bind fun _ =>
          (hflush (P := Anywhere)).pre fun hA => hA.2.elim
      · refine (finds_flush fun hA ss hP => ⟨hA.1, isLines_said hP.1 hA.1.pending.spoken⟩).bind_known
          fun found => (finds_block fuel).bind fun body =>
            (finds_dialogueParts fuel _ {} []).pre fun hA ss hss _ => ?_
        exact ⟨⟨hA.1.2.push hA.2 (.inl rfl), by simp [DialoguePart.isCode], says_nil⟩, hss⟩
      · next hkind => exact hspoken (by rw [hkind]; rfl)
      · next hkind => exact hspoken (by rw [hkind]; rfl)
      · next hkind => exact hspoken (by rw [hkind]; rfl)
      · next hkind => exact hspoken (by rw [hkind]; rfl)
      · next hkind => exact hspoken (by rw [hkind]; rfl)
      · exact finds_unexpected.bind fun _ => .after careful_advance fun _ =>
          (finds_dialogueParts fuel found pending ts).pre fun hA => hA.2.elim

end

end Statements

section Files

lemma finds_formalParameters (fuel : Nat) (found : Array FormalParameter) :
    Finds (∀ p ∈ found, p.Sound) Anywhere (formalParameters fuel found)
      (fun ps => ∀ p ∈ ps, p.Sound) fun _ => Anywhere := by
  induction fuel generalizing found with
  | zero => exact finds_cut fun hA _ _ => ⟨hA, trivial⟩
  | succ fuel ih =>
    refine finds_peek.bind fun t => ?_
    split
    · next hkind =>
      have hpush (id : Nat) (hA : (∀ p ∈ found, p.Sound) ∧ Genuine t.shape) :
          ∀ p ∈ found.push { node := { id, span := t.span }, name := t.content }, p.Sound :=
        forall_mem_push hA.1 fun hw =>
          isIdentifier_of_genuine hA.2 (by simpa using hkind) hw
      refine .after careful_advance fun _ => finds_freshId.bind fun id =>
        .after careful_eat fun more => ?_
      split
      · exact (ih _).pre fun hA _ _ _ => ⟨hpush id hA.1, trivial⟩
      · exact .after careful_expect fun _ => finds_pure fun hA _ _ => ⟨hpush id hA.1, trivial⟩
    · exact finds_unexpected.bind fun _ => .after careful_skipWhile fun _ =>
        .after careful_eat fun _ => finds_pure fun hA => hA.2.elim

lemma finds_parameterList (fuel : Nat) : Finds True Anywhere (parameterList fuel)
    (fun ps => ∀ p ∈ ps, p.Sound) fun _ => Anywhere := by
  refine .after careful_expect fun opened => ?_
  split
  · refine .after careful_eat fun closed => ?_
    split
    · exact finds_pure fun _ _ _ => ⟨by simp, trivial⟩
    · exact ((finds_formalParameters fuel #[]).pre fun _ _ _ _ => ⟨by simp, trivial⟩).bind
        fun found => finds_pure fun hA _ _ => ⟨fun p hp => hA.2 p (by simpa using hp), trivial⟩
  · exact finds_pure fun _ _ _ => ⟨by simp, trivial⟩

lemma finds_member (fuel : Nat) :
    Finds True Anywhere (member fuel) Member.Sound fun _ => Anywhere := by
  refine .after careful_advance fun t => finds_freshId.bind fun id =>
    .after careful_name fun name => ?_
  dsimp only
  split
  · exact (finds_block fuel).bind fun body => finds_pure fun hA _ _ =>
      ⟨fun hw => ⟨hw.1, hA.2 hw.2⟩, trivial⟩
  · exact (finds_block fuel).bind fun body => finds_pure fun hA _ _ =>
      ⟨fun hw => ⟨hw.1, hA.2 hw.2⟩, trivial⟩
  · exact (finds_parameterList fuel).bind fun parameters => (finds_block fuel).bind fun body =>
      finds_pure fun hA _ _ => ⟨fun hw => ⟨hw.1, fun p hp => hA.1.2 p hp (hw.2.1 p hp),
        hA.2 hw.2.2⟩, trivial⟩

lemma sound_include {t : Token} {span : Span} (h : Genuine t.shape)
    (ht : t.kind = .includeDirective) : Include.Sound { path := t.content, span } := by
  rw [Token.shape, ht] at h
  obtain ⟨s, hs, hpath⟩ := h
  have hcontent : t.content = s := by rw [Token.content, hs]
  intro hw c hc
  rw [Include.Writable, hcontent] at hw
  rw [hcontent] at hc
  exact ⟨(hpath c hc).1, (hw c hc).1, (hpath c hc).2, (hw c hc).2⟩

structure AllSound (includes : List Include) (members : List Member) : Prop where
  includes : ∀ i ∈ includes, i.Sound
  members : ∀ m ∈ members, m.Sound

lemma AllSound.include {includes : Array Include} {members : Array Member} {i : Include}
    (h : AllSound includes.toList members.toList) (hi : i.Sound) :
    AllSound (includes.push i).toList members.toList := by
  refine ⟨fun j hj => ?_, h.members⟩
  exact forall_mem_push (fun j hj => h.includes j (by simpa using hj)) hi j (by simpa using hj)

lemma AllSound.member {includes : Array Include} {members : Array Member} {m : Member}
    (h : AllSound includes.toList members.toList) (hm : m.Sound) :
    AllSound includes.toList (members.push m).toList := by
  refine ⟨h.includes, fun n hn => ?_⟩
  exact forall_mem_push (fun n hn => h.members n (by simpa using hn)) hm n (by simpa using hn)

lemma finds_items (fuel : Nat) (includes : Array Include) (members : Array Member) :
    Finds (AllSound includes.toList members.toList) Anywhere (items fuel includes members)
      (fun found => AllSound found.1 found.2) fun _ => Anywhere := by
  induction fuel generalizing includes members with
  | zero => exact finds_cut fun hA _ _ => ⟨hA, trivial⟩
  | succ fuel ih =>
    refine finds_peek.bind fun t => ?_
    split
    · exact finds_pure fun hA _ _ => ⟨hA.1, trivial⟩
    split
    · next hkind =>
      exact .after careful_advance fun _ => (ih _ _).pre fun hA _ _ _ =>
        ⟨hA.1.include (sound_include hA.2 (by simpa using hkind)), trivial⟩
    split
    · exact (finds_member fuel).anywhere.bind fun m =>
        (ih _ _).pre fun hA _ _ _ => ⟨hA.1.1.member hA.2, trivial⟩
    split
    · next hstart =>
      refine ((finds_dialogue fuel).pre fun _ ss _ hP => ⟨trivial, ?_⟩).bind fun d =>
        (ih _ _).pre fun hA _ _ _ => ⟨hA.1.1.member hA.2, trivial⟩
      exact hP.2.headKind.trans (startTag_of_isDialogueStart hstart)
    · exact finds_unexpected.bind fun _ => .after careful_advance fun _ =>
        .after careful_skipWhile fun _ => (ih _ _).pre fun hA => hA.2.elim

lemma finds_script (fuel : Nat) (path : String) :
    Finds True Anywhere (script fuel path) Script.Sound fun _ => Anywhere :=
  ((finds_items fuel #[] #[]).pre fun _ _ _ _ => ⟨⟨by simp, by simp⟩, trivial⟩).bind fun found =>
    finds_pure fun hA _ _ => ⟨fun hw => ⟨fun i hi => hA.2.includes i hi (hw.includes i hi),
      fun m hm => hA.2.members m hm (hw.members m hm)⟩, trivial⟩

end Files

end Parse

end Stagecraft
