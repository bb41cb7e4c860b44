import Stagecraft.Proofs.Script.Reading
import Stagecraft.Proofs.Script.Said

namespace Stagecraft

open Shape

namespace Parse

variable {total : Nat} {same : Float → Float → Prop}

section Tokens

variable {t : Token} {s : Shape} {ss : List Shape}

lemma chars_add {pending : Pending} (ht : t.shape = s) (hs : s = mark .markupLineBreak ∨ IsSaid s) :
    (pending.add t).chars.toList = pending.chars.toList ++ said s := by
  subst ht
  rcases hs with hbreak | ⟨hkind, ⟨content, hcontent⟩, -⟩
  · have hkind : t.kind = .markupLineBreak := congrArg Prod.fst hbreak
    simp [Pending.add, hkind, hbreak, said]
  · have hvalue : t.content = content :=
      Token.content_of_shape (Prod.ext rfl hcontent : t.shape = (t.kind, .text content))
    have hshape : t.shape = (t.kind, .text content) := Prod.ext rfl hcontent
    simp only [hshape, List.mem_cons, List.not_mem_nil, or_false] at hkind
    rw [hshape]
    rcases hkind with hkind | hkind | hkind | hkind <;>
      simp [Pending.add, hkind, hvalue, said, String.toList_append]

lemma yields_skip (h : headKind ss ≠ .markupLineBreak) :
    Yields total (mark .markupLineBreak :: ss) (skipWhile (·.kind == .markupLineBreak))
      (fun _ => True) ss := by
  intro p hp
  obtain ⟨t, rest, hrest, ht, hss⟩ := List.map_eq_cons_iff.mp hp.shapes
  have hkind : t.kind = .markupLineBreak := congrArg Prod.fst ht
  have hpast : Parser.pastWhile (·.kind == .markupLineBreak) p.rest p = p.past t rest := by
    rw [hrest]
    simp only [Parser.pastWhile, hkind, beq_self_eq_true, if_true]
    cases rest with
    | nil => rfl
    | cons u rest =>
      have hu : u.kind ≠ .markupLineBreak := by
        rw [← hss] at h
        exact h
      simp [Parser.pastWhile, hu]
  have htaken := hp.taken
  rw [List.length_cons] at htaken
  refine ⟨?_, trivial⟩
  change (Parser.pastWhile (·.kind == .markupLineBreak) p.rest p).Left total ss
  rw [hpast]
  exact ⟨hss, hp.final, by change p.taken + 1 + ss.length = total; omega, hp.diagnostics⟩

end Tokens

section Text

variable {ss after rest : List Shape} {found : Array DialoguePart}
  {Q : Array DialoguePart → Prop}

lemma yields_gather {fuel : Nat} {pending : Pending} (ss : List Shape)
    (hss : ∀ s ∈ ss, s = mark .markupLineBreak ∨ IsSaid s)
    (h : ∀ pending' : Pending, pending'.chars.toList = pending.chars.toList ++ ss.flatMap said →
      Yields total after (dialogueParts fuel found pending') Q rest) :
    Yields total (ss ++ after) (dialogueParts (fuel + ss.length) found pending) Q rest := by
  induction ss generalizing pending with
  | nil => exact h pending (by simp)
  | cons s ss ih =>
    obtain ⟨hs, hss⟩ := List.forall_mem_cons.mp hss
    refine yields_peek.bind fun t ht => ?_
    have hend : t.isDialogueEnd = false := by
      rcases hs with rfl | hs
      · simp [Token.isDialogueEnd, show t.kind = .markupLineBreak from congrArg Prod.fst ht]
      · obtain ⟨content, hcontent⟩ := hs.text
        rw [← hs.goesOn]
        have hshape : t.shape = s.token.shape := ht
        exact Token.isDialogueEnd_congr hshape fun _ =>
          ⟨content, (congrArg Prod.snd ht).trans hcontent⟩
    have hmore : Yields total (s :: (ss ++ after))
        (advance >>= fun _ => dialogueParts (fuel + ss.length) found (pending.add t)) Q rest :=
      yields_advance.bind fun _ _ => ih hss fun pending' hpending' => h pending' (by
        rw [hpending', chars_add ht hs, List.flatMap_cons, List.append_assoc])
    have hkind : t.kind ∈ [.markupLineBreak, .startTag, .endTag, .markupText,
        .dialogueIdentifier] := by
      rw [show t.kind = s.1 from congrArg Prod.fst ht]
      rcases hs with rfl | hs
      · exact .head _
      · exact .tail _ hs.kind
    rw [hend, if_neg Bool.false_ne_true]
    simp only [List.mem_cons, List.not_mem_nil, or_false] at hkind
    rcases hkind with hkind | hkind | hkind | hkind | hkind <;> simp only [hkind] <;> exact hmore

inductive Gathered (same : Float → Float → Prop) (found : Array DialoguePart) (pending : Pending)
    (done : List DialoguePart) : Bool → Prop
  | idle : (∀ c ∈ pending.chars.toList, c = '\n') →
    List.Forall₂ (DialoguePart.Agrees same) found.toList done → Gathered same found pending done
      false
  | text {init : List DialoguePart} {breaks cs : List Char} {pieces : List Markup} {span : Span} :
    done = init ++ [.markup pieces span] →
    List.Forall₂ (DialoguePart.Agrees same) found.toList init → (∀ c ∈ breaks, c = '\n') →
    pending.chars.toList = breaks ++ (cs ++ ['\n']) → Steady cs →
    Markup.read cs = (pieces, []) → Gathered same found pending done true

lemma gathered_none {done : List DialoguePart}
    (h : List.Forall₂ (DialoguePart.Agrees same) found.toList done) :
    Gathered same found {} done false :=
  .idle (by simp) h

lemma gathered_break {pending : Pending} {done : List DialoguePart}
    (hpending : pending.chars.toList =
      ({} : Pending).chars.toList ++ [mark .markupLineBreak].flatMap said)
    (h : List.Forall₂ (DialoguePart.Agrees same) found.toList done) :
    Gathered same found pending done false :=
  .idle (by simp [hpending, said]) h

lemma yields_flush {text : Bool} {pending : Pending} {done : List DialoguePart}
    (h : Gathered same found pending done text) :
    Yields total ss (flush found pending)
      (fun r => List.Forall₂ (DialoguePart.Agrees same) r.toList done) ss := by
  have hbreaks {cs : List Char} (hcs : ∀ c ∈ cs, c = '\n') (rest : List Char) :
      (cs ++ rest).dropWhile (fun c => c == '\n') = rest.dropWhile (fun c => c == '\n') :=
    List.dropWhile_append_of_pos (by simpa using hcs)
  cases h with
  | idle hpending hfound =>
    have hnone : pending.chars.toList.dropWhile (fun c => c == '\n') = [] := by
      simpa using hpending
    simp only [flush, hnone]
    exact yields_pure hfound
  | @text init breaks cs pieces span hdone hfound hall hpending hcs hread =>
    subst hdone
    obtain ⟨⟨c, hc⟩, ⟨d, hd⟩⟩ : (∃ c, cs.head? = some c) ∧ ∃ d, cs.getLast? = some d :=
      ⟨⟨_, List.head?_eq_some_head hcs.nonempty⟩, ⟨_, List.getLast?_eq_some_getLast hcs.nonempty⟩⟩
    have hsolid {c : Char} (h : Text.isBlank c = false) : (c == '\n') = false := by
      rw [beq_eq_false_iff_ne]
      rintro rfl
      exact absurd h (by decide)
    have hstart : (cs ++ ['\n']).dropWhile (fun c => c == '\n') = cs ++ ['\n'] := by
      obtain ⟨tail, rfl⟩ := List.head?_eq_some_iff.mp hc
      simp [hsolid (hcs.trimmed.1 c rfl)]
    have hstop : cs.reverse.dropWhile (fun c => c == '\n') = cs.reverse := by
      obtain ⟨init, rfl⟩ := List.getLast?_eq_some_iff.mp hd
      simp [hsolid (hcs.trimmed.2 d (by simp))]
    have hinner : ((pending.chars.toList.dropWhile (fun c => c == '\n')).reverse.dropWhile
        (fun c => c == '\n')).reverse = cs := by
      rw [hpending, hbreaks hall, hstart, List.reverse_append, hbreaks (by simp), hstop,
        List.reverse_reverse]
    have hfull : cs.isEmpty = false := by simpa using hcs.nonempty
    simp only [flush, hinner, hfull, Markup.readAt, hread]
    intro p hp
    refine ⟨⟨hp.shapes, hp.final, hp.taken, ?_⟩, ?_⟩
    · exact (Array.append_empty).trans hp.diagnostics
    · change List.Forall₂ _ (found.push _).toList _
      rw [Array.toList_push]
      exact List.rel_append hfound (.cons (.markup pieces) .nil)

end Text

end Parse

end Stagecraft
