import Stagecraft.Proofs.Markup.Reread

namespace Stagecraft.Markup

variable {source cs rest before after : List Char} {t : Tag} {ms : List Markup}

lemma tag?_append (h : tag? cs = some (t, after)) (rest : List Char) :
    tag? (cs ++ rest) = some (t, after ++ rest) := by
  obtain ⟨hinside, rfl⟩ := eq_of_tag? h
  obtain ⟨isEnd, inner⟩ := t
  cases isEnd
  · simpa using tag?_start hinside (after ++ rest)
  · simpa using tag?_end hinside (after ++ rest)

lemma untagged_before {more : List Char}
    (h : ∀ ⦃u⦄, u ≠ [] → u <:+ before → tag? (u ++ more) = none) : Untagged before := by
  intro u hu
  by_contra hsome
  obtain ⟨⟨t, after⟩, ht⟩ := Option.ne_none_iff_exists'.mp hsome
  have hne : u ≠ [] := by
    rintro rfl
    cases ht
  have hnone := h hne hu
  rw [tag?_append ht] at hnone
  cases hnone

section Lines

lemma head_ofText {s : String} (h : text s ∈ (ofText cs).head?) : s.toList <+: cs := by
  have hnot (line more : List Char) (hline : '\n' ∉ line) (hmore : ∀ c ∈ more.head?, c = '\n')
      (h : text s ∈ (ofText (line ++ more)).head?) : s.toList <+: line ++ more := by
    cases line with
    | nil =>
      cases more with
      | nil => cases h
      | cons c more =>
        obtain rfl := hmore c rfl
        rw [List.nil_append, ofText_break] at h
        cases h
    | cons c line =>
      rw [ofText_line (List.cons_ne_nil c line) hline _ hmore] at h
      cases h
      rw [String.toList_ofList]
      exact List.prefix_append _ _
  obtain hall | ⟨line, d, more, rfl, hline, hd⟩ := Text.split_first (· != '\n') cs
  · rw [← List.append_nil cs] at h ⊢
    exact hnot cs [] (fun hmem => absurd (hall _ hmem) (by decide)) (by simp) h
  · exact hnot line (d :: more) (fun hmem => absurd (hline _ hmem) (by decide))
      (by simpa using hd) h

lemma formed_ofText (hwithin : cs <:+: source) (hs : Untagged cs) :
    (∀ m ∈ ofText cs, Formed source m) ∧ (ofText cs).IsChain (Beside source) := by
  induction hn : cs.length using Nat.strong_induction_on generalizing cs with
  | _ n ih =>
    subst hn
    have hline {line : List Char} (hall : ∀ c ∈ line, (c != '\n') = true) (hne : line ≠ [])
        (hfront : line <+: cs) : Formed source (text (.ofList line)) := by
      refine .text _ (by simpa using hne) ?_ ?_ ?_ <;> rw [String.toList_ofList]
      · exact fun hmem => absurd (hall _ hmem) (by decide)
      · intro u hu
        by_contra hsome
        obtain ⟨⟨t, after⟩, ht⟩ := Option.ne_none_iff_exists'.mp hsome
        obtain ⟨more, rfl⟩ := hfront
        obtain ⟨front, rfl⟩ := hu
        have hnone := hs (t := u ++ more) ⟨front, by simp⟩
        rw [tag?_append ht] at hnone
        cases hnone
      · exact hfront.isInfix.trans hwithin
    obtain hall | ⟨line, d, more, heq, hall, hd⟩ := Text.split_first (· != '\n') cs
    · by_cases hne : cs = []
      · simp [hne]
      · have hof : ofText cs = [text (.ofList cs)] := by
          have := ofText_line hne (fun hmem => absurd (hall _ hmem) (by decide)) [] (by simp)
          rwa [List.append_nil] at this
        simpa [hof] using hline hall hne List.prefix_rfl
    · obtain rfl : d = '\n' := by simpa using hd
      have hmore : more <:+ cs := ⟨line ++ ['\n'], by simp [heq]⟩
      obtain ⟨hformed, hchain⟩ := ih more.length (by simp [heq]; omega)
        (hmore.isInfix.trans hwithin) (fun u hu => hs (hu.trans hmore)) rfl
      -- the break stands in the source next to the line behind it
      have hbreak : (∀ m ∈ lineBreak :: ofText more, Formed source m) ∧
          (lineBreak :: ofText more).IsChain (Beside source) := by
        refine ⟨List.forall_mem_cons.mpr ⟨.lineBreak, hformed⟩,
          List.isChain_cons.mpr ⟨fun m hm => ?_, hchain⟩⟩
        cases m with
        | text s =>
          obtain ⟨tail, rfl⟩ := head_ofText hm
          exact List.IsInfix.trans ⟨line, tail, by simp [heq]⟩ hwithin
        | lineBreak => trivial
        | element => trivial
      by_cases hne : line = []
      · rw [heq, hne, List.nil_append, ofText_break]
        exact hbreak
      · rw [heq, ofText_line hne (fun hmem => absurd (hall _ hmem) (by decide)) _ (by simp),
          ofText_break]
        refine ⟨List.forall_mem_cons.mpr ⟨hline hall hne ⟨_, heq.symm⟩, hbreak.1⟩,
          List.isChain_cons.mpr ⟨?_, hbreak.2⟩⟩
        rintro _ ⟨⟩
        exact List.IsInfix.trans ⟨[], more, by simp [heq]⟩ hwithin

end Lines

structure Open.Formed (source : List Char) (o : Open) : Prop where
  name : IsElementName o.name.toList
  spelled : o.name.toList <:+: source
  attributes : ∀ a ∈ o.attributes, IsAttribute a ∧ a.2.toList <:+: source
  before : ∀ m ∈ o.before, Markup.Formed source m
  chain : o.before.IsChain (flip (Beside source))

lemma beside_element {m : Markup} {name : String} {attributes : List (String × String)}
    {closed : Bool} : Beside source m (element name attributes closed ms) ∧
      Beside source (element name attributes closed ms) m := by
  cases m <;> exact ⟨trivial, trivial⟩

namespace Reading

variable {r : Reading}

structure Grown (source : List Char) (r : Reading) : Prop where
  formed : ∀ m ∈ r.pieces, Markup.Formed source m
  chain : r.pieces.IsChain (flip (Beside source))
  waiting : ∀ o ∈ r.waiting, Open.Formed source o

def Started (r : Reading) : Prop :=
  r.pieces ≠ [] ∨ r.waiting ≠ []

def Rests (r : Reading) : Prop :=
  ∀ m ∈ r.pieces.head?, ∃ name attributes closed children,
    m = element name attributes closed children

lemma isChain_element {name : String} {attributes : List (String × String)} {closed : Bool}
    {pieces : List Markup} (h : pieces.IsChain (flip (Beside source))) :
    (element name attributes closed ms :: pieces).IsChain (flip (Beside source)) :=
  List.isChain_cons.mpr ⟨fun _ _ => beside_element.1, h⟩

lemma Grown.giveUp {o : Open} {outer : List Open} (h : r.Grown source) (ho : o.Formed source)
    (houter : ∀ o ∈ outer, o.Formed source) : (r.giveUp o outer).Grown source := by
  refine ⟨fun m hm => ?_, ?_, houter⟩
  · rcases List.mem_append.mp hm with hm | hm
    · exact h.formed m hm
    · rcases List.mem_cons.mp hm with rfl | hm
      · exact .element _ _ _ _ ho.name ho.spelled ho.attributes (fun _ => rfl) .nil (by simp)
      · exact ho.before m hm
  · refine List.isChain_append.mpr ⟨h.chain, isChain_element ho.chain, fun _ _ m hm => ?_⟩
    cases hm
    exact beside_element.2

lemma Grown.close {name : String} {waiting : List Open} (h : r.Grown source)
    (hw : ∀ o ∈ waiting, o.Formed source)
    (hany : (waiting.any fun o => Token.sameIgnoringCase o.name name) = true) :
    (close name waiting r).Grown source ∧ (close name waiting r).Rests ∧
      (close name waiting r).Started := by
  induction waiting generalizing r with
  | nil => cases hany
  | cons o outer ih =>
    rw [List.forall_mem_cons] at hw
    rw [Reading.close]
    split
    · refine ⟨⟨?_, isChain_element hw.1.chain, hw.2⟩, ?_, .inl (List.cons_ne_nil _ _)⟩
      · refine List.forall_mem_cons.mpr ⟨?_, hw.1.before⟩
        exact .element _ _ _ _ hw.1.name hw.1.spelled hw.1.attributes (by simp)
          (List.isChain_reverse.mpr h.chain) fun m hm => h.formed m (List.mem_reverse.mp hm)
      · rintro _ ⟨⟩
        exact ⟨_, _, _, _, rfl⟩
    · next hne =>
      rw [List.any_cons, (Bool.not_eq_true _).mp hne, Bool.false_or] at hany
      exact ih (h.giveUp hw.1 hw.2) hw.2 hany

lemma Grown.addText (h : r.Grown source) (hrests : r.Rests) (hwithin : cs <:+: source)
    (hs : Untagged cs) : (r.addText cs).Grown source := by
  obtain ⟨hformed, hchain⟩ := formed_ofText hwithin hs
  refine ⟨fun m hm => ?_, ?_, h.waiting⟩
  · rcases List.mem_append.mp hm with hm | hm
    · exact hformed m (List.mem_reverse.mp hm)
    · exact h.formed m hm
  · refine List.isChain_append.mpr ⟨List.isChain_reverse.mpr hchain, h.chain,
      fun m _ m' hm' => ?_⟩
    obtain ⟨name, attributes, closed, children, rfl⟩ := hrests m' hm'
    exact beside_element.2

lemma Grown.addTag (h : r.Grown source) (ht : IsInside t.inner) (hwithin : t.inner <:+: source)
    (hunmatched : (r.addTag t).unmatched = #[]) :
    (r.addTag t).Grown source ∧ (r.addTag t).Rests ∧ (r.addTag t).Started := by
  have hattributes : ∀ a ∈ t.attributes, IsAttribute a ∧ a.2.toList <:+: source :=
    fun a ha => (isAttribute_attributes ht a ha).imp_right fun hvalue => hvalue.trans hwithin
  unfold Reading.addTag at hunmatched ⊢
  split
  · next hend =>
    rw [if_pos hend] at hunmatched
    split
    · next hany => exact h.close h.waiting hany
    · next hnone =>
      rw [if_neg hnone] at hunmatched
      simp at hunmatched
  split
  · refine ⟨⟨List.forall_mem_cons.mpr ⟨?_, h.formed⟩, isChain_element h.chain, h.waiting⟩, ?_,
      .inl (List.cons_ne_nil _ _)⟩
    · exact .element _ _ _ _ (isElementName_name ht) ((name_within t).trans hwithin) hattributes
        (fun _ => rfl) .nil (by simp)
    · rintro _ ⟨⟩
      exact ⟨_, _, _, _, rfl⟩
  · refine ⟨⟨by simp, .nil, List.forall_mem_cons.mpr ⟨?_, h.waiting⟩⟩, by simp [Rests],
      .inr (List.cons_ne_nil _ _)⟩
    exact ⟨isElementName_name ht, (name_within t).trans hwithin, hattributes, h.formed, h.chain⟩

lemma unmatched_close (name : String) (waiting : List Open) (r : Reading) :
    (close name waiting r).unmatched = r.unmatched := by
  induction waiting generalizing r with
  | nil => rfl
  | cons o outer ih =>
    rw [close]
    split
    · rfl
    · exact ih _

lemma unmatched_addTag (h : (r.addTag t).unmatched = #[]) : r.unmatched = #[] := by
  unfold Reading.addTag at h
  split at h
  · split at h
    · rwa [unmatched_close] at h
    · simp at h
  · split at h <;> exact h

lemma started_addText (h : cs ≠ []) : (r.addText cs).Started := by
  refine .inl ?_
  have hne : ofText cs ≠ [] := by
    obtain hall | ⟨line, d, more, rfl, hall, hd⟩ := Text.split_first (· != '\n') cs
    · have hof := ofText_line h (fun hmem => absurd (hall _ hmem) (by decide)) [] (by simp)
      rw [List.append_nil] at hof
      simp [hof]
    · obtain rfl : d = '\n' := by simpa using hd
      by_cases hne : line = []
      · simp [hne]
      · simp [ofText_line hne (fun hmem => absurd (hall _ hmem) (by decide)) ('\n' :: more) (by simp)]
  simp [addText, hne]

lemma grown_go (hr : r.unmatched = #[] → r.Grown source ∧ r.Rests ∧ (cs ≠ [] ∨ r.Started))
    (hsuffix : cs <:+ source) (hunmatched : (r.go cs).unmatched = #[]) :
    (r.go cs).Grown source ∧ (r.go cs).Started := by
  induction hn : cs.length using Nat.strong_induction_on generalizing r cs with
  | _ n ih =>
    subst hn
    rw [go_eq] at hunmatched ⊢
    cases hfind : findTag #[] cs with
    | none =>
      simp only [hfind] at hunmatched ⊢
      obtain ⟨hgrown, hrests, hstarted⟩ := hr hunmatched
      refine ⟨hgrown.addText hrests hsuffix.isInfix (untagged_of_findTag hfind), ?_⟩
      by_cases hne : cs = []
      · rw [hne, addText_nil]
        exact hstarted.resolve_left (not_not_intro hne)
      · exact started_addText hne
    | some found =>
      obtain ⟨before, t, after⟩ := found
      simp only [hfind] at hunmatched ⊢
      obtain ⟨more, rfl, htag, hbefore⟩ := eq_of_findTag hfind
      obtain ⟨hinside, hmore⟩ := eq_of_tag? htag
      have hinner : t.inner <:+: source := by
        refine List.IsInfix.trans ?_ ((List.suffix_append before more).trans hsuffix).isInfix
        exact ⟨'<' :: if t.isEnd then ['/'] else [], '>' :: after, by simp [hmore]⟩
      have hafter : after <:+ before ++ more :=
        ⟨before ++ '<' :: ((if t.isEnd then ['/'] else []) ++ t.inner ++ ['>']), by simp [hmore]⟩
      have hstep : ((r.addText before).addTag t).unmatched = #[] →
          ((r.addText before).addTag t).Grown source ∧ ((r.addText before).addTag t).Rests ∧
            ((r.addText before).addTag t).Started := by
        intro hnone
        obtain ⟨hgrown, hrests, -⟩ := hr (unmatched_addTag (r := r.addText before) hnone)
        exact (hgrown.addText hrests ((List.prefix_append before more).isInfix.trans hsuffix.isInfix)
          (untagged_before hbefore)).addTag hinside hinner hnone
      have hlength : after.length < (before ++ more).length := by
        have := length_after_lt htag
        rw [List.length_append]
        omega
      exact ih after.length hlength
        (fun hnone => ⟨(hstep hnone).1, (hstep hnone).2.1, .inr (hstep hnone).2.2⟩)
        (hafter.trans hsuffix) hunmatched rfl

lemma grown_finish (waiting : List Open) (h : r.Grown source) (hw : ∀ o ∈ waiting, o.Formed source)
    (hstarted : r.pieces ≠ [] ∨ waiting ≠ []) :
    (finish waiting r).Grown source ∧ (finish waiting r).pieces ≠ [] := by
  induction waiting generalizing r with
  | nil => exact ⟨h, hstarted.resolve_right (not_not_intro rfl)⟩
  | cons o outer ih =>
    rw [List.forall_mem_cons] at hw
    exact ih (h.giveUp hw.1 hw.2) hw.2 (.inl (by simp [giveUp]))

end Reading

theorem formed_read {pieces : List Markup} (hne : source ≠ []) (h : read source = (pieces, [])) :
    (∀ m ∈ pieces, Formed source m) ∧ pieces.IsChain (Beside source) ∧ pieces ≠ [] := by
  unfold read at h
  simp only [Prod.mk.injEq, Array.toList_eq_nil_iff] at h
  obtain ⟨hpieces, hunmatched⟩ := h
  rw [(Reading.finish_eq _).2] at hunmatched
  obtain ⟨hgrown, hstarted⟩ := Reading.grown_go (r := {})
    (fun _ => ⟨⟨by simp, .nil, by simp⟩, by simp [Reading.Rests], .inl hne⟩) List.suffix_rfl
    hunmatched
  obtain ⟨⟨hformed, hchain, -⟩, hsome⟩ :=
    Reading.grown_finish (Reading.go {} source).waiting hgrown hgrown.waiting hstarted
  have heq : (Reading.finish (Reading.go {} source).waiting (Reading.go {} source)).pieces.reverse =
      pieces := hpieces
  rw [← heq]
  exact ⟨fun m hm => hformed m (List.mem_reverse.mp hm), List.isChain_reverse.mpr hchain,
    by simpa using hsome⟩

end Stagecraft.Markup
