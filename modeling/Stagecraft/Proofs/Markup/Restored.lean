import Stagecraft.Proofs.Markup.Formed
import Stagecraft.Proofs.Markup.Tagged

namespace Stagecraft.Markup

section Plain

variable {r : Reading} {t : Tag} {pieces ms : List Markup} {waiting : List Open} {m : Markup}

lemma allPlain_iff : AllPlain ms ↔ ∀ m ∈ ms, IsPlain m := by
  refine ⟨fun h m hm => h.mem hm, fun h => ?_⟩
  induction ms with
  | nil => trivial
  | cons m ms ih =>
    rw [List.forall_mem_cons] at h
    exact ⟨h.1, ih h.2⟩

structure Tag.IsPlain (t : Tag) : Prop where
  opens : t.isWhole = false
  quotes : ∀ a ∈ t.attributes, '"' ∉ a.2.toList

structure IsFirm (m : Markup) : Prop where
  plain : IsPlain m
  closed : ∀ name, isOpenNamed name m = false

structure Reading.IsFirm (r : Reading) : Prop where
  pieces : ∀ m ∈ r.pieces, Markup.IsFirm m
  before : ∀ o ∈ r.waiting, ∀ m ∈ o.before, Markup.IsFirm m
  quotes : ∀ o ∈ r.waiting, ∀ a ∈ o.attributes, '"' ∉ a.2.toList

lemma isFirm_ofText (cs : List Char) : ∀ m ∈ ofText cs, IsFirm m := by
  intro m hm
  have hline {line : List Char} (h : m ∈ if line.isEmpty then [] else [text (.ofList line)]) :
      IsFirm m := by
    split at h
    · cases h
    · obtain rfl := List.mem_singleton.mp h
      exact ⟨trivial, fun _ => rfl⟩
  unfold ofText at hm
  split at hm
  · cases hm
  · rcases List.mem_append.mp hm with hm | hm
    · exact hline hm
    · obtain ⟨line, -, hm⟩ := List.mem_flatMap.mp hm
      rcases List.mem_cons.mp hm with rfl | hm
      · exact ⟨trivial, fun _ => rfl⟩
      · exact hline hm

lemma mem_settle : m ∈ Reading.settle pieces waiting ↔
    m ∈ pieces ∨ ∃ o ∈ waiting, m = element o.name o.attributes false [] ∨ m ∈ o.before := by
  induction waiting generalizing pieces with
  | nil => simp [Reading.settle]
  | cons o outer ih =>
    rw [Reading.settle, ih, List.mem_append, List.mem_cons]
    simp [or_assoc]

lemma isPlain_open {o : Open} (h : ∀ a ∈ o.attributes, '"' ∉ a.2.toList) :
    IsPlain (element o.name o.attributes false []) :=
  ⟨h, nofun, trivial⟩

lemma Reading.IsFirm.settle (h : r.IsFirm) : ∀ m ∈ settle r.pieces r.waiting, IsPlain m := by
  intro m hm
  rcases mem_settle.mp hm with hm | ⟨o, ho, rfl | hm⟩
  · exact (h.pieces m hm).plain
  · exact isPlain_open (h.quotes o ho)
  · exact (h.before o ho m hm).plain

lemma Reading.IsFirm.addText (h : r.IsFirm) (cs : List Char) : (r.addText cs).IsFirm := by
  refine ⟨fun m hm => ?_, h.before, h.quotes⟩
  rcases List.mem_append.mp hm with hm | hm
  · exact isFirm_ofText cs m (List.mem_reverse.mp hm)
  · exact h.pieces m hm

lemma Reading.IsFirm.close (h : r.IsFirm) {inside outer : List Open} {o : Open}
    (hwaiting : r.waiting = inside ++ o :: outer) {name : String}
    (hinside : ∀ v ∈ inside, Token.sameIgnoringCase v.name name = false)
    (ho : Token.sameIgnoringCase o.name name = true) : (close name r.waiting r).IsFirm := by
  obtain ⟨hpieces, hbefore, hquotes⟩ := h
  rw [hwaiting] at hbefore hquotes ⊢
  simp only [List.forall_mem_append, List.forall_mem_cons] at hbefore hquotes
  have hother : ∀ v ∈ inside, Token.sameIgnoringCase v.name o.name = false := by
    intro v hv
    have := hinside v hv
    rw [Token.sameIgnoringCase, beq_iff_eq] at ho
    rwa [Token.sameIgnoringCase, ← ho] at this
  rw [close_eq hinside ho]
  refine ⟨List.forall_mem_cons.mpr
    ⟨⟨⟨hquotes.2.1, fun _ m hm => ?_, ?_⟩, fun _ => rfl⟩, hbefore.2.1⟩, hbefore.2.2, hquotes.2.2⟩
  · rcases mem_settle.mp (List.mem_reverse.mp hm) with hm | ⟨v, hv, rfl | hm⟩
    · exact (hpieces m hm).closed o.name
    · exact hother v hv
    · exact (hbefore.1 v hv m hm).closed o.name
  · refine allPlain_iff.mpr fun m hm => ?_
    rcases mem_settle.mp (List.mem_reverse.mp hm) with hm | ⟨v, hv, rfl | hm⟩
    · exact (hpieces m hm).plain
    · exact isPlain_open (hquotes.1 v hv)
    · exact (hbefore.1 v hv m hm).plain

lemma Reading.IsFirm.addTag (h : r.IsFirm) (ht : t.isEnd = false → t.IsPlain) :
    (r.addTag t).IsFirm := by
  rw [Reading.addTag]
  cases hend : t.isEnd with
  | false =>
    rw [if_neg (by simp), if_neg (by simp [(ht hend).opens])]
    exact ⟨by simp, List.forall_mem_cons.mpr ⟨h.pieces, h.before⟩,
      List.forall_mem_cons.mpr ⟨(ht hend).quotes, h.quotes⟩⟩
  | true =>
    rw [if_pos rfl]
    split
    · next hany =>
      obtain ⟨o, hfind⟩ :=
        Option.isSome_iff_exists.mp (List.find?_isSome.mpr (List.any_eq_true.mp hany))
      obtain ⟨ho, inside, outer, hwaiting, hinside⟩ := List.find?_eq_some_iff_append.mp hfind
      exact h.close hwaiting (fun v hv => by simpa using hinside v hv) ho
    · exact ⟨h.pieces, h.before, h.quotes⟩

lemma Reading.IsFirm.addParts {parts : List (List Char × Tag)} (h : r.IsFirm)
    (hparts : ∀ part ∈ parts, part.2.isEnd = false → part.2.IsPlain) :
    (parts.foldl Reading.addPart r).IsFirm := by
  induction parts generalizing r with
  | nil => exact h
  | cons part parts ih =>
    rw [List.forall_mem_cons] at hparts
    exact ih ((h.addText part.1).addTag hparts.1) hparts.2

end Plain

/-- What is read from a text without unmatched end tags, tags of whole elements and double quotes in
values is read again from its written form. -/
theorem read_written {cs last : List Char} {parts : List (List Char × Tag)} (span span' : Span)
    (hcs : Tagged cs parts last) (hparts : ∀ part ∈ parts, part.2.isEnd = false → part.2.IsPlain)
    (hmatched : (readAt span cs).2 = []) :
    readAt span' (renderAll (readAt span cs).1).toList = ((readAt span cs).1, []) := by
  obtain ⟨pieces, hread⟩ : ∃ pieces, read cs = (pieces, []) :=
    ⟨(read cs).1, Prod.ext rfl (List.map_eq_nil_iff.mp hmatched)⟩
  have hpieces : (readAt span cs).1 = pieces := by rw [readAt, hread]
  have hplain : AllPlain pieces := by
    have hfirm : Reading.IsFirm {} := ⟨by simp, by simp, by simp⟩
    refine allPlain_iff.mpr fun m hm => ?_
    rw [hcs.read_eq, Prod.mk.injEq] at hread
    rw [← hread.1, List.mem_reverse] at hm
    exact ((hfirm.addParts hparts).addText last).settle m hm
  rw [hpieces]
  by_cases hne : cs = []
  · subst hne
    cases hread
    rfl
  · obtain ⟨hformed, hchain, -⟩ := formed_read hne hread
    rw [readAt, read_renderAll hformed hchain hplain]
    rfl

section Font

def fontText : List Char :=
  "<FONT size=20>Hi <i>there<k>\n</font>!".toList

def fontParts : List (List Char × Tag) :=
  [([], { isEnd := false, inner := "FONT size=20".toList }),
    ("Hi ".toList, { isEnd := false, inner := "i".toList }),
    ("there".toList, { isEnd := false, inner := "k".toList }),
    ("\n".toList, { isEnd := true, inner := "font".toList })]

lemma tagged_fontText : Tagged fontText fontParts ['!'] := by
  apply Tagged.of_findTag "Hi <i>there<k>\n</font>!".toList (by cbv)
  apply Tagged.of_findTag "there<k>\n</font>!".toList (by cbv)
  apply Tagged.of_findTag "\n</font>!".toList (by cbv)
  apply Tagged.of_findTag ['!'] (by cbv)
  exact .of_findTag_eq_none (by cbv)

lemma isPlain_fontParts : ∀ part ∈ fontParts, part.2.isEnd = false → part.2.IsPlain := by
  have hopens : ∀ part ∈ fontParts, part.2.isWhole = false := by decide +kernel
  have hquotes : ∀ part ∈ fontParts, ∀ a ∈ part.2.attributes, '"' ∉ a.2.toList := by decide +kernel
  exact fun part hpart _ => ⟨hopens part hpart, hquotes part hpart⟩

theorem read_written_font : Tagged fontText fontParts ['!'] ∧
    (∀ part ∈ fontParts, part.2.isEnd = false → part.2.IsPlain) ∧
    (readAt .unplaced fontText).2 = [] ∧
    readAt .unplaced (renderAll (readAt .unplaced fontText).1).toList =
      ((readAt .unplaced fontText).1, []) := by
  have hmatched : (readAt .unplaced fontText).2 = [] := by decide +kernel
  exact ⟨tagged_fontText, isPlain_fontParts, hmatched,
    read_written .unplaced .unplaced tagged_fontText isPlain_fontParts hmatched⟩

end Font

end Stagecraft.Markup
