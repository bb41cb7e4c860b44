import Stagecraft.Proofs.Markup.Tags

/-!
Pieces that can be read from a text are read again from their written form, if no attribute has a
double quote in its value and no element is closed by the end tag of another one.
-/

namespace Stagecraft.Markup

def Untagged (cs : List Char) : Prop :=
  ∀ ⦃t⦄, t <:+ cs → tag? t = none

/-- What stands side by side in what is read from a text: not two texts, and a line break only next
to text that it is next to in the text itself. -/
def Beside (cs : List Char) : Markup → Markup → Prop
  | text _, text _ => False
  | text s, lineBreak => s.toList ++ ['\n'] <:+: cs
  | lineBreak, text s => '\n' :: s.toList <:+: cs
  | _, _ => True

inductive Formed (cs : List Char) : Markup → Prop
  | text (s : String) : s.toList ≠ [] → '\n' ∉ s.toList → Untagged s.toList → s.toList <:+: cs →
    Formed cs (.text s)
  | lineBreak : Formed cs .lineBreak
  | element (name : String) (attributes : List (String × String)) (closed : Bool)
    (children : List Markup) : IsElementName name.toList → name.toList <:+: cs →
    (∀ a ∈ attributes, IsAttribute a ∧ a.2.toList <:+: cs) → (closed = false → children = []) →
    children.IsChain (Beside cs) → (∀ m ∈ children, Formed cs m) →
    Formed cs (.element name attributes closed children)

def isOpenNamed (name : String) : Markup → Bool
  | element other _ false _ => Token.sameIgnoringCase other name
  | _ => false

mutual

/-- Markup whose written form says what it is: no attribute has a double quote in its value, and no
element is closed by the end tag of the one around it. -/
def IsPlain : Markup → Prop
  | text _ | lineBreak => True
  | element name attributes closed children => (∀ a ∈ attributes, '"' ∉ a.2.toList) ∧
    (closed = true → ∀ m ∈ children, isOpenNamed name m = false) ∧ AllPlain children

def AllPlain : List Markup → Prop
  | [] => True
  | m :: rest => IsPlain m ∧ AllPlain rest

end

lemma AllPlain.mem {ms : List Markup} (h : AllPlain ms) {m : Markup} (hm : m ∈ ms) : IsPlain m := by
  induction ms with
  | nil => cases hm
  | cons m' ms ih =>
    rcases List.mem_cons.mp hm with rfl | hm
    · exact h.1
    · exact ih h.2 hm

section Lines

variable {cs line rest : List Char}

lemma split_line (hline : '\n' ∉ line) (hrest : ∀ c ∈ rest.head?, c = '\n') :
    Text.split '\n' (line ++ rest) = line :: (Text.split '\n' rest).tail := by
  have hfirst : Text.split '\n' rest = [] :: (Text.split '\n' rest).tail := by
    cases rest with
    | nil => rfl
    | cons c rest =>
      obtain rfl := hrest c rfl
      rw [Text.split_sep, List.tail_cons]
  rw [Text.split_append hline hfirst, List.append_nil]

@[simp] lemma ofText_nil : ofText [] = [] := rfl

@[simp] lemma ofText_break : ofText ('\n' :: cs) = lineBreak :: ofText cs := by
  obtain ⟨first, lines, hsplit⟩ := Text.exists_split '\n' cs
  simp [ofText, Text.split_sep, hsplit]

lemma ofText_line (hne : line ≠ []) (hline : '\n' ∉ line) (rest : List Char)
    (hrest : ∀ c ∈ rest.head?, c = '\n') : ofText (line ++ rest) = text (.ofList line) :: ofText rest := by
  cases rest with
  | nil =>
    unfold ofText
    rw [split_line hline hrest]
    simp [hne, Text.split]
  | cons c rest =>
    obtain rfl := hrest c rfl
    obtain ⟨first, lines, hsplit⟩ := Text.exists_split '\n' rest
    simp [ofText, split_line hline hrest, Text.split_sep, hsplit, hne]

end Lines

section Find

variable {cs s rest tail before after : List Char} {t : Tag}

lemma findTag_append (found : Array Char) (cs : List Char) :
    findTag found cs = (findTag #[] cs).map fun r => (found.toList ++ r.1, r.2) := by
  induction cs generalizing found with
  | nil => rfl
  | cons c cs ih =>
    rw [findTag, findTag]
    split
    · simp
    · rw [ih, ih (Array.push #[] c), Option.map_map]
      congr 1
      funext r
      simp

lemma findTag_tag (h : tag? cs = some (t, after)) : findTag #[] cs = some ([], t, after) := by
  cases cs with
  | nil => cases h
  | cons c cs =>
    rw [findTag, h]

lemma findTag_cons {c : Char} (h : tag? (c :: cs) = none) :
    findTag #[] (c :: cs) = (findTag #[] cs).map fun r => (c :: r.1, r.2) := by
  rw [findTag, h]
  simp only
  rw [findTag_append]
  rfl

lemma eq_of_findTag (h : findTag #[] cs = some (before, t, after)) :
    ∃ more, cs = before ++ more ∧ tag? more = some (t, after) ∧
      ∀ ⦃u⦄, u ≠ [] → u <:+ before → tag? (u ++ more) = none := by
  induction cs generalizing before with
  | nil => cases h
  | cons c cs ih =>
    cases htag : tag? (c :: cs) with
    | some found =>
      rw [findTag_tag htag, Option.some_inj] at h
      cases h
      refine ⟨c :: cs, rfl, htag, fun u hne hu => ?_⟩
      exact absurd (List.suffix_nil.mp hu) hne
    | none =>
      rw [findTag_cons htag, Option.map_eq_some_iff] at h
      obtain ⟨⟨before', t', after'⟩, hfind, heq⟩ := h
      cases heq
      obtain ⟨more, rfl, hmore, hbefore⟩ := ih hfind
      refine ⟨more, rfl, hmore, fun u hne hu => ?_⟩
      rcases List.suffix_cons_iff.mp hu with rfl | hu
      · exact htag
      · exact hbefore hne hu

lemma untagged_of_findTag (h : findTag #[] cs = none) : Untagged cs := by
  induction cs with
  | nil =>
    intro u hu
    rw [List.suffix_nil.mp hu]
    rfl
  | cons c cs ih =>
    cases htag : tag? (c :: cs) with
    | some found =>
      rw [findTag_tag htag] at h
      cases h
    | none =>
      rw [findTag_cons htag, Option.map_eq_none_iff] at h
      intro u hu
      rcases List.suffix_cons_iff.mp hu with rfl | hu
      · exact htag
      · exact ih h hu

lemma length_after_lt (h : tag? cs = some (t, after)) : after.length < cs.length := by
  rw [(eq_of_tag? h).2]
  simp only [List.length_cons, List.length_append]
  omega

def Stops (cs : List Char) : Prop :=
  ∀ c ∈ cs.head?, c = '\n' ∨ ∃ r, tag? cs = some r

lemma stops_nil : Stops [] := by
  simp [Stops]

lemma stops_break : Stops ('\n' :: cs) := by
  simp [Stops]

lemma stops_tag {r : Tag × List Char} (h : tag? cs = some r) : Stops cs :=
  fun _ _ => .inr ⟨r, h⟩

lemma Stops.head (h : Stops cs) : ∀ c ∈ cs.head?, isInner c = false := by
  intro c hc
  rcases h c hc with rfl | ⟨r, hr⟩
  · rfl
  · rw [(eq_of_tag? hr).2] at hc
    cases hc
    rfl

lemma tag?_before (hs : tag? s = none) (hne : s ≠ []) (hstop : Stops tail) :
    tag? (s ++ tail) = none := by
  by_contra hsome
  obtain ⟨⟨t, after⟩, ht⟩ := Option.ne_none_iff_exists'.mp hsome
  obtain ⟨hinside, heq⟩ := eq_of_tag? ht
  obtain ⟨c, s, rfl⟩ := List.exists_cons_of_ne_nil hne
  rw [List.cons_append, List.cons.injEq] at heq
  obtain ⟨rfl, heq⟩ := heq
  have hinner : ∀ c ∈ (if t.isEnd then ['/'] else []) ++ t.inner, isInner c = true := by
    intro c hc
    rcases List.mem_append.mp hc with hc | hc
    · split at hc <;> simp at hc
      subst hc
      rfl
    · exact hinside.inner c hc
  generalize hopen : (if t.isEnd then ['/'] else []) ++ t.inner = opening at hinner heq
  -- what follows `s` neither goes on inside a tag nor ends one, so the tag ends in `s`
  obtain ⟨more, rfl⟩ : ∃ more, s = opening ++ '>' :: more := by
    rcases List.append_eq_append_iff.mp heq with ⟨more, hmore, htail⟩ | ⟨more, hmore, htail⟩
    · cases more with
      | nil =>
        rw [List.nil_append] at htail
        rcases hstop '>' (by rw [htail]; rfl) with h | ⟨r, hr⟩
        · cases h
        · rw [htail] at hr
          cases hr
      | cons c more =>
        have hc := hstop.head c (by simp [htail])
        rw [hinner c (by simp [hmore])] at hc
        cases hc
    · cases more with
      | nil =>
        rw [List.nil_append] at htail
        rcases hstop '>' (by rw [← htail]; rfl) with h | ⟨r, hr⟩
        · cases h
        · rw [← htail] at hr
          cases hr
      | cons c more =>
        obtain ⟨rfl, -⟩ := List.cons.inj htail
        exact ⟨more, hmore⟩
  have htag : tag? ('<' :: (opening ++ '>' :: more)) ≠ none := by
    rw [← hopen]
    cases hend : t.isEnd
    · simp [tag?_start hinside _]
    · simp [tag?_end hinside _]
  exact htag hs

lemma findTag_untagged (hs : Untagged s) (hstop : Stops tail) :
    findTag #[] (s ++ tail) = (findTag #[] tail).map fun r => (s ++ r.1, r.2) := by
  induction s with
  | nil => cases h : findTag #[] tail <;> simp [h]
  | cons c s ih =>
    have hc := tag?_before (hs List.suffix_rfl) (List.cons_ne_nil c s) hstop
    rw [List.cons_append] at hc ⊢
    rw [findTag_cons hc, ih fun u hu => hs (hu.trans (List.suffix_cons c s)), Option.map_map]
    congr 1

lemma head_of_findTag (hstop : Stops cs) (h : findTag #[] cs = some (before, t, after)) :
    ∀ c ∈ before.head?, c = '\n' := by
  intro c hc
  obtain ⟨more, rfl, -⟩ := eq_of_findTag h
  obtain ⟨before, rfl⟩ := List.head?_eq_some_iff.mp (Option.mem_def.mp hc)
  rcases hstop c (by simp) with hc | ⟨r, hr⟩
  · exact hc
  · rw [findTag_tag hr, Option.some_inj] at h
    cases h

lemma head_of_untagged (hstop : Stops cs) (h : findTag #[] cs = none) :
    ∀ c ∈ cs.head?, c = '\n' := by
  intro c hc
  rcases hstop c hc with hc | ⟨r, hr⟩
  · exact hc
  · rw [findTag_tag hr] at h
    cases h

end Find

namespace Reading

variable {r : Reading} {cs s tail after : List Char} {t : Tag}

lemma run_of_fuel {fuel : Nat} (h : cs.length ≤ fuel) : run fuel r cs = run cs.length r cs := by
  induction fuel using Nat.strong_induction_on generalizing r cs with
  | _ fuel ih =>
    cases fuel with
    | zero => rw [Nat.le_zero.mp h]
    | succ fuel =>
      cases cs with
      | nil => rfl
      | cons c cs =>
        rw [List.length_cons, run, run]
        split
        · next before t after hfind =>
          obtain ⟨more, heq, htag, -⟩ := eq_of_findTag hfind
          have hlength : after.length ≤ cs.length := by
            have hlt := length_after_lt htag
            have hmore := congrArg List.length heq
            rw [List.length_append, List.length_cons] at hmore
            omega
          rw [List.length_cons] at h
          rw [ih fuel (by omega) (by omega), ih cs.length (by omega) hlength]
        · rfl

def go (r : Reading) (cs : List Char) : Reading :=
  run cs.length r cs

lemma go_eq (r : Reading) (cs : List Char) : r.go cs = match findTag #[] cs with
    | some (before, t, after) => ((r.addText before).addTag t).go after
    | none => r.addText cs := by
  cases cs with
  | nil => rfl
  | cons c cs =>
    rw [go, List.length_cons, run]
    cases hfind : findTag #[] (c :: cs) with
    | none => rfl
    | some found =>
      obtain ⟨before, t, after⟩ := found
      obtain ⟨more, heq, htag, -⟩ := eq_of_findTag hfind
      have hlt := length_after_lt htag
      have hmore := congrArg List.length heq
      rw [List.length_append, List.length_cons] at hmore
      exact run_of_fuel (by omega)

lemma addText_nil : r.addText [] = r := rfl

lemma go_tag (h : tag? cs = some (t, after)) : r.go cs = (r.addTag t).go after := by
  rw [go_eq, findTag_tag h]
  rfl

lemma go_break : r.go ('\n' :: cs) = go { r with pieces := lineBreak :: r.pieces } cs := by
  rw [go_eq, findTag_cons rfl, go_eq]
  cases findTag #[] cs <;> simp [addText]

lemma go_text (hne : s ≠ []) (hline : '\n' ∉ s) (hs : Untagged s) (hstop : Stops tail) :
    r.go (s ++ tail) = go { r with pieces := text (.ofList s) :: r.pieces } tail := by
  rw [go_eq, findTag_untagged hs hstop, go_eq]
  cases hfind : findTag #[] tail with
  | none => simp [addText, ofText_line hne hline _ (head_of_untagged hstop hfind)]
  | some found =>
    obtain ⟨before, t, after⟩ := found
    simp [addText, ofText_line hne hline _ (head_of_findTag hstop hfind)]

def settle (pieces : List Markup) : List Open → List Markup
  | [] => pieces
  | o :: outer => settle (pieces ++ element o.name o.attributes false [] :: o.before) outer

lemma settle_append (ms pieces : List Markup) (waiting : List Open) :
    settle (ms ++ pieces) waiting = ms ++ settle pieces waiting := by
  induction waiting generalizing pieces with
  | nil => rfl
  | cons o outer ih => rw [settle, settle, List.append_assoc, ih]

lemma close_eq {name : String} {inside outer : List Open} {o : Open}
    (hinside : ∀ v ∈ inside, Token.sameIgnoringCase v.name name = false)
    (ho : Token.sameIgnoringCase o.name name = true) :
    close name (inside ++ o :: outer) r = { r with
      pieces := element o.name o.attributes true (settle r.pieces inside).reverse :: o.before
      waiting := outer } := by
  induction inside generalizing r with
  | nil => simp [close, ho, settle]
  | cons v inside ih =>
    rw [List.forall_mem_cons] at hinside
    rw [List.cons_append, close, if_neg (by simp [hinside.1]), ih hinside.2]
    rfl

lemma finish_eq (waiting : List Open) : (finish waiting r).pieces = settle r.pieces waiting ∧
    (finish waiting r).unmatched = r.unmatched := by
  induction waiting generalizing r with
  | nil => exact ⟨rfl, rfl⟩
  | cons o outer ih => exact ih

def take (r : Reading) : Markup → Reading
  | element name attributes false _ =>
    { r with pieces := [], waiting := { name, attributes, before := r.pieces } :: r.waiting }
  | m => { r with pieces := m :: r.pieces }

lemma take_all (ms : List Markup) (r : Reading)
    (hms : ∀ name attributes children, element name attributes false children ∈ ms →
      children = []) :
    ∃ waiting, (ms.foldl take r).waiting = waiting ++ r.waiting ∧
      (ms.foldl take r).unmatched = r.unmatched ∧
      settle (ms.foldl take r).pieces waiting = ms.reverse ++ r.pieces ∧
      ∀ v ∈ waiting, element v.name v.attributes false [] ∈ ms := by
  induction ms using List.reverseRecOn with
  | nil => exact ⟨[], rfl, rfl, rfl, by simp⟩
  | append_singleton ms m ih =>
    obtain ⟨waiting, hwaiting, hunmatched, hpieces, hmem⟩ :=
      ih fun name attributes children h => hms name attributes children (by simp [h])
    have hold : ∀ v ∈ waiting, element v.name v.attributes false [] ∈ ms ++ [m] :=
      fun v hv => List.mem_append_left _ (hmem v hv)
    rw [List.foldl_append, List.foldl_cons, List.foldl_nil]
    generalize ms.foldl take r = r' at hwaiting hunmatched hpieces
    have hpush : settle (m :: r'.pieces) waiting = (ms ++ [m]).reverse ++ r.pieces := by
      rw [← List.singleton_append, settle_append, hpieces]
      simp
    cases m with
    | text s => exact ⟨waiting, hwaiting, hunmatched, hpush, hold⟩
    | lineBreak => exact ⟨waiting, hwaiting, hunmatched, hpush, hold⟩
    | element name attributes closed children =>
      cases closed with
      | true => exact ⟨waiting, hwaiting, hunmatched, hpush, hold⟩
      | false =>
        obtain rfl := hms name attributes children (by simp)
        refine ⟨{ name, attributes, before := r'.pieces } :: waiting, by simp [take, hwaiting],
          hunmatched, hpush, fun v hv => ?_⟩
        rcases List.mem_cons.mp hv with rfl | hv
        · simp
        · exact hold v hv

end Reading

section Render

variable {source : List Char}

lemma toList_renderAll (ms : List Markup) :
    (renderAll ms).toList = ms.flatMap fun m => (render m).toList := by
  induction ms with
  | nil => rfl
  | cons m ms ih => rw [renderAll, String.toList_append, ih, List.flatMap_cons]

lemma toList_render (name : String) (attributes : List (String × String)) (closed : Bool)
    (children : List Markup) : (render (element name attributes closed children)).toList =
      '<' :: (startChars name attributes ++ '>' :: if closed then
        (renderAll children).toList ++ '<' :: '/' :: (name.toList ++ ['>']) else []) := by
  have hstart := toList_start name attributes
  unfold render
  dsimp only
  generalize attributes.foldl _ _ ++ ">" = start at hstart ⊢
  cases closed
  · simp [hstart]
  · simp [hstart]

def isText : Markup → Bool
  | text _ => true
  | _ => false

lemma isText_beside {m m' : Markup} (h : Beside source m m') (hm : isText m = true) :
    isText m' = false := by
  cases m <;> cases m' <;> simp_all [isText, Beside]

def Rereads (m : Markup) : Prop :=
  ∀ (r : Reading) (tail : List Char), (isText m = true → Stops tail) →
    r.go ((render m).toList ++ tail) = (r.take m).go tail

lemma stops_render {m : Markup} (h : Formed source m) (hm : isText m = false) (tail : List Char)
    : Stops ((render m).toList ++ tail) := by
  cases h with
  | text => cases hm
  | lineBreak => exact stops_break
  | element name attributes closed children hname _ hattributes =>
    rw [toList_render, List.cons_append, List.append_assoc, List.cons_append]
    exact stops_tag (tag?_start (isInside_start hname fun a ha => (hattributes a ha).1) _)

lemma rereads_all {ms : List Markup} (hread : ∀ m ∈ ms, Rereads m)
    (hformed : ∀ m ∈ ms, Formed source m) (hchain : ms.IsChain (Beside source)) (r : Reading)
    {tail : List Char} (htail : Stops tail) :
    r.go ((renderAll ms).toList ++ tail) = (ms.foldl Reading.take r).go tail := by
  induction ms generalizing r with
  | nil => rfl
  | cons m ms ih =>
    rw [List.forall_mem_cons] at hread hformed
    rw [List.isChain_cons] at hchain
    rw [toList_renderAll, List.flatMap_cons, List.append_assoc, ← toList_renderAll,
      hread.1, ih hread.2 hformed.2 hchain.2]
    · rfl
    · intro hm
      cases ms with
      | nil => exact htail
      | cons m' ms =>
        rw [renderAll, String.toList_append, List.append_assoc]
        exact stops_render (hformed.2 m' List.mem_cons_self) (isText_beside (hchain.1 m' rfl) hm) _

theorem Formed.rereads {m : Markup} (h : Formed source m) (hplain : IsPlain m) : Rereads m := by
  induction h with
  | text s hne hline hs =>
    intro r tail hstop
    rw [render, Reading.go_text hne hline hs (hstop rfl), String.ofList_toList]
    rfl
  | lineBreak => exact fun r tail _ => Reading.go_break
  | element name attributes closed children hname _ hattributes hclosed hchain hformed ih =>
    intro r tail _
    obtain ⟨hquote, hnames, hchildren⟩ := hplain
    have hstart := attributes_start hname (fun a ha => (hattributes a ha).1.key) hquote
    have hadd : r.addTag { isEnd := false, inner := startChars name attributes } = { r with
        pieces := []
        waiting := { name, attributes, before := r.pieces } :: r.waiting } := by
      simp [Reading.addTag, isWhole_start hname, name_start hname _ _, hstart]
    rw [toList_render, List.cons_append, List.append_assoc, List.cons_append,
      Reading.go_tag (tag?_start (isInside_start hname fun a ha => (hattributes a ha).1) _), hadd]
    cases closed with
    | false => rfl
    | true =>
      have htag := tag?_end hname.toIsInside tail
      simp only [if_true, List.append_assoc, List.cons_append, List.nil_append]
      rw [rereads_all (fun m hm => ih m hm (hchildren.mem hm)) hformed hchain _ (stops_tag htag),
        Reading.go_tag htag]
      obtain ⟨waiting, hwaiting, hunmatched, hpieces, hmem⟩ := Reading.take_all children
        { r with pieces := [], waiting := { name, attributes, before := r.pieces } :: r.waiting }
        fun other attributes more hm => by
          cases hformed _ hm with
          | element _ _ _ _ _ _ _ hopen => exact hopen rfl
      generalize children.foldl Reading.take _ = r' at hwaiting hunmatched hpieces
      have hend : Tag.name { isEnd := true, inner := name.toList } = name := by
        simpa [startChars] using name_start hname true []
      have hself : Token.sameIgnoringCase name name = true := by simp [Token.sameIgnoringCase]
      have hother : ∀ v ∈ waiting, Token.sameIgnoringCase v.name name = false :=
        fun v hv => hnames rfl _ (hmem v hv)
      congr 1
      rw [Reading.addTag, if_pos rfl, hend, if_pos (by simp [hwaiting, hself]), hwaiting,
        Reading.close_eq hother hself, hpieces]
      simp [Reading.take, hunmatched]

theorem read_renderAll {pieces : List Markup} (hformed : ∀ m ∈ pieces, Formed source m)
    (hchain : pieces.IsChain (Beside source)) (hplain : AllPlain pieces) :
    read (renderAll pieces).toList = (pieces, []) := by
  have hread := rereads_all (fun m hm => (hformed m hm).rereads (hplain.mem hm)) hformed hchain {}
    stops_nil
  rw [List.append_nil] at hread
  obtain ⟨waiting, hwaiting, hunmatched, hpieces, -⟩ := Reading.take_all pieces {}
    fun name attributes children hm => by
      cases hformed _ hm with
      | element _ _ _ _ _ _ _ hopen => exact hopen rfl
  have hgo : Reading.run (renderAll pieces).toList.length {} (renderAll pieces).toList =
      pieces.foldl Reading.take {} := hread
  obtain ⟨hfinish, hnone⟩ := Reading.finish_eq (r := pieces.foldl Reading.take {})
    (pieces.foldl Reading.take {}).waiting
  rw [List.append_nil] at hwaiting hpieces
  unfold read
  simp only [hgo, hfinish, hnone, hunmatched]
  rw [hwaiting, hpieces]
  simp

end Render

end Stagecraft.Markup
