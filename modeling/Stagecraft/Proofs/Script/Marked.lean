import Stagecraft.Proofs.Markup.Formed
import Stagecraft.Proofs.Script.Said

namespace Stagecraft

open Shape Markup

def Lined (c d : Char) : Prop :=
  (d = '\n' → c = '\n' ∨ Text.isBlank c = false) ∧ (c = '\n' → d = '\n' ∨ Text.isBlank d = false)

def Closed (cs : List Char) : Prop :=
  ∀ ⦃a b⦄, cs = a ++ '>' :: b → (∀ c ∈ a, Lexeme.isInTag c = true) →
    ∀ c ∈ a.getLast?, Text.isBlank c = false

def Shut (cs : List Char) : Prop :=
  ∀ ⦃tail⦄, '<' :: tail <:+ cs → Lexeme.looksLikeTag ('<' :: tail) = true → Closed tail

def holdsEnd (cs : List Char) : Bool :=
  cs.tails.any fun t => t.head? == some '<' &&
    (Lexeme.tag t).any fun l => (Shape.token (l.kind, l.value)).isDialogueEnd

section Lexeme

variable {a b tail : List Char}

lemma said_tagOf (hlooks : Lexeme.looksLikeTag ('<' :: (a ++ '>' :: b)) = true)
    (hlast : ∀ c ∈ a.getLast?, Text.isBlank c = false) :
    said ((Lexeme.tagOf a b).kind, (Lexeme.tagOf a b).value) = '<' :: (a ++ ['>']) := by
  have htrim (inner : List Char) (hfirst : ∀ c ∈ inner.head?, Text.isAlphabetic c = true)
      (hinner : ∀ c ∈ inner.getLast?, Text.isBlank c = false) :
      Text.trimEnd (Text.trimStart inner) = inner :=
    Text.trim_of_isTrimmed ⟨fun c hc => Text.isBlank_of_isAlphabetic (hfirst c hc), hinner⟩
  rcases a with _ | ⟨c, a⟩
  · rfl
  by_cases hc : c = '/'
  · subst hc
    have hfirst : ∀ c ∈ a.head?, Text.isAlphabetic c = true := by
      intro c hc
      obtain ⟨a, rfl⟩ := List.head?_eq_some_iff.mp (Option.mem_def.mp hc)
      simpa [Lexeme.looksLikeTag] using hlooks
    have hrest : ∀ c ∈ a.getLast?, Text.isBlank c = false := by
      intro c hc
      exact hlast c (by simp [List.getLast?_cons, Option.mem_def.mp hc])
    simp [Lexeme.tagOf, said, htrim _ hfirst hrest]
  · have hfirst : Text.isAlphabetic c = true := by
      have hne (more : List Char) : ∀ d rest, c :: more ≠ '/' :: d :: rest := by
        rintro d rest heq
        exact hc (List.cons.inj heq).1
      cases a <;> simpa [Lexeme.looksLikeTag, hc] using hlooks
    simp [Lexeme.tagOf, said, hc, htrim (c :: a) (by simpa using hfirst) hlast]

lemma looksLikeTag_congr (c d : Char) (cs cs' : List Char) :
    Lexeme.looksLikeTag ('<' :: c :: d :: cs) = Lexeme.looksLikeTag ('<' :: c :: d :: cs') := by
  by_cases hc : c = '/'
  · subst hc
    rfl
  · simp [Lexeme.looksLikeTag, hc]

lemma shut_nil : Shut [] := by simp [Shut]

lemma Shut.within {s cs : List Char} (h : Shut cs) (hs : s <:+: cs) : Shut s := by
  intro tail htail hlooks a b hsplit ha
  subst hsplit
  rcases a with _ | ⟨c, a⟩
  · simp
  obtain ⟨front, back, rfl⟩ := hs
  obtain ⟨front', rfl⟩ := htail
  have hpart : '<' :: (c :: a ++ '>' :: b ++ back) <:+
      front ++ (front' ++ '<' :: (c :: a ++ '>' :: b)) ++ back :=
    ⟨front ++ front', by simp⟩
  refine h hpart ?_ (a := c :: a) (b := b ++ back) (by simp) ha
  -- the first characters of the tag are all in the part
  rcases a with _ | ⟨d, a⟩
  · exact (looksLikeTag_congr ..).trans hlooks
  · exact (looksLikeTag_congr ..).trans hlooks

lemma eq_of_tag {l : Lexeme} (h : Lexeme.tag ('<' :: tail) = some l) (hend : l.kind ≠ .endOfFile) :
    ∃ a b, tail = a ++ '>' :: b ∧ (∀ c ∈ a, Lexeme.isInTag c = true) ∧ l = Lexeme.tagOf a b := by
  obtain hall | ⟨a, d, b, rfl, ha, hd⟩ := Text.split_first Lexeme.isInTag tail
  · have htake : tail.takeWhile (fun c => c != '>' && !Lexeme.endsTagSearch c) = tail :=
      List.takeWhile_eq_self_iff.mpr hall
    simp only [Lexeme.tag, List.drop_one, List.tail_cons, htake, List.drop_length,
      Option.some.injEq] at h
    exact absurd (by rw [← h]) hend
  · rw [Lexeme.tag_of_first ha hd] at h
    split at h
    · next hbracket =>
      cases h
      exact ⟨a, b, by rw [hbracket], ha, rfl⟩
    · cases h

lemma Shut.speaks {cs : List Char} (h : Shut cs) (hend : holdsEnd cs = false)
    (htail : '<' :: tail <:+ cs) (hlooks : Lexeme.looksLikeTag ('<' :: tail) = true) {l : Lexeme}
    (htag : Lexeme.tag ('<' :: tail) = some l) (hkind : l.kind ≠ .endOfFile) :
    said (l.kind, l.value) = l.chars ∧ (token (l.kind, l.value)).isDialogueEnd = false := by
  refine ⟨?_, ?_⟩
  · obtain ⟨a, b, rfl, ha, rfl⟩ := eq_of_tag htag hkind
    exact said_tagOf hlooks (h htail hlooks rfl ha)
  · simp only [holdsEnd, List.any_eq_false, List.mem_tails] at hend
    simpa [htag] using hend _ htail

end Lexeme

namespace Markup

variable {source : List Char}

section Lines

lemma isChain_lined {cs : List Char} (h : '\n' ∉ cs) : cs.IsChain Lined := by
  induction cs with
  | nil => exact .nil
  | cons c cs ih =>
    obtain ⟨hc, hcs⟩ := not_or.mp (List.mem_cons.not.mp h)
    refine List.isChain_cons.mpr ⟨fun d hd => ⟨?_, fun heq => absurd heq.symm hc⟩, ih hcs⟩
    rintro rfl
    exact absurd (List.mem_of_head? hd) hcs

lemma isChain_within {s cs : List Char} (h : cs.IsChain Lined) (hs : s <:+: cs) :
    s.IsChain Lined := by
  obtain ⟨front, back, rfl⟩ := hs
  exact h.left_of_append.right_of_append

lemma lined_angle (c : Char) : Lined c '<' :=
  ⟨by simp, fun _ => .inr (by decide)⟩

lemma angle_lined (c : Char) : Lined '>' c :=
  ⟨fun _ => .inr (by decide), by simp⟩

lemma head_render_element {name : String} {attributes : List (String × String)} {closed : Bool}
    {children : List Markup} :
    (render (element name attributes closed children)).toList.head? = some '<' := by
  rw [toList_render]
  rfl

lemma getLast_render_element {name : String} {attributes : List (String × String)} {closed : Bool}
    {children : List Markup} :
    (render (element name attributes closed children)).toList.getLast? = some '>' := by
  rw [toList_render]
  cases closed <;> simp [List.getLast?_cons]

lemma lined_render {m m' : Markup} (hm : Formed source m) (hm' : Formed source m')
    (h : Beside source m m') (hsource : source.IsChain Lined) :
    ∀ c ∈ (render m).toList.getLast?, ∀ d ∈ (render m').toList.head?, Lined c d := by
  intro c hc d hd
  cases hm with
  | element =>
    rw [getLast_render_element] at hc
    cases hc
    exact angle_lined d
  | text s =>
    cases hm' with
    | element =>
      rw [head_render_element] at hd
      cases hd
      exact lined_angle c
    | text => exact h.elim
    | lineBreak =>
      exact (List.isChain_append.mp (isChain_within hsource h)).2.2 c hc d hd
  | lineBreak =>
    obtain rfl : '\n' = c := by simpa [render] using hc
    cases hm' with
    | element =>
      rw [head_render_element] at hd
      cases hd
      exact lined_angle _
    | text s => exact (List.isChain_cons.mp (isChain_within hsource h)).1 d hd
    | lineBreak =>
      obtain rfl : '\n' = d := by simpa [render] using hd
      exact ⟨fun _ => .inl rfl, fun _ => .inl rfl⟩

lemma render_ne_nil {m : Markup} (h : Formed source m) : (render m).toList ≠ [] := by
  cases h with
  | text s hne => exact hne
  | lineBreak => exact List.cons_ne_nil _ _
  | element =>
    rw [toList_render]
    exact List.cons_ne_nil _ _

lemma isChain_renderAll {ms : List Markup} (hsource : source.IsChain Lined)
    (hformed : ∀ m ∈ ms, Formed source m) (hchain : ms.IsChain (Beside source))
    (h : ∀ m ∈ ms, (render m).toList.IsChain Lined) : (renderAll ms).toList.IsChain Lined := by
  induction ms with
  | nil => exact .nil
  | cons m ms ih =>
    rw [List.forall_mem_cons] at hformed h
    rw [List.isChain_cons] at hchain
    rw [renderAll, String.toList_append]
    refine List.isChain_append.mpr ⟨h.1, ih hformed.2 hchain.2 h.2, ?_⟩
    cases ms with
    | nil => simp [renderAll]
    | cons m' ms =>
      have hm' := hformed.2 m' List.mem_cons_self
      intro c hc d hd
      rw [renderAll, String.toList_append, List.head?_append_of_ne_nil _ (render_ne_nil hm')] at hd
      exact lined_render hformed.1 hm' (hchain.1 m' rfl) hsource c hc d hd

lemma Formed.isChain_render {m : Markup} (h : Formed source m) (hsource : source.IsChain Lined) :
    (render m).toList.IsChain Lined := by
  induction h with
  | text s hne hline hs hwithin => exact isChain_within hsource hwithin
  | lineBreak => exact .singleton _
  | element name attributes closed children hname _ hattributes hclosed hchain hformed ih =>
    have hinner := (isInside_start hname fun a ha => (hattributes a ha).1).inner
    have hstart : '\n' ∉ '<' :: startChars name attributes := by
      intro hmem
      rcases List.mem_cons.mp hmem with hmem | hmem
      · cases hmem
      · exact absurd (hinner _ hmem) (by decide)
    have hend : '\n' ∉ '<' :: '/' :: (name.toList ++ ['>']) := by
      intro hmem
      simp only [List.mem_cons, List.mem_append, List.not_mem_nil, or_false] at hmem
      rcases hmem with hmem | hmem | hmem | hmem
      · cases hmem
      · cases hmem
      · exact absurd (hname.inner _ hmem) (by decide)
      · cases hmem
    have hchildren := isChain_renderAll hsource hformed hchain ih
    rw [toList_render, ← List.cons_append]
    refine List.isChain_append.mpr ⟨isChain_lined hstart, List.isChain_cons.mpr ⟨fun d _ =>
      angle_lined d, ?_⟩, fun c hc d hd => ?_⟩
    · cases closed with
      | false => exact .nil
      | true =>
        refine List.isChain_append.mpr ⟨hchildren, isChain_lined hend, fun c _ d hd => ?_⟩
        cases hd
        exact lined_angle c
    · cases hd
      refine ⟨by simp, fun heq => ?_⟩
      exact absurd (heq ▸ List.mem_of_getLast? hc) hstart

end Lines

section Characters

lemma Formed.brace {m : Markup} (h : Formed source m) (hsource : '\x7b' ∉ source) :
    '\x7b' ∉ (render m).toList := by
  induction h with
  | text s hne hline hs hwithin => exact fun hmem => hsource (hwithin.subset hmem)
  | lineBreak => decide
  | element name attributes closed children hname hspelled hattributes hclosed hchain hformed ih =>
    have hname' : '\x7b' ∉ name.toList := fun hmem => hsource (hspelled.subset hmem)
    have hall : '\x7b' ∉ (renderAll children).toList := by
      rw [toList_renderAll, List.mem_flatMap]
      rintro ⟨m, hm, hmem⟩
      exact ih m hm hmem
    have hstart : '\x7b' ∉ startChars name attributes := by
      rw [startChars, List.mem_append, List.mem_flatMap]
      rintro (hmem | ⟨a, ha, hmem⟩)
      · exact hname' hmem
      · obtain ⟨⟨⟨first, rest, hkey, hfirst, hrest⟩, -⟩, hvalue⟩ := hattributes a ha
        simp only [attributeChars, hkey, List.cons_append, List.mem_cons, List.mem_append,
          List.not_mem_nil, or_false] at hmem
        rcases hmem with hmem | hmem | hmem | hmem | hmem | hmem | hmem
        · cases hmem
        · exact absurd hfirst (by rw [← hmem]; decide)
        · exact absurd (hrest _ hmem) (by decide +kernel)
        · cases hmem
        · cases hmem
        · exact hsource (hvalue.subset hmem)
        · cases hmem
    rw [toList_render]
    cases closed <;> simp [hstart, hall, hname']

end Characters

section Tags

variable {a b : List Char}

structure Behind (cs : List Char) : Prop where
  head : ∀ c ∈ cs.head?, c = '\n' ∨ c = '<'
  closed : Closed cs

lemma behind_nil : Behind [] :=
  ⟨by simp, fun a b h => by simp at h⟩

lemma behind_break (cs : List Char) : Behind ('\n' :: cs) := by
  refine ⟨by simp, fun a b h ha => ?_⟩
  cases a with
  | nil => simp
  | cons c a =>
    obtain ⟨rfl, -⟩ := List.cons.inj h
    exact absurd (ha '\n' List.mem_cons_self) (by decide)

lemma closed_tag (h : '>' ∉ a) (hlast : ∀ c ∈ a.getLast?, Text.isBlank c = false) :
    Closed (a ++ '>' :: b) := by
  intro a' b' heq ha'
  have htake : (a ++ '>' :: b).takeWhile (· != '>') = a :=
    Text.takeWhile_first (fun c hc => by simpa using fun heq : c = '>' => h (heq ▸ hc)) rfl
  have htake' : (a' ++ '>' :: b').takeWhile (· != '>') = a' := by
    refine Text.takeWhile_first (fun c hc => ?_) rfl
    simpa using fun heq : c = '>' => absurd (ha' c hc) (by rw [heq]; decide)
  rw [heq, htake'] at htake
  rwa [htake]

lemma behind_tag (h : '>' ∉ a) (hne : a ≠ []) (hlast : ∀ c ∈ a.getLast?, Text.isBlank c = false) :
    Behind ('<' :: (a ++ '>' :: b)) := by
  refine ⟨by simp, ?_⟩
  rw [← List.cons_append]
  refine closed_tag ?_ ?_
  · simpa using h
  · rwa [List.getLast?_cons_of_ne_nil hne]

lemma shut_append (hb : Shut b) (ha : ∀ x y, a = x ++ '<' :: y →
    Lexeme.looksLikeTag ('<' :: (y ++ b)) = true → Closed (y ++ b)) : Shut (a ++ b) := by
  intro tail htail hlooks
  obtain ⟨front, hfront⟩ := htail
  rcases List.append_eq_append_iff.mp hfront with ⟨mid, hmid, hrest⟩ | ⟨mid, hmid, hrest⟩
  · rcases mid with _ | ⟨c, y⟩
    · rw [List.nil_append] at hrest
      exact hb (hrest ▸ List.suffix_rfl) hlooks
    · rw [List.cons_append, List.cons.injEq] at hrest
      obtain ⟨rfl, rfl⟩ := hrest
      exact ha front y hmid hlooks
  · exact hb ⟨mid, hrest.symm⟩ hlooks

lemma shut_tag (h : '>' ∉ a) (hlast : ∀ c ∈ a.getLast?, Text.isBlank c = false) (hb : Shut b) :
    Shut ('<' :: (a ++ '>' :: b)) := by
  have hstart : Shut (('<' :: (a ++ ['>'])) ++ b) := by
    refine shut_append hb fun x y heq _ => ?_
    rw [← List.cons_append] at heq
    rcases List.append_eq_append_iff.mp heq with ⟨mid, -, hrest⟩ | ⟨mid, hmid, hrest⟩
    · rcases mid with _ | ⟨c, mid⟩ <;> simp at hrest
    rcases mid with _ | ⟨c, inner⟩
    · simp at hrest
    rw [List.cons_append, List.cons.injEq] at hrest
    obtain ⟨rfl, rfl⟩ := hrest
    -- the tag is closed from every bracket in it on
    have hinner : inner <:+ a := by
      rcases x with _ | ⟨d, x⟩
      · exact (List.cons.inj hmid).2 ▸ List.suffix_rfl
      · exact (List.cons.inj hmid).2 ▸ ⟨x ++ ['<'], by simp⟩
    rw [List.append_assoc]
    refine closed_tag (fun hmem => h (hinner.subset hmem)) fun c hc => hlast c ?_
    obtain ⟨front, rfl⟩ := hinner
    exact List.mem_getLast?_append_of_mem_getLast? hc
  simpa using hstart

lemma shut_text {s : List Char} (hs : s <:+: source) (hsource : Shut source) (hb : Shut b)
    (hbehind : Behind b) : Shut (s ++ b) := by
  refine shut_append hb fun x y heq hlooks a' b' hsplit ha' => ?_
  rcases List.append_eq_append_iff.mp hsplit with ⟨mid, hmid, hrest⟩ | ⟨mid, hmid, hrest⟩
  · -- the bracket that ends the tag stands behind the text
    rcases mid with _ | ⟨c, mid⟩
    · rcases hbehind.head '>' (by rw [hrest]; rfl) with h | h <;> cases h
    · have hlast := hbehind.closed hrest fun c hc => ha' c (hmid ▸ List.mem_append_right _ hc)
      rwa [hmid, List.getLast?_append_of_ne_nil _ (List.cons_ne_nil c mid)]
  · rcases mid with _ | ⟨c, mid⟩
    · rcases hbehind.head '>' (by rw [← List.nil_append b, ← hrest]; rfl) with h | h <;> cases h
    · obtain ⟨rfl, rfl⟩ := List.cons.inj hrest
      rcases a' with _ | ⟨c, a'⟩
      · simp
      have hpart : '<' :: y <:+ s := ⟨x, heq.symm⟩
      refine hsource.within hs hpart ?_ hmid ha'
      rw [hmid] at hlooks ⊢
      rcases a' with _ | ⟨d, a'⟩
      · exact (looksLikeTag_congr ..).trans hlooks
      · exact (looksLikeTag_congr ..).trans hlooks

lemma bracket_startChars {name : String} (hname : IsElementName name.toList)
    {attributes : List (String × String)} (h : ∀ a ∈ attributes, IsAttribute a) :
    '>' ∉ startChars name attributes :=
  fun hmem => absurd ((isInside_start hname h).inner _ hmem) (by decide)

lemma behind_render {m : Markup} (h : Formed source m) (hm : isText m = false) (tail : List Char) :
    Behind ((render m).toList ++ tail) := by
  cases h with
  | text => cases hm
  | lineBreak => exact behind_break tail
  | element name attributes closed children hname _ hattributes =>
    rw [toList_render, List.cons_append, List.append_assoc, List.cons_append]
    exact behind_tag (bracket_startChars hname fun a ha => (hattributes a ha).1)
      (by simp [startChars, hname.ne_nil]) fun c hc => (getLast_start hname _ c hc).1

def Shuts (m : Markup) : Prop :=
  ∀ tail, Shut tail → (isText m = true → Behind tail) → Shut ((render m).toList ++ tail)

lemma shuts_all {ms : List Markup} (h : ∀ m ∈ ms, Shuts m) (hformed : ∀ m ∈ ms, Formed source m)
    (hchain : ms.IsChain (Beside source)) {tail : List Char} (htail : Shut tail)
    (hbehind : Behind tail) : Shut ((renderAll ms).toList ++ tail) := by
  induction ms with
  | nil => exact htail
  | cons m ms ih =>
    rw [List.forall_mem_cons] at h hformed
    rw [List.isChain_cons] at hchain
    rw [renderAll, String.toList_append, List.append_assoc]
    refine h.1 _ (ih h.2 hformed.2 hchain.2) fun hm => ?_
    cases ms with
    | nil => exact hbehind
    | cons m' ms =>
      rw [renderAll, String.toList_append, List.append_assoc]
      refine behind_render (hformed.2 m' List.mem_cons_self) ?_ _
      exact isText_beside (hchain.1 m' rfl) hm

lemma Formed.shuts {m : Markup} (h : Formed source m) (hsource : Shut source) : Shuts m := by
  induction h with
  | text s hne hline hs hwithin =>
    exact fun tail htail hbehind => shut_text hwithin hsource htail (hbehind rfl)
  | lineBreak =>
    refine fun tail htail _ => shut_append htail fun x y heq => ?_
    rcases x with _ | ⟨c, x⟩ <;> simp [render] at heq
  | element name attributes closed children hname _ hattributes hclosed hchain hformed ih =>
    intro tail htail _
    have hend := bracket_startChars hname fun a ha => (hattributes a ha).1
    have hlast := getLast_start hname attributes
    rw [toList_render, List.cons_append, List.append_assoc, List.cons_append]
    refine shut_tag hend (fun c hc => (hlast c hc).1) ?_
    cases closed with
    | false => exact htail
    | true =>
      have hend' := bracket_startChars hname (fun a (ha : a ∈ []) => (List.not_mem_nil ha).elim)
      have hlast' := getLast_start hname []
      simp only [startChars, List.flatMap_nil, List.append_nil] at hend' hlast'
      have hname' : ∀ c ∈ ('/' :: name.toList).getLast?, Text.isBlank c = false := by
        rw [List.getLast?_cons_of_ne_nil hname.ne_nil]
        exact fun c hc => (hlast' c hc).1
      rw [if_pos rfl, List.append_assoc, List.cons_append, List.cons_append, List.append_assoc,
        ← List.cons_append]
      exact shuts_all ih hformed hchain (shut_tag (by simpa using hend') hname' htail)
        (behind_tag (by simpa using hend') (List.cons_ne_nil _ _) hname')

end Tags

theorem steady_renderAll {ms : List Markup} (hne : ms ≠ []) (hformed : ∀ m ∈ ms, Formed source m)
    (hchain : ms.IsChain (Beside source)) (hbrace : '\x7b' ∉ source)
    (hlines : source.IsChain Lined) (htags : Shut source)
    (htrimmed : Text.IsTrimmed (renderAll ms).toList)
    (hreturn : (renderAll ms).toList.IsChain fun c d => c = '>' ∨ c = ']' → d ≠ '\r')
    (hend : holdsEnd (renderAll ms).toList = false) : Steady (renderAll ms).toList := by
  have hshut := shuts_all (fun m hm => (hformed m hm).shuts htags) hformed hchain shut_nil
    behind_nil
  rw [List.append_nil] at hshut
  refine ⟨?_, ?_, ?_, htrimmed, fun tail htail hlooks l htag hkind =>
    hshut.speaks hend htail hlooks htag hkind⟩
  · obtain ⟨m, ms, rfl⟩ := List.exists_cons_of_ne_nil hne
    rw [renderAll, String.toList_append]
    exact List.append_ne_nil_of_left_ne_nil (render_ne_nil (hformed m List.mem_cons_self)) _
  · rw [toList_renderAll, List.mem_flatMap]
    rintro ⟨m, hm, hmem⟩
    exact (hformed m hm).brace hbrace hmem
  · have hlined := isChain_renderAll hlines hformed hchain
      fun m hm => (hformed m hm).isChain_render hlines
    rw [List.isChain_iff_getElem] at hlined hreturn ⊢
    exact fun i hi => ⟨(hlined i hi).1, (hlined i hi).2, hreturn i hi⟩

end Markup

end Stagecraft
