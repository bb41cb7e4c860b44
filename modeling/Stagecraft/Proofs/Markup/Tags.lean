import Stagecraft.Markup
import Stagecraft.Proofs.Text

namespace Stagecraft.Markup

def isInner (c : Char) : Bool :=
  c != '<' && c != '>' && c != '\n'

def isKeyStart (c : Char) : Bool :=
  Text.isLetter c || c == '_'

def isKey (c : Char) : Bool :=
  Text.isWord c || c == '-'

structure IsInside (cs : List Char) : Prop where
  head : cs.head?.any Text.isLetter = true
  inner : ∀ c ∈ cs, isInner c = true

structure IsElementName (cs : List Char) : Prop extends IsInside cs where
  solid : ∀ c ∈ cs, Text.isBlank c = false ∧ c ≠ '/' ∧ c ≠ '='

def IsKey (cs : List Char) : Prop :=
  ∃ c tail, cs = c :: tail ∧ isKeyStart c = true ∧ ∀ d ∈ tail, isKey d = true

structure IsAttribute (a : String × String) : Prop where
  key : IsKey a.1.toList
  value : ∀ c ∈ a.2.toList, isInner c = true

lemma IsInside.cons {cs : List Char} (h : IsInside cs) :
    ∃ c tail, cs = c :: tail ∧ Text.isLetter c = true := by
  cases cs with
  | nil => exact absurd h.head (by simp)
  | cons c tail => exact ⟨c, tail, rfl, by simpa using h.head⟩

lemma IsInside.ne_nil {cs : List Char} (h : IsInside cs) : cs ≠ [] := by
  obtain ⟨c, tail, rfl, -⟩ := h.cons
  exact List.cons_ne_nil c tail

lemma isInner_of_isLetter {c : Char} (h : Text.isLetter c = true) : isInner c = true ∧ c ≠ '/' := by
  have hne (d : Char) (hd : Text.isLetter d = false) : c ≠ d := by
    rintro rfl
    rw [h] at hd
    cases hd
  exact ⟨by simp [isInner, hne '<' (by decide), hne '>' (by decide), hne '\n' (by decide)],
    hne '/' (by decide)⟩

section Tag

variable {cs inside rest after : List Char} {t : Tag}

lemma tag?_start (h : IsInside inside) (rest : List Char) : tag? ('<' :: (inside ++ '>' :: rest)) =
    some ({ isEnd := false, inner := inside }, rest) := by
  obtain ⟨c, tail, rfl, hc⟩ := h.cons
  have hslash := (isInner_of_isLetter hc).2
  have htake : (c :: (tail ++ '>' :: rest)).takeWhile isInner = c :: tail :=
    Text.takeWhile_first h.inner rfl
  have hdrop : (c :: (tail ++ '>' :: rest)).dropWhile isInner = '>' :: rest :=
    Text.dropWhile_first h.inner rfl
  unfold isInner at htake hdrop
  simp [tag?, hslash, hc, htake, hdrop]

lemma tag?_end (h : IsInside inside) (rest : List Char) : tag? ('<' :: '/' :: (inside ++ '>' :: rest)) =
    some ({ isEnd := true, inner := inside }, rest) := by
  obtain ⟨c, tail, rfl, hc⟩ := h.cons
  have htake : (c :: (tail ++ '>' :: rest)).takeWhile isInner = c :: tail :=
    Text.takeWhile_first h.inner rfl
  have hdrop : (c :: (tail ++ '>' :: rest)).dropWhile isInner = '>' :: rest :=
    Text.dropWhile_first h.inner rfl
  unfold isInner at htake hdrop
  simp [tag?, hc, htake, hdrop]

lemma eq_of_tag? (h : tag? cs = some (t, after)) : IsInside t.inner ∧
    cs = '<' :: ((if t.isEnd then ['/'] else []) ++ t.inner ++ '>' :: after) := by
  have hbody {body more : List Char} (hhead : body.head?.any Text.isLetter = true)
      (hdrop : body.dropWhile isInner = '>' :: more) :
      IsInside (body.takeWhile isInner) ∧ body.takeWhile isInner ++ '>' :: more = body := by
    have happend := List.takeWhile_append_dropWhile (p := isInner) (l := body)
    rw [hdrop] at happend
    refine ⟨⟨?_, fun c hc => List.mem_takeWhile_imp hc⟩, happend⟩
    cases body with
    | nil => cases hhead
    | cons c body =>
      have hletter : Text.isLetter c = true := by simpa using hhead
      simp [(isInner_of_isLetter hletter).1, hletter]
  unfold tag? at h
  split at h
  · next rest =>
    split at h
    next isEnd body hslash =>
    split at h
    · cases h
    next hhead =>
    dsimp only at h
    split at h
    · next more hdrop =>
      cases h
      obtain ⟨hinside, heq⟩ := hbody (by simpa using hhead) hdrop
      refine ⟨hinside, ?_⟩
      rw [List.append_assoc]
      change _ = '<' :: (_ ++ (body.takeWhile isInner ++ '>' :: after))
      rw [heq]
      split at hslash <;> cases hslash <;> rfl
    · cases h
  · cases h

end Tag

section Attributes

variable {cs rest : List Char}

def attributeChars (a : String × String) : List Char :=
  ' ' :: (a.1.toList ++ '=' :: '"' :: (a.2.toList ++ ['"']))

def startChars (name : String) (attributes : List (String × String)) : List Char :=
  name.toList ++ attributes.flatMap attributeChars

lemma toList_start (name : String) (attributes : List (String × String)) :
    (attributes.foldl (fun s (key, value) => s ++ " " ++ key ++ "=\"" ++ value ++ "\"")
      ("<" ++ name) ++ ">").toList = '<' :: (startChars name attributes ++ ['>']) := by
  have hfold (s : String) : (attributes.foldl
      (fun s (key, value) => s ++ " " ++ key ++ "=\"" ++ value ++ "\"") s).toList =
        s.toList ++ attributes.flatMap attributeChars := by
    induction attributes generalizing s with
    | nil => simp
    | cons a attributes ih =>
      rw [List.foldl_cons, ih]
      simp [attributeChars]
  rw [String.toList_append, hfold]
  simp [startChars]

lemma isKeyStart_ne {c d : Char} (h : isKeyStart c = true) (hd : isKeyStart d = false) : c ≠ d := by
  rintro rfl
  rw [h] at hd
  cases hd

lemma isBlank_of_isKeyStart {c : Char} (h : isKeyStart c = true) : Text.isBlank c = false :=
  Text.isBlank_of h (by decide +kernel)

lemma attributeValue?_quoted {value : List Char} (h : '"' ∉ value) :
    attributeValue? ('"' :: (value ++ '"' :: rest)) = some (value, rest) := by
  have hquoted : ∀ c ∈ value, (c != '"') = true := by
    intro c hc
    simpa using fun hquote : c = '"' => h (hquote ▸ hc)
  simp only [attributeValue?, Text.takeWhile_first hquoted (d := '"') rfl,
    Text.dropWhile_first hquoted (d := '"') rfl]

lemma attributeAt?_key {a : String × String} (hkey : IsKey a.1.toList) (hvalue : '"' ∉ a.2.toList)
    (rest : List Char) : attributeAt? (a.1.toList ++ '=' :: '"' :: (a.2.toList ++ '"' :: rest)) = some (a, rest) := by
  obtain ⟨key, value⟩ := a
  obtain ⟨c, tail, hc, hstart, htail⟩ := hkey
  have htake : (tail ++ '=' :: '"' :: (value.toList ++ '"' :: rest)).takeWhile
      (fun c => Text.isWord c || c == '-') = tail := Text.takeWhile_first htail (by decide +kernel)
  have hdrop : (tail ++ '=' :: '"' :: (value.toList ++ '"' :: rest)).dropWhile
      (fun c => Text.isWord c || c == '-') = '=' :: '"' :: (value.toList ++ '"' :: rest) :=
    Text.dropWhile_first htail (by decide +kernel)
  have hsolid (d : Char) (more : List Char) (hd : Text.isBlank d = false) :
      (d :: more).dropWhile Text.isBlank = d :: more := by simp [hd]
  simp only at hc ⊢
  rw [hc, List.cons_append, attributeAt?]
  simp only [show (Text.isLetter c || c == '_') = true from hstart, htake, hdrop,
    hsolid '=' _ (by decide), hsolid '"' _ (by decide), attributeValue?_quoted hvalue]
  simp [← hc]

lemma attributeAt?_none {c : Char} (hrest : ∀ d ∈ ((rest.dropWhile isKey).dropWhile
    Text.isBlank).head?, d ≠ '=') : attributeAt? (c :: rest) = none := by
  unfold isKey at hrest
  unfold attributeAt?
  dsimp only
  split
  · rfl
  · split
    · next h => exact absurd rfl (hrest '=' (by rw [h]; rfl))
    · rfl

lemma attributesIn_name {name : List Char} (fuel : Nat) (found : Array (String × String))
    (hname : ∀ c ∈ name, Text.isBlank c = false ∧ c ≠ '=')
    (hrest : ∀ d ∈ (rest.dropWhile Text.isBlank).head?, d ≠ '=')
    (hblank : ∀ d ∈ rest.head?, isKey d = false) :
    attributesIn (name.length + fuel) found (name ++ rest) = attributesIn fuel found rest := by
  induction name with
  | nil => simp
  | cons c name ih =>
    obtain ⟨-, htail⟩ := List.forall_mem_cons.mp hname
    have hnone : attributeAt? (c :: (name ++ rest)) = none := by
      refine attributeAt?_none fun d hd => ?_
      obtain hall | ⟨a, e, b, rfl, ha, he⟩ := Text.split_first isKey name
      · rw [Text.dropWhile_apart hall hblank] at hd
        exact hrest d hd
      · rw [List.append_assoc, List.cons_append, Text.dropWhile_first ha he] at hd
        obtain ⟨hsolid, hequals⟩ := htail e (by simp)
        simp only [List.dropWhile_cons, hsolid] at hd
        cases hd
        exact hequals
    rw [List.length_cons, Nat.succ_add, List.cons_append, attributesIn, hnone]
    exact ih htail

lemma attributesIn_attributes {attributes : List (String × String)} {fuel : Nat}
    (found : Array (String × String)) (hkeys : ∀ a ∈ attributes, IsKey a.1.toList)
    (hvalues : ∀ a ∈ attributes, '"' ∉ a.2.toList) (hfuel : 2 * attributes.length ≤ fuel) :
    attributesIn fuel found (attributes.flatMap attributeChars) = found.toList ++ attributes := by
  induction attributes generalizing fuel found with
  | nil => cases fuel <;> simp [attributesIn]
  | cons a attributes ih =>
    rw [List.forall_mem_cons] at hkeys hvalues
    rw [List.length_cons] at hfuel
    obtain ⟨fuel, rfl⟩ : ∃ n, fuel = n + 2 := ⟨fuel - 2, by omega⟩
    have hblank : attributeAt? (' ' :: (a.1.toList ++ '=' :: '"' :: (a.2.toList ++ '"' ::
        attributes.flatMap attributeChars))) = none := by
      simp [attributeAt?, show Text.isLetter ' ' = false by decide]
    have hkey := attributeAt?_key hkeys.1 hvalues.1 (attributes.flatMap attributeChars)
    have hchars : (a :: attributes).flatMap attributeChars = ' ' :: (a.1.toList ++ '=' :: '"' ::
        (a.2.toList ++ '"' :: attributes.flatMap attributeChars)) := by
      simp [attributeChars]
    obtain ⟨c, tail, hc, -⟩ := hkeys.1
    rw [hchars, attributesIn, hblank]
    simp only [hc, List.cons_append] at hkey ⊢
    rw [attributesIn, hkey]
    simp only
    rw [ih _ hkeys.2 hvalues.2 (by omega), Array.toList_push, List.append_assoc]
    rfl

lemma attributes_start {name : String} {attributes : List (String × String)}
    (hname : IsElementName name.toList) (hkeys : ∀ a ∈ attributes, IsKey a.1.toList)
    (hvalues : ∀ a ∈ attributes, '"' ∉ a.2.toList) :
    Tag.attributes { isEnd := false, inner := startChars name attributes } = attributes := by
  have hrest : (∀ d ∈ ((attributes.flatMap attributeChars).dropWhile Text.isBlank).head?, d ≠ '=') ∧
      ∀ d ∈ (attributes.flatMap attributeChars).head?, isKey d = false := by
    cases attributes with
    | nil => simp
    | cons a attributes =>
      obtain ⟨c, tail, hc, hstart, -⟩ := hkeys a List.mem_cons_self
      have hblank : Text.isBlank ' ' = true := by decide
      constructor
      · simp [attributeChars, hc, hblank, isBlank_of_isKeyStart hstart,
          isKeyStart_ne hstart (show isKeyStart '=' = false by decide)]
      · simp only [List.flatMap_cons, attributeChars, List.cons_append, List.head?_cons,
          Option.mem_def, Option.some.injEq, forall_eq']
        decide +kernel
  have hlength : 2 * attributes.length ≤ (attributes.flatMap attributeChars).length := by
    have hsum := List.card_nsmul_le_sum (attributes.map fun a => (attributeChars a).length) 2 <| by
      rintro _ h
      obtain ⟨a, -, rfl⟩ := List.mem_map.mp h
      simp only [attributeChars, List.length_cons, List.length_append]
      omega
    rw [List.length_map, smul_eq_mul, Nat.mul_comm] at hsum
    rwa [List.length_flatMap]
  unfold Tag.attributes startChars
  rw [List.length_append, attributesIn_name _ _ (fun c hc => ⟨(hname.solid c hc).1,
    (hname.solid c hc).2.2⟩) hrest.1 hrest.2, attributesIn_attributes _ hkeys hvalues hlength]
  rfl

end Attributes

section Written

variable {name : String} {attributes : List (String × String)} {isEnd : Bool}

lemma isInner_of_isKey {c : Char} (h : isKey c = true) : isInner c = true := by
  have hne (d : Char) (hd : isKey d = false) : c ≠ d := by
    rintro rfl
    rw [h] at hd
    cases hd
  simp [isInner, hne '<' (by decide +kernel), hne '>' (by decide +kernel),
    hne '\n' (by decide +kernel)]

lemma isInner_of_isKeyStart {c : Char} (h : isKeyStart c = true) : isInner c = true := by
  simp [isInner, isKeyStart_ne h (d := '<') (by decide), isKeyStart_ne h (d := '>') (by decide),
    isKeyStart_ne h (d := '\n') (by decide)]

lemma IsAttribute.inner {a : String × String} (h : IsAttribute a) :
    ∀ c ∈ attributeChars a, isInner c = true := by
  obtain ⟨first, tail, hkey, hfirst, htail⟩ := h.key
  intro c hc
  simp only [attributeChars, hkey, List.cons_append, List.mem_cons, List.mem_append,
    List.not_mem_nil, or_false] at hc
  rcases hc with rfl | rfl | hc | rfl | rfl | hc | rfl
  · rfl
  · exact isInner_of_isKeyStart hfirst
  · exact isInner_of_isKey (htail c hc)
  · rfl
  · rfl
  · exact h.value c hc
  · rfl

lemma isInside_start (hname : IsElementName name.toList) (h : ∀ a ∈ attributes, IsAttribute a) :
    IsInside (startChars name attributes) := by
  obtain ⟨c, tail, hc, hletter⟩ := hname.cons
  refine ⟨by simp [startChars, hc, hletter], fun d hd => ?_⟩
  rcases List.mem_append.mp hd with hd | hd
  · exact hname.inner d hd
  · obtain ⟨a, ha, hd⟩ := List.mem_flatMap.mp hd
    exact (h a ha).inner d hd

lemma name_start (hname : IsElementName name.toList) (isEnd : Bool)
    (attributes : List (String × String)) :
    Tag.name { isEnd, inner := startChars name attributes } = name := by
  obtain ⟨c, tail, hc, hletter⟩ := hname.cons
  have htrim : Text.trimStart (startChars name attributes) = startChars name attributes :=
    Text.trimStart_of_head (by simp [startChars, hc, Text.isBlank_of_isLetter hletter])
  have hsolid : ∀ d ∈ name.toList, (!Text.isBlank d && d != '/' && d != '=') = true := by
    intro d hd
    obtain ⟨hblank, hslash, hequals⟩ := hname.solid d hd
    simp [hblank, hslash, hequals]
  have htake : (startChars name attributes).takeWhile
      (fun c => !Text.isBlank c && c != '/' && c != '=') = name.toList := by
    refine Text.takeWhile_apart hsolid ?_
    cases attributes with
    | nil => simp
    | cons a attributes => simp [attributeChars, show Text.isBlank ' ' = true by decide]
  rw [Tag.name, htrim, htake, String.ofList_toList]

lemma getLast_start (hname : IsElementName name.toList) (attributes : List (String × String)) :
    ∀ c ∈ (startChars name attributes).getLast?, Text.isBlank c = false ∧ c ≠ '/' := by
  intro c hc
  rcases List.eq_nil_or_concat attributes with rfl | ⟨attributes, a, rfl⟩
  · obtain ⟨hblank, hslash, -⟩ := hname.solid c
      (List.mem_of_getLast? (by simpa [startChars] using hc))
    exact ⟨hblank, hslash⟩
  · have hquote : startChars name (attributes ++ [a]) = name.toList ++
        attributes.flatMap attributeChars ++ ' ' :: (a.1.toList ++ '=' :: '"' :: a.2.toList) ++
          ['"'] := by
      simp [startChars, attributeChars]
    rw [List.concat_eq_append, hquote, List.getLast?_concat] at hc
    cases hc
    decide

lemma isWhole_start (hname : IsElementName name.toList) :
    Tag.isWhole { isEnd, inner := startChars name attributes } = false := by
  have hlast := getLast_start hname attributes
  rw [Tag.isWhole, Text.trimEnd_of_getLast fun c hc => (hlast c hc).1]
  simpa using fun h => (hlast _ h).2 rfl

end Written

section Given

variable {t : Tag}

lemma isElementName_name (h : IsInside t.inner) : IsElementName t.name.toList := by
  obtain ⟨c, tail, hc, hletter⟩ := h.cons
  have htrim : Text.trimStart t.inner = t.inner :=
    Text.trimStart_of_head (by simp [hc, Text.isBlank_of_isLetter hletter])
  have hequals : c ≠ '=' := by
    rintro rfl
    exact absurd hletter (by decide)
  rw [Tag.name, htrim, String.toList_ofList]
  refine ⟨⟨?_, fun d hd => h.inner d ((List.takeWhile_sublist _).mem hd)⟩, fun d hd => ?_⟩
  · simp [hc, Text.isBlank_of_isLetter hletter, (isInner_of_isLetter hletter).2, hequals, hletter]
  · have hsolid := List.mem_takeWhile_imp hd
    simpa [and_assoc] using hsolid

lemma name_within (t : Tag) : t.name.toList <:+: t.inner := by
  rw [Tag.name, String.toList_ofList]
  exact (List.takeWhile_prefix _).isInfix.trans (List.dropWhile_suffix _).isInfix

lemma attributeValue?_within {cs value after : List Char}
    (h : attributeValue? cs = some (value, after)) : value <:+: cs ∧ after <:+ cs := by
  have hinQuotes {q last : Char} {rest more : List Char}
      (hdrop : rest.dropWhile (· != q) = last :: more) :
      rest.takeWhile (· != q) <:+: q :: rest ∧ more <:+ q :: rest := by
    have hsuffix : last :: more <:+ rest := hdrop ▸ List.dropWhile_suffix _
    exact ⟨(List.takeWhile_prefix _).isInfix.trans (List.suffix_cons q rest).isInfix,
      (List.suffix_cons last more).trans (hsuffix.trans (List.suffix_cons q rest))⟩
  unfold attributeValue? at h
  split at h
  case h_1 | h_2 =>
    dsimp only at h
    split at h
    · next hdrop =>
      cases h
      exact hinQuotes hdrop
    · cases h
  case h_3 =>
    dsimp only at h
    split at h
    · cases h
    · cases h
      exact ⟨(List.takeWhile_prefix _).isInfix, List.dropWhile_suffix _⟩

lemma isKey_of_attributeAt? {cs after : List Char} {a : String × String}
    (h : attributeAt? cs = some (a, after)) :
    IsKey a.1.toList ∧ a.2.toList <:+: cs ∧ after <:+ cs := by
  unfold attributeAt? at h
  split at h
  · cases h
  next c rest =>
  dsimp only at h
  split at h
  · cases h
  next hstart =>
  rw [Bool.not_eq_true', Bool.not_eq_false] at hstart
  split at h
  · next more hdrop =>
    obtain ⟨⟨value, more'⟩, hvalue, heq⟩ := Option.map_eq_some_iff.mp h
    cases heq
    obtain ⟨hinner, hsuffix⟩ := attributeValue?_within hvalue
    have hmore : more.dropWhile Text.isBlank <:+ c :: rest := by
      have hequals : '=' :: more <:+ rest :=
        hdrop ▸ (List.dropWhile_suffix _).trans (List.dropWhile_suffix _)
      exact (List.dropWhile_suffix _).trans ((List.suffix_cons _ _).trans
        (hequals.trans (List.suffix_cons _ _)))
    refine ⟨⟨c, _, String.toList_ofList, hstart,
      fun d hd => List.mem_takeWhile_imp (p := isKey) hd⟩, ?_, hsuffix.trans hmore⟩
    rw [String.toList_ofList]
    exact hinner.trans hmore.isInfix
  · cases h

lemma isKey_attributesIn {fuel : Nat} {found : Array (String × String)} {inner cs : List Char}
    (hcs : cs <:+ inner) (hfound : ∀ a ∈ found, IsKey a.1.toList ∧ a.2.toList <:+: inner) :
    ∀ a ∈ attributesIn fuel found cs, IsKey a.1.toList ∧ a.2.toList <:+: inner := by
  induction fuel generalizing found cs with
  | zero => simpa [attributesIn] using hfound
  | succ fuel ih =>
    cases cs with
    | nil => simpa [attributesIn] using hfound
    | cons c rest =>
      rw [attributesIn]
      split
      · next a after h =>
        obtain ⟨hkey, hvalue, hafter⟩ := isKey_of_attributeAt? h
        refine ih (hafter.trans hcs) fun b hb => ?_
        rcases Array.mem_push.mp hb with hb | rfl
        · exact hfound b hb
        · exact ⟨hkey, hvalue.trans hcs.isInfix⟩
      · exact ih ((List.suffix_cons c rest).trans hcs) hfound

lemma isAttribute_attributes (h : IsInside t.inner) :
    ∀ a ∈ t.attributes, IsAttribute a ∧ a.2.toList <:+: t.inner := by
  intro a ha
  obtain ⟨hkey, hvalue⟩ := isKey_attributesIn List.suffix_rfl (by simp) a ha
  exact ⟨⟨hkey, fun c hc => h.inner c (hvalue.subset hc)⟩, hvalue⟩

end Given

end Stagecraft.Markup
