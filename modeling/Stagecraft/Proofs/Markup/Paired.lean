import Stagecraft.Proofs.Markup.Tagged

/-!
Which end tag belongs to which start tag, and what reading makes of it.
-/

namespace Stagecraft.Markup

section Pairing

variable {tags : List Tag} {partners partners' : List (Option Nat)} {t : Tag} {i j : Nat}
  {x : Option Nat}

/-- Start tag `i` waits for its end tag in front of tag `j`: no end tag between them belongs to it
or to a start tag in front of it. -/
structure Waits (tags : List Tag) (partners : List (Option Nat)) (i j : Nat) : Prop where
  lt : i < j
  opens : ∃ t : Tag, tags[i]? = some t ∧ t.isEnd = false ∧ t.isWhole = false
  free : ∀ k < j, ∀ i' ≤ i, partners[k]? = some (some i') → k < i

def candidates (tags : List Tag) (partners : List (Option Nat)) (name : String) (j : Nat) :
    Set Nat :=
  {i | Waits tags partners i j ∧ ∃ t : Tag, tags[i]? = some t ∧ Token.sameIgnoringCase t.name name}

/-- Each end tag belongs to the last of the waiting start tags with its name, if there is one. -/
structure Pairs (tags : List Tag) (partners : List (Option Nat)) : Prop where
  length : partners.length = tags.length
  start : ∀ (j : Nat) (t : Tag), tags[j]? = some t → t.isEnd = false → partners[j]? = some none
  nearest : ∀ (j : Nat) (t : Tag) (i : Nat), tags[j]? = some t → t.isEnd = true →
    (partners[j]? = some (some i) ↔ IsGreatest (candidates tags partners t.name j) i)

lemma pairs_nil : Pairs [] [] :=
  ⟨rfl, by simp, by simp⟩

lemma Pairs.lt (h : Pairs tags partners) (hj : partners[j]? = some (some i)) : i < j := by
  have hlt : j < tags.length := h.length ▸ (List.getElem?_eq_some_iff.mp hj).1
  have htag := List.getElem?_eq_getElem hlt
  cases hend : tags[j].isEnd with
  | false =>
    rw [h.start j _ htag hend] at hj
    cases hj
  | true => exact ((h.nearest j _ i htag hend).mp hj).1.1.lt

lemma waits_congr {tags' : List Tag} (htags : ∀ k < j, tags'[k]? = tags[k]?)
    (hpartners : ∀ k < j, partners'[k]? = partners[k]?) :
    Waits tags' partners' i j ↔ Waits tags partners i j := by
  constructor
  · intro h
    refine ⟨h.lt, htags i h.lt ▸ h.opens, fun k hk i' hi' hpartner => ?_⟩
    exact h.free k hk i' hi' (hpartners k hk ▸ hpartner)
  · intro h
    refine ⟨h.lt, (htags i h.lt).symm ▸ h.opens, fun k hk i' hi' hpartner => ?_⟩
    exact h.free k hk i' hi' ((hpartners k hk).symm ▸ hpartner)

lemma candidates_congr {tags' : List Tag} (htags : ∀ k < j, tags'[k]? = tags[k]?)
    (hpartners : ∀ k < j, partners'[k]? = partners[k]?) (name : String) :
    candidates tags' partners' name j = candidates tags partners name j := by
  ext i
  constructor
  · rintro ⟨hwaits, t, ht, hname⟩
    exact ⟨(waits_congr htags hpartners).mp hwaits, t, htags i hwaits.lt ▸ ht, hname⟩
  · rintro ⟨hwaits, t, ht, hname⟩
    exact ⟨(waits_congr htags hpartners).mpr hwaits, t, (htags i hwaits.lt).symm ▸ ht, hname⟩

lemma Pairs.unique (h : Pairs tags partners) (h' : Pairs tags partners') :
    partners' = partners := by
  apply List.ext_getElem?
  intro j
  induction j using Nat.strong_induction_on with
  | _ j ih =>
    by_cases hlt : j < tags.length
    · have htag := List.getElem?_eq_getElem hlt
      cases hend : tags[j].isEnd with
      | false => rw [h.start j _ htag hend, h'.start j _ htag hend]
      | true =>
        have hj := List.getElem?_eq_getElem (h.length ▸ hlt)
        have hj' := List.getElem?_eq_getElem (h'.length ▸ hlt)
        rw [hj, hj', Option.some_inj]
        ext i
        have hiff := h.nearest j _ i htag hend
        have hiff' := h'.nearest j _ i htag hend
        rw [candidates_congr (fun _ _ => rfl) ih, ← hiff, hj, hj'] at hiff'
        simpa using hiff'
    · have hge := Nat.le_of_not_lt hlt
      rw [List.getElem?_eq_none (h'.length ▸ hge), List.getElem?_eq_none (h.length ▸ hge)]

lemma getElem?_concat_of_lt {α : Type} {l : List α} {a : α} {k n : Nat} (hn : l.length = n)
    (hk : k < n) : (l ++ [a])[k]? = l[k]? :=
  List.getElem?_append_left (by omega)

lemma waits_concat (h : Pairs tags partners) (hj : j ≤ tags.length) :
    Waits (tags ++ [t]) (partners ++ [x]) i j ↔ Waits tags partners i j :=
  waits_congr (fun _ hk => getElem?_concat_of_lt rfl (by omega))
    (fun _ hk => getElem?_concat_of_lt h.length (by omega))

lemma Pairs.concat (h : Pairs tags partners) (hstart : t.isEnd = false → x = none)
    (hend : t.isEnd = true → ∀ i, x = some i ↔
      IsGreatest (candidates tags partners t.name tags.length) i) :
    Pairs (tags ++ [t]) (partners ++ [x]) := by
  have hcandidates {j : Nat} (hj : j ≤ tags.length) (name : String) :
      candidates (tags ++ [t]) (partners ++ [x]) name j = candidates tags partners name j :=
    candidates_congr (fun _ hk => getElem?_concat_of_lt rfl (by omega))
      (fun _ hk => getElem?_concat_of_lt h.length (by omega)) name
  have hx : (partners ++ [x])[tags.length]? = some x := by
    rw [← h.length, List.getElem?_concat_length]
  refine ⟨by simp [h.length], fun j s hs hfalse => ?_, fun j s i hs htrue => ?_⟩
  · rcases Nat.lt_or_ge j tags.length with hlt | hge
    · rw [getElem?_concat_of_lt rfl hlt] at hs
      rw [getElem?_concat_of_lt h.length hlt]
      exact h.start j s hs hfalse
    · obtain rfl : j = tags.length := by
        have := (List.getElem?_eq_some_iff.mp hs).1
        rw [List.length_append, List.length_singleton] at this
        omega
      rw [List.getElem?_concat_length] at hs
      cases hs
      rw [hx, hstart hfalse]
  · rcases Nat.lt_or_ge j tags.length with hlt | hge
    · rw [getElem?_concat_of_lt rfl hlt] at hs
      rw [getElem?_concat_of_lt h.length hlt, hcandidates hlt.le]
      exact h.nearest j s i hs htrue
    · obtain rfl : j = tags.length := by
        have := (List.getElem?_eq_some_iff.mp hs).1
        rw [List.length_append, List.length_singleton] at this
        omega
      rw [List.getElem?_concat_length] at hs
      cases hs
      rw [hx, hcandidates le_rfl, ← hend htrue i, Option.some_inj]

lemma waits_succ (h : Pairs tags partners) : Waits tags partners i (j + 1) ↔
    (Waits tags partners i j ∧ ∀ place, partners[j]? = some (some place) → i < place) ∨
      (i = j ∧ ∃ t, tags[j]? = some t ∧ t.isEnd = false ∧ t.isWhole = false) := by
  constructor
  · intro hwaits
    rcases Nat.lt_or_eq_of_le (Nat.le_of_lt_succ hwaits.lt) with hlt | rfl
    · refine .inl ⟨⟨hlt, hwaits.opens, fun k hk => hwaits.free k (by omega)⟩, fun place hj => ?_⟩
      by_contra hle
      have := hwaits.free j (by omega) place (by omega) hj
      omega
    · exact .inr ⟨rfl, hwaits.opens⟩
  · rintro (⟨hwaits, hplace⟩ | ⟨rfl, t, ht, hstart, hopen⟩)
    · refine ⟨hwaits.lt.trans (Nat.lt_succ_self j), hwaits.opens, fun k hk i' hi' hpartner => ?_⟩
      rcases Nat.lt_or_eq_of_le (Nat.le_of_lt_succ hk) with hlt | rfl
      · exact hwaits.free k hlt i' hi' hpartner
      · have := hplace i' hpartner
        omega
    · refine ⟨Nat.lt_succ_self i, ⟨t, ht, hstart, hopen⟩, fun k hk i' hi' hpartner => ?_⟩
      rcases Nat.lt_or_eq_of_le (Nat.le_of_lt_succ hk) with hlt | rfl
      · exact hlt
      · rw [h.start k t ht hstart] at hpartner
        cases hpartner

lemma waits_length_concat (h : Pairs tags partners) (h' : Pairs (tags ++ [t]) (partners ++ [x])) :
    Waits (tags ++ [t]) (partners ++ [x]) i (tags ++ [t]).length ↔
      (Waits tags partners i tags.length ∧ ∀ place, x = some place → i < place) ∨
        (i = tags.length ∧ t.isEnd = false ∧ t.isWhole = false) := by
  have hx : (partners ++ [x])[tags.length]? = some x := by
    rw [← h.length, List.getElem?_concat_length]
  rw [List.length_append, List.length_singleton, waits_succ h', waits_concat h le_rfl, hx,
    List.getElem?_concat_length]
  simp

def unpaired (tags : List Tag) (partners : List (Option Nat)) : List String :=
  ((tags.zip partners).filter fun (t, partner) => t.isEnd && partner.isNone).map
    fun (t, _) => t.name

lemma unpaired_concat (h : Pairs tags partners) : unpaired (tags ++ [t]) (partners ++ [x]) =
    unpaired tags partners ++ if t.isEnd && x.isNone then [t.name] else [] := by
  rw [unpaired, unpaired, List.zip_append h.length.symm, List.filter_append, List.map_append]
  congr 1
  cases hcase : t.isEnd && x.isNone <;> simp [hcase]

end Pairing

section Headers

structure Header where
  name : String
  attributes : List (String × String)
  closed : Bool

mutual

def headers : Markup → List Header
  | text _ | lineBreak => []
  | element name attributes closed children =>
    { name, attributes, closed } :: headersAll children

def headersAll : List Markup → List Header
  | [] => []
  | m :: rest => headers m ++ headersAll rest

end

def startHeaders (closed : Nat → Bool) : Nat → List Tag → List Header
  | _, [] => []
  | i, t :: rest =>
    if t.isEnd then startHeaders closed (i + 1) rest
    else { name := t.name, attributes := t.attributes, closed := closed i } ::
      startHeaders closed (i + 1) rest

variable {closed closed' : Nat → Bool} {i : Nat} {tags more : List Tag} {t : Tag}

lemma headersAll_append (ms ms' : List Markup) :
    headersAll (ms ++ ms') = headersAll ms ++ headersAll ms' := by
  induction ms with
  | nil => rfl
  | cons m ms ih => rw [List.cons_append, headersAll, headersAll, ih, List.append_assoc]

lemma plainAll_append (ms ms' : List Markup) :
    plainAll (ms ++ ms') = plainAll ms ++ plainAll ms' := by
  induction ms with
  | nil => simp [plainAll]
  | cons m ms ih => rw [List.cons_append, plainAll, plainAll, ih, String.append_assoc]

lemma startHeaders_append : startHeaders closed i (tags ++ more) =
    startHeaders closed i tags ++ startHeaders closed (i + tags.length) more := by
  induction tags generalizing i with
  | nil => rfl
  | cons t tags ih =>
    rw [List.cons_append, startHeaders, startHeaders, ih, List.length_cons]
    rw [show i + 1 + tags.length = i + (tags.length + 1) by omega]
    split <;> rfl

lemma startHeaders_congr (h : ∀ j, i ≤ j → j < i + tags.length → closed j = closed' j) :
    startHeaders closed i tags = startHeaders closed' i tags := by
  induction tags generalizing i with
  | nil => rfl
  | cons t tags ih =>
    rw [List.length_cons] at h
    rw [startHeaders, startHeaders, h i le_rfl (by omega),
      ih fun j hj hlt => h j (by omega) (by omega)]

lemma headersAll_ofText (cs : List Char) :
    headersAll (ofText cs) = [] ∧ (plainAll (ofText cs)).toList = cs := by
  induction hn : cs.length using Nat.strong_induction_on generalizing cs with
  | _ n ih =>
    subst hn
    have hfront {line : List Char} (rest : List Char) (hne : line ≠ []) (hline : '\n' ∉ line)
        (hrest : ∀ c ∈ rest.head?, c = '\n') (h : headersAll (ofText rest) = [] ∧
          (plainAll (ofText rest)).toList = rest) :
        headersAll (ofText (line ++ rest)) = [] ∧
          (plainAll (ofText (line ++ rest))).toList = line ++ rest := by
      rw [ofText_line hne hline rest hrest, headersAll, h.1, plainAll, String.toList_append, h.2,
        plain, String.toList_ofList]
      exact ⟨rfl, rfl⟩
    obtain hall | ⟨line, d, more, rfl, hall, hd⟩ := Text.split_first (· != '\n') cs
    · by_cases hne : cs = []
      · subst hne
        exact ⟨rfl, rfl⟩
      · have := hfront [] hne (fun hmem => absurd (hall _ hmem) (by decide)) (by simp)
          ⟨rfl, rfl⟩
        rwa [List.append_nil] at this
    · obtain rfl : d = '\n' := by simpa using hd
      obtain ⟨hheaders, hplain⟩ := ih more.length (by simp; omega) more rfl
      have hbreak : headersAll (ofText ('\n' :: more)) = [] ∧
          (plainAll (ofText ('\n' :: more))).toList = '\n' :: more := by
        rw [ofText_break, headersAll, hheaders, plainAll, String.toList_append, hplain]
        exact ⟨rfl, rfl⟩
      by_cases hne : line = []
      · rw [hne, List.nil_append]
        exact hbreak
      · exact hfront _ hne (fun hmem => absurd (hall _ hmem) (by decide)) (by simp) hbreak

end Headers

section Seen

namespace Reading

variable {r : Reading} {t : Tag} {inside outer : List Open} {o : Open}

def seen (r : Reading) : List Markup :=
  (settle r.pieces r.waiting).reverse

lemma seen_addText (r : Reading) (cs : List Char) : (r.addText cs).seen = r.seen ++ ofText cs := by
  simp [seen, addText, settle_append]

lemma settle_cons (m : Markup) (pieces : List Markup) (waiting : List Open) :
    settle (m :: pieces) waiting = m :: settle pieces waiting :=
  settle_append [m] pieces waiting

lemma seen_start (h : t.isEnd = false) :
    (r.addTag t).seen = r.seen ++ [element t.name t.attributes false []] := by
  rw [addTag, if_neg (by simp [h])]
  split
  · simp [seen, settle_cons]
  · simp [seen, settle, settle_cons]

lemma settle_split (pieces : List Markup) (inside outer : List Open) (o : Open) :
    settle pieces (inside ++ o :: outer) =
      settle pieces inside ++ element o.name o.attributes false [] :: settle o.before outer := by
  induction inside generalizing pieces with
  | nil =>
    rw [List.nil_append, settle, settle, settle_append, settle_cons]
  | cons v inside ih => exact ih _

lemma seen_split (h : r.waiting = inside ++ o :: outer) :
    r.seen = (settle o.before outer).reverse ++ element o.name o.attributes false [] ::
      (settle r.pieces inside).reverse := by
  simp [seen, h, settle_split]

lemma seen_close (hend : t.isEnd = true) (h : r.waiting = inside ++ o :: outer)
    (hinside : ∀ v ∈ inside, Token.sameIgnoringCase v.name t.name = false)
    (ho : Token.sameIgnoringCase o.name t.name = true) :
    (r.addTag t).seen = (settle o.before outer).reverse ++
      [element o.name o.attributes true (settle r.pieces inside).reverse] ∧
    (r.addTag t).waiting = outer ∧ (r.addTag t).unmatched = r.unmatched := by
  rw [addTag, if_pos hend, if_pos (by simp [h, ho]), h, close_eq hinside ho]
  simp [seen, settle_cons]

end Reading

end Seen

lemma exists_split {α : Type} {l : List α} {a : α} {i : Nat} (h : l[i]? = some a) :
    ∃ before after, l = before ++ a :: after ∧ before.length = i := by
  obtain ⟨hlt, rfl⟩ := List.getElem?_eq_some_iff.mp h
  exact ⟨l.take i, l.drop (i + 1), by simp, by simp [hlt.le]⟩

section Standing

variable {tags : List Tag} {closed closed' : Nat → Bool} {waiting outer inside : List Open}
  {places : List Nat} {o : Open} {t : Tag}

inductive Stand (tags : List Tag) (closed : Nat → Bool) : List Open → List Nat → Prop
  | nil : Stand tags closed [] []
  | cons {o : Open} {outer : List Open} {place : Nat} {places : List Nat} {t : Tag}
    (tag : tags[place]? = some t) (start : t.isEnd = false) (name : o.name = t.name)
    (attributes : o.attributes = t.attributes)
    (front : headersAll (Reading.settle o.before outer).reverse =
      startHeaders closed 0 (tags.take place))
    (inner : ∀ p ∈ places, p < place) (rest : Stand tags closed outer places) :
    Stand tags closed (o :: outer) (place :: places)

lemma Stand.congr {place : Nat} (h : Stand tags closed waiting places)
    (hplaces : ∀ p ∈ places, p < place) (hclosed : ∀ j < place, closed j = closed' j)
    (more : List Tag) : Stand (tags ++ more) closed' waiting places := by
  induction h with
  | nil => exact .nil
  | @cons o outer p places t tag start name attributes front inner rest ih =>
    rw [List.forall_mem_cons] at hplaces
    have hlt := (List.getElem?_eq_some_iff.mp tag).1
    refine .cons ?_ start name attributes ?_ inner (ih hplaces.2)
    · rwa [List.getElem?_append_left hlt]
    · rw [front, List.take_append_of_le_length hlt.le]
      apply startHeaders_congr
      intro j _ hj
      apply hclosed
      have := List.length_take_le p tags
      have := hplaces.1
      omega

lemma Stand.split (h : Stand tags closed (inside ++ o :: outer) places) :
    ∃ inner place rest, places = inner ++ place :: rest ∧
      Stand tags closed (o :: outer) (place :: rest) ∧ (∀ p ∈ inner, place < p) ∧
      ∀ p ∈ inner, ∃ v ∈ inside, ∃ t, tags[p]? = some t ∧ v.name = t.name := by
  induction inside generalizing places with
  | nil =>
    cases h with
    | cons tag start name attributes front inner rest =>
      exact ⟨[], _, _, rfl, .cons tag start name attributes front inner rest, by simp, by simp⟩
  | cons v inside ih =>
    cases h with
    | @cons _ _ p places t tag start name attributes front inner rest =>
      obtain ⟨before, place, after, rfl, hstand, hlt, hnames⟩ := ih rest
      refine ⟨p :: before, place, after, rfl, hstand, ?_, ?_⟩
      · exact List.forall_mem_cons.mpr ⟨inner place (by simp), hlt⟩
      · refine List.forall_mem_cons.mpr ⟨⟨v, by simp, t, tag, name⟩, fun q hq => ?_⟩
        obtain ⟨w, hw, hname⟩ := hnames q hq
        exact ⟨w, List.mem_cons_of_mem _ hw, hname⟩

lemma Stand.mem (h : Stand tags closed waiting places) :
    ∀ p ∈ places, ∃ v ∈ waiting, ∃ t, tags[p]? = some t ∧ v.name = t.name := by
  induction h with
  | nil => simp
  | cons tag start name attributes front inner rest ih =>
    refine List.forall_mem_cons.mpr ⟨⟨_, by simp, _, tag, name⟩, fun p hp => ?_⟩
    obtain ⟨v, hv, hname⟩ := ih p hp
    exact ⟨v, List.mem_cons_of_mem _ hv, hname⟩

end Standing

def isPaired (partners : List (Option Nat)) (i : Nat) : Bool :=
  partners.contains (some i)

section Telling

structure Reading.Tells (r : Reading) (tags : List Tag) (partners : List (Option Nat))
    (said : List Char) : Prop where
  pairs : Pairs tags partners
  plain : (plainAll r.seen).toList = said
  headers : headersAll r.seen = startHeaders (isPaired partners) 0 tags
  stand : ∃ places, Stand tags (isPaired partners) r.waiting places ∧
    ∀ i, Waits tags partners i tags.length ↔ i ∈ places
  unmatched : r.unmatched.toList = unpaired tags partners
  count : tags.countP (·.isEnd) = (headersAll r.seen).countP (·.closed) + r.unmatched.size

variable {r : Reading} {tags : List Tag} {partners : List (Option Nat)} {said : List Char} {t : Tag}

lemma tells_empty : Reading.Tells {} [] [] [] := by
  refine ⟨pairs_nil, rfl, rfl, ⟨[], .nil, fun i => ?_⟩, rfl, rfl⟩
  simpa using fun h : Waits [] [] i 0 => Nat.not_lt_zero i h.lt

lemma Reading.Tells.addText (h : r.Tells tags partners said) (cs : List Char) :
    (r.addText cs).Tells tags partners (said ++ cs) := by
  obtain ⟨hheaders, hplain⟩ := headersAll_ofText cs
  have hseen : headersAll (r.addText cs).seen = headersAll r.seen := by
    rw [Reading.seen_addText, headersAll_append, hheaders, List.append_nil]
  refine ⟨h.pairs, ?_, hseen ▸ h.headers, h.stand, h.unmatched, hseen ▸ h.count⟩
  rw [Reading.seen_addText, plainAll_append, String.toList_append, h.plain, hplain]

lemma isPaired_none : isPaired (partners ++ [none]) = isPaired partners := by
  funext i
  simp [isPaired]

lemma Pairs.not_isPaired (h : Pairs tags partners) {i : Nat} (hi : tags.length ≤ i) :
    isPaired partners i = false := by
  rw [isPaired, List.contains_eq_mem, decide_eq_false_iff_not]
  intro hmem
  obtain ⟨j, hj⟩ := List.mem_iff_getElem?.mp hmem
  have hlt := (List.getElem?_eq_some_iff.mp hj).1
  have := h.lt hj
  have := h.length
  omega

lemma Reading.Tells.stray (h : r.Tells tags partners said) (hend : t.isEnd = true)
    (hnone : ∀ v ∈ r.waiting, Token.sameIgnoringCase v.name t.name = false) :
    (r.addTag t).Tells (tags ++ [t]) (partners ++ [none]) said := by
  obtain ⟨places, hstand, hwaits⟩ := h.stand
  have hpairs : Pairs (tags ++ [t]) (partners ++ [none]) := by
    refine h.pairs.concat (fun _ => rfl) fun _ i => ⟨nofun, fun hgreatest => ?_⟩
    obtain ⟨hi, s, hs, hsame⟩ := hgreatest.1
    obtain ⟨v, hv, s', hs', hname⟩ := hstand.mem i ((hwaits i).mp hi)
    obtain rfl : s = s' := Option.some_inj.mp (hs.symm.trans hs')
    rw [← hname, hnone v hv] at hsame
    cases hsame
  have hadd : r.addTag t = { r with unmatched := r.unmatched.push t.name } := by
    rw [addTag, if_pos hend, if_neg]
    simpa using hnone
  have hseen : (r.addTag t).seen = r.seen := by rw [hadd]; rfl
  refine ⟨hpairs, hseen ▸ h.plain, ?_, ⟨places, ?_, fun i => ?_⟩, ?_, ?_⟩
  · rw [hseen, startHeaders_append, isPaired_none, h.headers]
    simp [startHeaders, hend]
  · rw [hadd, isPaired_none]
    exact hstand.congr (fun p hp => ((hwaits p).mpr hp).lt) (fun _ _ => rfl) [t]
  · rw [waits_length_concat h.pairs hpairs, hwaits]
    simp [hend]
  · rw [hadd, unpaired_concat h.pairs, ← h.unmatched]
    simp [hend]
  · rw [hseen, hadd, List.countP_append, h.count]
    simp [hend]
    omega

lemma Reading.Tells.start (h : r.Tells tags partners said) (hstart : t.isEnd = false) :
    (r.addTag t).Tells (tags ++ [t]) (partners ++ [none]) said := by
  obtain ⟨places, hstand, hwaits⟩ := h.stand
  have hpairs : Pairs (tags ++ [t]) (partners ++ [none]) :=
    h.pairs.concat (fun _ => rfl) (by simp [hstart])
  have hheaders : headersAll (r.addTag t).seen =
      headersAll r.seen ++ [{ name := t.name, attributes := t.attributes, closed := false }] := by
    rw [Reading.seen_start hstart, headersAll_append]
    rfl
  have hunmatched : (r.addTag t).unmatched = r.unmatched := by
    rw [addTag, if_neg (by simp [hstart])]
    split <;> rfl
  have hlater : Stand (tags ++ [t]) (isPaired (partners ++ [none])) r.waiting places :=
    hstand.congr (fun p hp => ((hwaits p).mpr hp).lt) (fun _ _ => by rw [isPaired_none]) [t]
  refine ⟨hpairs, ?_, ?_, ?_, ?_, ?_⟩
  · rw [Reading.seen_start hstart, plainAll_append, String.toList_append, h.plain]
    simp [plainAll, Markup.plain]
  · rw [hheaders, startHeaders_append, isPaired_none, h.headers]
    simp [startHeaders, hstart, h.pairs.not_isPaired le_rfl]
  · cases hwhole : t.isWhole with
    | true =>
      refine ⟨places, ?_, fun i => ?_⟩
      · rwa [addTag, if_neg (by simp [hstart]), if_pos hwhole]
      · rw [waits_length_concat h.pairs hpairs, hwaits]
        simp [hwhole]
    | false =>
      refine ⟨tags.length :: places, ?_, fun i => ?_⟩
      · rw [addTag, if_neg (by simp [hstart]), if_neg (by simp [hwhole])]
        refine .cons List.getElem?_concat_length hstart rfl rfl ?_
          (fun p hp => ((hwaits p).mpr hp).lt) hlater
        rw [List.take_left, isPaired_none, ← h.headers]
        rfl
      · rw [waits_length_concat h.pairs hpairs, hwaits, List.mem_cons, or_comm]
        simp [hstart, hwhole]
  · rw [hunmatched, h.unmatched, unpaired_concat h.pairs]
    simp [hstart]
  · rw [hheaders, hunmatched, List.countP_append, List.countP_append, h.count]
    simp [hstart]

lemma isGreatest_candidates {inner rest : List Nat} {place : Nat} {s : Tag} {name : String}
    (hwaits : ∀ i, Waits tags partners i tags.length ↔ i ∈ inner ++ place :: rest)
    (htag : tags[place]? = some s) (hname : Token.sameIgnoringCase s.name name = true)
    (hinner : ∀ i ∈ inner, ∀ v, tags[i]? = some v → Token.sameIgnoringCase v.name name = false)
    (hrest : ∀ i ∈ rest, i < place) :
    IsGreatest (candidates tags partners name tags.length) place := by
  refine ⟨⟨(hwaits place).mpr (by simp), s, htag, hname⟩, ?_⟩
  rintro i ⟨hi, v, hv, hsame⟩
  rcases List.mem_append.mp ((hwaits i).mp hi) with hi | hi
  · rw [hinner i hi v hv] at hsame
    cases hsame
  · rcases List.mem_cons.mp hi with rfl | hi
    · exact le_rfl
    · exact (hrest i hi).le

lemma Reading.Tells.close (h : r.Tells tags partners said) (hend : t.isEnd = true)
    {inside outer : List Open} {o : Open} (hwaiting : r.waiting = inside ++ o :: outer)
    (hinside : ∀ v ∈ inside, Token.sameIgnoringCase v.name t.name = false)
    (ho : Token.sameIgnoringCase o.name t.name = true) :
    ∃ place, (r.addTag t).Tells (tags ++ [t]) (partners ++ [some place]) said := by
  obtain ⟨places, hstand, hwaits⟩ := h.stand
  rw [hwaiting] at hstand
  obtain ⟨inner, place, rest, rfl, hplace, hlt, hnames⟩ := hstand.split
  cases hplace with
  | @cons _ _ _ _ s htag hstart hname hattributes hfront hrest houter =>
  have hpairs : Pairs (tags ++ [t]) (partners ++ [some place]) := by
    refine h.pairs.concat (by simp [hend]) fun _ i => ?_
    -- the element that is closed belongs to the last start tag that waits with this name
    have hgreatest : IsGreatest (candidates tags partners t.name tags.length) place := by
      refine isGreatest_candidates hwaits htag (hname ▸ ho) (fun i hi w hw => ?_) hrest
      obtain ⟨v, hv, w', hw', hv'⟩ := hnames i hi
      obtain rfl : w = w' := Option.some_inj.mp (hw.symm.trans hw')
      exact hv' ▸ hinside v hv
    rw [Option.some_inj]
    exact ⟨fun heq => heq ▸ hgreatest, hgreatest.unique⟩
  obtain ⟨hseen, hwaitingEq, hunmatched⟩ := Reading.seen_close hend hwaiting hinside ho
  have hclosed : ∀ j, j ≠ place → isPaired partners j = isPaired (partners ++ [some place]) j :=
    fun j hj => by simp [isPaired, hj]
  obtain ⟨before, after, rfl, rfl⟩ := exists_split htag
  rw [List.take_left] at hfront
  -- what the element holds was read from the tags behind its own
  have hinner : headersAll (Reading.settle r.pieces inside).reverse =
      startHeaders (isPaired partners) (before.length + 1) after := by
    have hheaders := h.headers
    rw [Reading.seen_split hwaiting, headersAll_append, hfront, startHeaders_append,
      List.append_cancel_left_eq, startHeaders, if_neg (by simp [hstart]), Nat.zero_add] at hheaders
    exact (List.cons.inj hheaders).2
  refine ⟨before.length, hpairs, ?_, ?_, ⟨rest, ?_, fun i => ?_⟩, ?_, ?_⟩
  · rw [← h.plain, hseen, Reading.seen_split hwaiting, plainAll_append, plainAll_append]
    simp [plainAll, Markup.plain]
  · have hself : isPaired (partners ++ [some before.length]) before.length = true := by
      simp [isPaired]
    have hbefore : startHeaders (isPaired partners) 0 before =
        startHeaders (isPaired (partners ++ [some before.length])) 0 before :=
      startHeaders_congr fun j _ hj => hclosed j (by omega)
    have hafter : startHeaders (isPaired partners) (before.length + 1) after =
        startHeaders (isPaired (partners ++ [some before.length])) (before.length + 1) after :=
      startHeaders_congr fun j hj _ => hclosed j (by omega)
    rw [hseen, headersAll_append, hfront, startHeaders_append, startHeaders_append, hbefore]
    simp [headersAll, Markup.headers, hinner, hafter, startHeaders, hstart, hend, hname,
      hattributes, hself]
  · rw [hwaitingEq]
    exact houter.congr hrest (fun j hj => hclosed j hj.ne) [t]
  · rw [waits_length_concat h.pairs hpairs, hwaits]
    simp only [hend, Option.some.injEq, forall_eq', List.mem_append, List.mem_cons]
    constructor
    · rintro (⟨hi | rfl | hi, hbefore⟩ | ⟨-, hstart, -⟩)
      · have := hlt i hi
        omega
      · exact absurd hbefore (Nat.lt_irrefl _)
      · exact hi
      · cases hstart
    · intro hi
      exact .inl ⟨.inr (.inr hi), hrest i hi⟩
  · rw [hunmatched, h.unmatched, unpaired_concat h.pairs]
    simp
  · rw [hseen, hunmatched, List.countP_append, h.count, Reading.seen_split hwaiting]
    simp [headersAll_append, headersAll, Markup.headers, hend]
    omega

lemma Reading.Tells.addTag (h : r.Tells tags partners said) (t : Tag) :
    ∃ x, (r.addTag t).Tells (tags ++ [t]) (partners ++ [x]) said := by
  cases hend : t.isEnd with
  | false => exact ⟨none, h.start hend⟩
  | true =>
    cases hfind : r.waiting.find? fun o => Token.sameIgnoringCase o.name t.name with
    | none =>
      rw [List.find?_eq_none] at hfind
      exact ⟨none, h.stray hend fun v hv => (Bool.not_eq_true _).mp (hfind v hv)⟩
    | some o =>
      obtain ⟨ho, inside, outer, hwaiting, hinside⟩ := List.find?_eq_some_iff_append.mp hfind
      obtain ⟨place, hplace⟩ :=
        h.close hend hwaiting (fun v hv => by simpa using hinside v hv) ho
      exact ⟨some place, hplace⟩

lemma Reading.Tells.addParts (h : r.Tells tags partners said) (parts : List (List Char × Tag)) :
    ∃ more, (parts.foldl Reading.addPart r).Tells (tags ++ parts.map (·.2)) (partners ++ more)
      (said ++ parts.flatMap (·.1)) := by
  induction parts generalizing r tags partners said with
  | nil => exact ⟨[], by simpa using h⟩
  | cons part parts ih =>
    obtain ⟨x, hx⟩ := (h.addText part.1).addTag part.2
    obtain ⟨more, hmore⟩ := ih hx
    exact ⟨x :: more, by simpa [Reading.addPart] using hmore⟩

end Telling

/-- Reading loses and reorders nothing. A text is cut at its tags in one way, and its end tags
belong to start tags in one way. What is read has the text between the tags as its plain text and
the start tags in their order as its elements, and those elements are closed to whose start tag an
end tag belongs. Each of the other end tags gives a warning. -/
theorem read_faithful (span : Span) (cs : List Char) :
    ∃ parts last partners, (∀ ps l, Tagged cs ps l ↔ ps = parts ∧ l = last) ∧
      (∀ ps, Pairs (parts.map (·.2)) ps ↔ ps = partners) ∧
      (plainAll (readAt span cs).1).toList = parts.flatMap (·.1) ++ last ∧
      headersAll (readAt span cs).1 = startHeaders (isPaired partners) 0 (parts.map (·.2)) ∧
      (readAt span cs).2 = (unpaired (parts.map (·.2)) partners).map
        (fun name => { issue := .unmatchedEndTag name, span }) ∧
      (parts.map (·.2)).countP (·.isEnd) =
        (headersAll (readAt span cs).1).countP (·.closed) + (readAt span cs).2.length := by
  obtain ⟨parts, last, hparts⟩ := exists_tagged cs
  obtain ⟨partners, htells⟩ := tells_empty.addParts parts
  have htells := htells.addText last
  rw [List.nil_append, List.nil_append, List.nil_append] at htells
  have hread : readAt span cs = (((parts.foldl Reading.addPart {}).addText last).seen,
      (unpaired (parts.map (·.2)) partners).map
        fun name => { issue := .unmatchedEndTag name, span }) := by
    rw [readAt, hparts.read_eq, ← htells.unmatched]
    rfl
  refine ⟨parts, last, partners, fun ps l => ⟨hparts.unique, ?_⟩,
    fun ps => ⟨htells.pairs.unique, ?_⟩, ?_, ?_, ?_, ?_⟩
  · rintro ⟨rfl, rfl⟩
    exact hparts
  · rintro rfl
    exact htells.pairs
  · rw [hread, htells.plain]
  · rw [hread, htells.headers]
  · rw [hread]
  · rw [hread, htells.count, List.length_map, ← htells.unmatched]
    rfl

end Stagecraft.Markup
