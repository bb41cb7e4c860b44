import Stagecraft.Proofs.Script.Lexemes

namespace Stagecraft

open Shape Lexeme

def isNumeralChar (c : Char) : Bool :=
  c.isDigit || ['@', '-', '.', 'N', 'a', 'i', 'n', 'f'].contains c

def IsNumeral (cs : List Char) : Prop :=
  ∀ c ∈ cs, isNumeralChar c = true

section Numeral

variable {a b : List Char}

lemma IsNumeral.append (ha : IsNumeral a) (hb : IsNumeral b) : IsNumeral (a ++ b) :=
  fun c hc => (List.mem_append.mp hc).elim (ha c) (hb c)

lemma IsNumeral.subset (hb : IsNumeral b) (h : a ⊆ b) : IsNumeral a :=
  fun c hc => hb c (h hc)

lemma isNumeral_toDigits (n : Nat) : IsNumeral (Nat.toDigits 10 n) := fun c hc => by
  rw [isNumeralChar, Nat.isDigit_of_mem_toDigits (by decide) (by decide) hc, Bool.true_or]

lemma isNumeral_zeros (n : Nat) : IsNumeral (Number.zeros n) := fun c hc => by
  rw [Number.zeros, List.mem_replicate] at hc
  rw [hc.2]
  decide

lemma isNumeral_of_all (h : a.all isNumeralChar = true) : IsNumeral a :=
  List.all_eq_true.mp h

lemma isNumeral_toString (n : Int) : IsNumeral (toString n).toList := by
  have hnat (n : Nat) : (toString n).toList = Nat.toDigits 10 n := String.toList_ofList
  cases n with
  | ofNat n => exact hnat n ▸ isNumeral_toDigits n
  | negSucc n =>
    rw [show toString (Int.negSucc n) = "-" ++ toString (n + 1) from rfl, String.toList_append,
      hnat]
    exact (isNumeral_of_all (by decide)).append (isNumeral_toDigits _)

lemma isNumeral_positional (d : Number.Decimal) : IsNumeral (Number.positional false d) := by
  have hdigits := isNumeral_toDigits d.digits
  unfold Number.positional
  simp only
  split
  · exact (hdigits.append (isNumeral_zeros _)).append (isNumeral_of_all (by decide))
  · split
    · exact ((isNumeral_of_all (by decide)).append (isNumeral_zeros _)).append hdigits
    · exact ((hdigits.subset (List.take_subset _ _)).append (isNumeral_of_all (by decide))).append
        (hdigits.subset (List.drop_subset _ _))

lemma isNumeral_plain (x : Float) : IsNumeral (Number.Layout.plain.render x).toList := by
  unfold Number.Layout.render
  split
  · exact isNumeral_of_all (by decide)
  · split <;> exact isNumeral_of_all (by decide)
  · next negative m e _ =>
    have hplain (d : Number.Decimal) : Number.Layout.plain.isPositional d = true := by
      simp [Number.Layout.isPositional, Number.Layout.plain]
    simp only [hplain, if_true, String.toList_ofList]
    cases negative
    · exact isNumeral_positional _
    · exact (isNumeral_of_all (a := ['-']) (by decide)).append (isNumeral_positional _)

lemma isNumeral_display (x : Float) : IsNumeral (Number.display x).toList := by
  unfold Number.display
  split
  · exact isNumeral_toString _
  · exact isNumeral_plain x

end Numeral

namespace Lexeme

inductive IsDecimal : List Char → Prop
  | whole {cs : List Char} : cs ≠ [] → (∀ c ∈ cs, c.isDigit = true) → IsDecimal cs
  | point {cs places : List Char} : places ≠ [] → (∀ c ∈ cs, c.isDigit = true) →
    (∀ c ∈ places, c.isDigit = true) → IsDecimal (cs ++ '.' :: places)

lemma not_isDigit_of_apart {rest : List Char} (h : Apart rest) :
    ∀ c ∈ rest.head?, c.isDigit = false := by
  intro c hc
  by_contra hdigit
  rw [Bool.not_eq_false] at hdigit
  exact Bool.false_ne_true ((h c hc).1.symm.trans (isNameChar_of_isDigit hdigit))

lemma IsDecimal.ne_hex {cs rest more : List Char} {x : Char} (h : IsDecimal cs)
    (hrest : Apart rest) (heq : cs ++ rest = '0' :: x :: more) : x ≠ 'x' ∧ x ≠ 'X' := by
  have hcs : cs ≠ [] ∧ ∀ c ∈ cs, c.isDigit = true ∨ c = '.' := by
    cases h with
    | whole hne hall => exact ⟨hne, fun c hc => .inl (hall c hc)⟩
    | point hne hwhole hplaces =>
      refine ⟨by simp, fun c hc => ?_⟩
      simp only [List.mem_append, List.mem_cons] at hc
      rcases hc with hc | rfl | hc
      · exact .inl (hwhole c hc)
      · exact .inr rfl
      · exact .inl (hplaces c hc)
  obtain ⟨hne, hall⟩ := hcs
  obtain ⟨c, cs, rfl⟩ := List.exists_cons_of_ne_nil hne
  rw [List.cons_append] at heq
  have htail : cs ++ rest = x :: more := (List.cons.inj heq).2
  cases cs with
  | nil =>
    have hx := (hrest x (by rw [← List.nil_append rest, htail]; rfl)).1
    constructor <;> rintro rfl <;> exact absurd hx (by decide)
  | cons d cs =>
    obtain rfl : d = x := (List.cons.inj htail).1
    have hd := hall d (by simp)
    constructor <;> rintro rfl <;> exact absurd hd (by decide)

def decimal (cs : List Char) : List Char × List Char :=
  match cs.dropWhile Char.isDigit with
  | '.' :: more =>
    if (more.takeWhile Char.isDigit).isEmpty then
      (cs.takeWhile Char.isDigit, cs.dropWhile Char.isDigit)
    else
      (cs.takeWhile Char.isDigit ++ '.' :: more.takeWhile Char.isDigit,
        more.dropWhile Char.isDigit)
  | _ => (cs.takeWhile Char.isDigit, cs.dropWhile Char.isDigit)

lemma number_eq_decimal {cs : List Char}
    (h : ∀ x more, cs = '0' :: x :: more → x ≠ 'x' ∧ x ≠ 'X') :
    number cs =
      ((decimal cs).1, (decimal cs).2, some ((Number.read (decimal cs).1).getD 0.0)) := by
  unfold number
  split
  · next x more =>
    obtain ⟨hlower, hupper⟩ := h x more rfl
    simp only [beq_iff_eq, hlower, hupper, or_self, Bool.or_eq_true, if_false]
    rfl
  · rfl

lemma decimal_append {cs rest : List Char} (h : IsDecimal cs) (hrest : Apart rest) :
    decimal (cs ++ rest) = (cs, rest) := by
  have hdigit := not_isDigit_of_apart hrest
  cases h with
  | whole hne hall =>
    rw [decimal, Text.takeWhile_apart hall hdigit, Text.dropWhile_apart hall hdigit]
    split
    · next more => exact absurd rfl (hrest '.' rfl).2
    · rfl
  | @point cs places hne hwhole hplaces =>
    have hpoint : ∀ c ∈ ('.' :: (places ++ rest)).head?, c.isDigit = false := by
      intro c hc
      cases hc
      decide
    rw [decimal, List.append_assoc, List.cons_append, Text.takeWhile_apart hwhole hpoint,
      Text.dropWhile_apart hwhole hpoint]
    simp only [Text.takeWhile_apart hplaces hdigit, Text.dropWhile_apart hplaces hdigit]
    simp [hne]

lemma numeric_append {lead cs rest : List Char} {make : Float → TokenValue} (h : IsDecimal cs)
    (hrest : Apart rest) : numeric lead make (cs ++ rest) =
      { kind := .numericLiteral, value := make ((Number.read cs).getD 0.0), chars := lead ++ cs,
        rest } := by
  rw [numeric, number_eq_decimal fun x more => h.ne_hex hrest, decimal_append h hrest]
  rfl

lemma isDecimal_of_decimal {cs : List Char} (hne : cs ≠ []) (h : (decimal cs).2 = []) :
    IsDecimal cs := by
  have hwhole : ∀ c ∈ cs.takeWhile Char.isDigit, c.isDigit = true :=
    fun c hc => List.mem_takeWhile_imp hc
  have hcs := List.takeWhile_append_dropWhile (p := Char.isDigit) (l := cs)
  unfold decimal at h
  split at h
  · next more hpoint =>
    split at h
    · cases hpoint.symm.trans h
    · next hplaces =>
      have hmore := List.takeWhile_append_dropWhile (p := Char.isDigit) (l := more)
      rw [show more.dropWhile Char.isDigit = [] from h, List.append_nil] at hmore
      rw [← hcs, hpoint, ← hmore]
      exact .point (by simpa using hplaces) hwhole fun c hc => List.mem_takeWhile_imp hc
  · rw [show cs.dropWhile Char.isDigit = [] from h, List.append_nil] at hcs
    exact .whole hne (hcs ▸ hwhole)

lemma ne_hex_of_isNumeral {cs : List Char} (h : IsNumeral cs) (x : Char) (more : List Char)
    (heq : cs = '0' :: x :: more) : x ≠ 'x' ∧ x ≠ 'X' := by
  have hx := h x (by simp [heq])
  constructor <;> rintro rfl <;> exact absurd hx (by decide)

lemma isDecimal_of_numeric {lead cs : List Char} {make : Float → TokenValue} (hne : cs ≠ [])
    (hcs : IsNumeral cs) (h : (numeric lead make cs).rest = []) : IsDecimal cs := by
  rw [numeric, number_eq_decimal (ne_hex_of_isNumeral hcs)] at h
  exact isDecimal_of_decimal hne h

lemma rest_numeric_subset {lead cs : List Char} {make : Float → TokenValue} (hcs : IsNumeral cs) :
    (numeric lead make cs).rest ⊆ cs := by
  rw [numeric, number_eq_decimal (ne_hex_of_isNumeral hcs)]
  change (decimal cs).2 ⊆ cs
  have hwhole : cs.dropWhile Char.isDigit ⊆ cs := (List.dropWhile_sublist _).subset
  unfold decimal
  split
  · next more hpoint =>
    split
    · exact hwhole
    · rw [hpoint] at hwhole
      exact fun c hc => hwhole (.tail _ ((List.dropWhile_sublist _).subset hc))
  · exact hwhole

lemma delta_numeric {ds : List Char} (h : (delta ('@' :: ds)).kind = .numericLiteral) :
    ∃ lead make body, body ≠ [] ∧ body ⊆ ds ∧
      ∀ rest, delta ('@' :: (ds ++ rest)) = numeric lead make (body ++ rest) := by
  cases ds with
  | nil => cases h
  | cons d ds =>
    by_cases hsign : d = '-' ∨ d = '+'
    · cases ds with
      | nil => rcases hsign with rfl | rfl <;> cases h
      | cons c body =>
        by_cases hc : c.isDigit = true
        · rcases hsign with rfl | rfl <;>
            exact ⟨_, _, c :: body, by simp, by simp, fun rest => by simp [delta, hc]; rfl⟩
        · rcases hsign with rfl | rfl <;> simp [delta, hc] at h
    · rw [not_or] at hsign
      by_cases hd : d.isDigit = true
      · exact ⟨_, _, d :: ds, by simp, by simp, fun rest => by simp [delta, hsign, hd]; rfl⟩
      · simp [delta, hsign, hd] at h

lemma kind_word (cs : List Char) :
    (word cs).kind = .identifier ∨ (word cs).kind ∈ TokenKind.keywords.map Prod.snd := by
  unfold word
  simp only
  split
  · next kind hkind => exact .inr (List.mem_map.mpr ⟨_, mem_keywords hkind, rfl⟩)
  · exact .inl rfl

lemma opening_of_endOfFile {c : Char} {tail : List Char} {l : Lexeme} (h : Coded c tail l)
    (hkind : l.kind = .endOfFile) : c = '"' ∨ c = '<' := by
  cases h with
  | quoted hc => exact .inl hc
  | directive => simpa [hkind] using kind_includeDirective (c :: tail)
  | sigiled => simpa [hkind] using kind_sigiled c tail
  | delta => simpa [hkind] using kind_delta (c :: tail)
  | number => simp [numeric] at hkind
  | word =>
    have hword := kind_word (c :: tail)
    rw [hkind] at hword
    exact absurd hword (by decide)
  | tag hc _ => exact .inr hc
  | operator => simpa [hkind] using kind_operator c tail

lemma opening_of_numericLiteral {c : Char} {tail : List Char} {l : Lexeme} (h : Coded c tail l)
    (hkind : l.kind = .numericLiteral) :
    (c.isDigit = true ∧ l = numeric [] .number (c :: tail)) ∨
      (c = '@' ∧ l = delta (c :: tail)) := by
  cases h with
  | quoted => simpa [hkind] using kind_quoted (c :: tail)
  | directive => simpa [hkind] using kind_includeDirective (c :: tail)
  | sigiled => simpa [hkind] using kind_sigiled c tail
  | delta hc => exact .inr ⟨hc, rfl⟩
  | number hc => exact .inl ⟨hc, rfl⟩
  | word =>
    have hword := kind_word (c :: tail)
    rw [hkind] at hword
    exact absurd hword (by decide)
  | tag _ htag => simpa [hkind] using kind_tag htag
  | operator => simpa [hkind] using kind_operator c tail

lemma code_digit {previous : Option TokenKind} {c : Char} {rest : List Char}
    (h : c.isDigit = true) : code previous c rest = numeric [] .number (c :: rest) := by
  have hne {d : Char} (hd : d.isDigit = false) : c ≠ d := by
    rintro rfl
    exact Bool.false_ne_true (hd.symm.trans h)
  have hquote := hne (by decide : '"'.isDigit = false)
  have hdollar := hne (by decide : '$'.isDigit = false)
  have hhash := hne (by decide : '#'.isDigit = false)
  have hat := hne (by decide : '@'.isDigit = false)
  simp [code, isSigil, hquote, hdollar, hhash, hat, h]

lemma solid_of_isNumeralChar {c : Char} {rest : List Char} (h : isNumeralChar c = true) :
    Solid c rest := by
  rw [isNumeralChar, Bool.or_eq_true] at h
  rcases h with h | h
  · exact ⟨isBlank_of_isDigit h, by rintro rfl; cases h⟩
  · simp only [List.contains_iff_mem, List.mem_cons, List.not_mem_nil, or_false] at h
    rcases h with rfl | rfl | rfl | rfl | rfl | rfl | rfl | rfl <;>
      exact ⟨by decide, by simp⟩

end Lexeme

section Numeral

variable {s : Scanner}

lemma Scanner.skipTrivia_numeral (h : IsNumeral s.rest) : s.skipTrivia = s := by
  cases hs : s.rest with
  | nil => exact skipTrivia_nil hs
  | cons c tail =>
    exact skipTrivia_solid hs (solid_of_isNumeralChar (h c (by simp [hs])))

lemma Scanner.rest_of_next_end (hm : s.modes = [.code]) (h : IsNumeral s.rest)
    (hend : s.next.1.kind = .endOfFile) : s.rest = [] := by
  cases hs : s.rest with
  | nil => rfl
  | cons c tail =>
    have hc := h c (by simp [hs])
    rw [next_cons (hm ▸ trivial) (by rw [skipTrivia_numeral h, hs]), accept_kind] at hend
    rcases opening_of_endOfFile (coded _ c tail) hend with rfl | rfl <;> exact absurd hc (by decide)

end Numeral

theorem spells_numeral {text : String} {value : TokenValue}
    (h : ReadsAs text (.numericLiteral, value)) (htext : IsNumeral text.toList) :
    Spells Apart text [(.numericLiteral, value)] := by
  obtain ⟨previous, c, tail, htrivia, hshape, s, hs, hmodes, hend⟩ := h.first (by simp) (by simp)
  rw [Scanner.skipTrivia_numeral htext] at htrivia
  have hcs : text.toList = c :: tail := htrivia
  rw [hcs] at htext
  rw [Prod.mk.injEq] at hshape
  obtain ⟨lead, make, body, hne, hbody, hcode⟩ : ∃ lead make body, body ≠ [] ∧ IsNumeral body ∧
      ∀ previous rest, code previous c (tail ++ rest) = numeric lead make (body ++ rest) := by
    rcases opening_of_numericLiteral (coded previous c tail) hshape.1.symm with
      ⟨hdigit, -⟩ | ⟨rfl, hdelta⟩
    · exact ⟨[], .number, c :: tail, by simp, htext, fun _ _ => code_digit hdigit⟩
    · obtain ⟨lead, make, body, hne, hsub, hnumeric⟩ :=
        delta_numeric (hdelta ▸ hshape.1.symm)
      exact ⟨lead, make, body, hne, htext.subset fun d hd => .tail _ (hsub hd),
        fun _ rest => hnumeric rest⟩
  have halone := hcode previous []
  rw [List.append_nil, List.append_nil] at halone
  rw [halone] at hs hshape
  have hrest := Scanner.rest_of_next_end hmodes
    (hs ▸ hbody.subset (rest_numeric_subset hbody)) hend
  have hdecimal := isDecimal_of_numeric hne hbody (hs ▸ hrest)
  have hvalue : value = make ((Number.read body).getD 0.0) := by
    have hwhole := @numeric_append lead body [] make hdecimal (by simp [Apart])
    rw [body.append_nil] at hwhole
    rw [hshape.2, hwhole]
  refine spells_of_starts (by simp [braces]) fun rest hapart => ⟨c, tail ++ rest, by simp [hcs],
    solid_of_isNumeralChar (htext c (by simp)), fun previous => ⟨lead ++ body, ?_⟩, by simp,
    by simp⟩
  rw [hcode, numeric_append hdecimal hapart, hvalue]

lemma opening_numeral {text : String} {value : TokenValue}
    (h : ReadsAs text (.numericLiteral, value)) (htext : IsNumeral text.toList) :
    ∃ c tail, text.toList = c :: tail ∧ (c.isDigit = true ∨ c = '@') := by
  obtain ⟨previous, c, tail, htrivia, hshape, -⟩ := h.first (by simp) (by simp)
  rw [Scanner.skipTrivia_numeral htext] at htrivia
  have hopening :=
    opening_of_numericLiteral (coded previous c tail) (congrArg Prod.fst hshape).symm
  exact ⟨c, tail, htrivia, hopening.imp And.left And.left⟩

end Stagecraft
