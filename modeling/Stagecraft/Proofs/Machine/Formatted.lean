import Mathlib
import Stagecraft.Machine.Builtin
import Stagecraft.Proofs.Basic
import Stagecraft.Proofs.Text

/-!
A format is read in one way as directives and characters between them. The characters are copied,
and the directives take the values one after another.
-/

namespace Stagecraft.Format

structure Spelling where
  alignLeft : Bool
  fillZero : Bool
  width : List Char
  places : List Char
  conversion : Char

def conversions : List Char :=
  ['d', 's', 'f', 'x', 'X', '%']

namespace Spelling

def afterWidth (s : Spelling) : List Char :=
  (if s.places.isEmpty then [] else '.' :: s.places) ++ [s.conversion]

def afterMinus (s : Spelling) : List Char :=
  (if s.fillZero then ['0'] else []) ++ (s.width ++ s.afterWidth)

def chars (s : Spelling) : List Char :=
  (if s.alignLeft then ['-'] else []) ++ s.afterMinus

def directive (s : Spelling) : Directive where
  alignLeft := s.alignLeft
  fillZero := s.fillZero
  width := (number? s.width).getD 0
  precision := if s.places.isEmpty then none else number? s.places
  conversion := s.conversion

structure Proper (s : Spelling) : Prop where
  width : ∀ c ∈ s.width, Text.isDecimalDigit c = true
  zero : s.fillZero = false → ∀ c ∈ s.width.head?, c ≠ '0'
  places : ∀ c ∈ s.places, Text.isDecimalDigit c = true
  conversion : s.conversion ∈ conversions

end Spelling

inductive Piece where
  | plain (c : Char)
  | directive (s : Spelling)

/-- A format taken apart from left to right; a percent sign is copied only where no directive
starts. -/
inductive Parts : List Char → List Piece → Prop
  | nil : Parts [] []
  | plain {c cs pieces} (hc : c = '%' → ∀ (s : Spelling) rest, s.Proper → cs ≠ s.chars ++ rest)
      (h : Parts cs pieces) : Parts (c :: cs) (.plain c :: pieces)
  | directive {s rest pieces} (hs : Spelling.Proper s) (h : Parts rest pieces) :
      Parts ('%' :: (s.chars ++ rest)) (.directive s :: pieces)

def filled (lack : Directive → List Char) (d : Directive) : Option Value → List Char
  | some v => pad d (body d v)
  | none => lack d

def written (lack : Directive → List Char) : List Piece → List Value → List Char
  | [], _ => []
  | .plain c :: rest, values => c :: written lack rest values
  | .directive s :: rest, values =>
    if s.conversion = '%' then '%' :: written lack rest values
    else filled lack s.directive values.head? ++ written lack rest values.tail

def surplus : List Piece → List Value → List Directive
  | [], _ => []
  | .plain _ :: rest, values => surplus rest values
  | .directive s :: rest, values =>
    if s.conversion = '%' then surplus rest values
    else (if values.isEmpty then [s.directive] else []) ++ surplus rest values.tail

def Fills (lack : Directive → List Char) (format : String) (values : List Value) (text : String) :
    Prop :=
  ∃ pieces, Parts format.toList pieces ∧ text.toList = written lack pieces values

def bare (d : Directive) : List Char :=
  if d.conversion = 's' then []
  else if d.conversion = 'f' ∧ d.precision.getD 6 ≠ 0 then
    '0' :: '.' :: List.replicate (d.precision.getD 6) '0'
  else ['0']

section Reading

variable {cs rest : List Char} {c : Char} {s : Spelling}

lemma flag_of_head (h : ∀ d ∈ cs.head?, d ≠ c) : flag c cs = (false, cs) := by
  cases cs with
  | nil => rfl
  | cons d cs =>
    have hne : (c == d) = false := beq_eq_false_iff_ne.mpr (h d rfl).symm
    rw [flag, hne]
    rfl

lemma eq_of_flag {set : Bool} (h : flag c cs = (set, rest)) :
    cs = (if set then [c] else []) ++ rest ∧ (set = false → ∀ d ∈ rest.head?, d ≠ c) := by
  unfold flag at h
  split at h
  · next d more =>
    split at h
    · next heq =>
      cases h
      obtain rfl := eq_of_beq heq
      exact ⟨rfl, nofun⟩
    · next hne =>
      cases h
      refine ⟨rfl, fun _ d' hd heq => hne ?_⟩
      rw [← heq, Option.mem_some.mp hd]
      exact beq_self_eq_true d'
  · cases h
    exact ⟨rfl, fun _ => by simp⟩

lemma conversions_apart : ∀ c ∈ conversions,
    Text.isDecimalDigit c = false ∧ c ≠ '.' ∧ c ≠ '0' ∧ c ≠ '-' := by
  simp [conversions, Text.isDecimalDigit]

lemma eq_of_precision {places : List Char} (h : precision cs = (places, rest)) :
    cs = (if places.isEmpty then [] else '.' :: places) ++ rest ∧
      ∀ c ∈ places, Text.isDecimalDigit c = true := by
  unfold precision at h
  split at h
  · next more =>
    dsimp only at h
    split at h
    · cases h
      exact ⟨rfl, by simp⟩
    · next hne =>
      cases h
      refine ⟨?_, fun c hc => List.mem_takeWhile_imp hc⟩
      rw [if_neg hne, List.cons_append, List.takeWhile_append_dropWhile]
  · cases h
    exact ⟨rfl, by simp⟩

end Reading

namespace Spelling.Proper

variable {s s' : Spelling}

lemma precision_afterWidth (hs : s.Proper) (rest : List Char) :
    precision (s.afterWidth ++ rest) = (s.places, s.conversion :: rest) := by
  obtain ⟨hdigit, hpoint, -, -⟩ := conversions_apart _ hs.conversion
  have hplaces := hs.places
  unfold afterWidth
  cases hp : s.places with
  | nil =>
    change precision (s.conversion :: rest) = _
    unfold precision
    split
    · next heq => exact absurd (List.cons.inj heq).1 hpoint
    · rfl
  | cons p places =>
    rw [hp] at hplaces
    have hrest : (if (p :: places).isEmpty then [] else '.' :: p :: places) ++ [s.conversion] ++
        rest = '.' :: (p :: places ++ s.conversion :: rest) := by simp
    rw [hrest, precision, Text.takeWhile_first hplaces hdigit, Text.dropWhile_first hplaces hdigit]
    rfl

lemma head_afterWidth (hs : s.Proper) (rest : List Char) :
    ∀ c ∈ (s.afterWidth ++ rest).head?,
      Text.isDecimalDigit c = false ∧ c ≠ '-' ∧ c ≠ '0' := by
  obtain ⟨hdigit, -, hzero, hminus⟩ := conversions_apart _ hs.conversion
  unfold afterWidth
  cases s.places with
  | nil => simp [hdigit, hzero, hminus]
  | cons p places => simp [Text.isDecimalDigit]

lemma takeWhile_width (hs : s.Proper) (rest : List Char) :
    (s.width ++ (s.afterWidth ++ rest)).takeWhile Text.isDecimalDigit = s.width :=
  Text.takeWhile_apart hs.width fun c hc => (hs.head_afterWidth rest c hc).1

lemma dropWhile_width (hs : s.Proper) (rest : List Char) :
    (s.width ++ (s.afterWidth ++ rest)).dropWhile Text.isDecimalDigit = s.afterWidth ++ rest :=
  Text.dropWhile_apart hs.width fun c hc => (hs.head_afterWidth rest c hc).1

lemma head_width (hs : s.Proper) (rest : List Char) :
    ∀ c ∈ (s.width ++ (s.afterWidth ++ rest)).head?,
      c ≠ '-' ∧ (s.fillZero = false → c ≠ '0') := by
  have hwidth := hs.width
  have hfirst := hs.zero
  cases hw : s.width with
  | nil => exact fun c hc => ⟨(hs.head_afterWidth rest c hc).2.1,
      fun _ => (hs.head_afterWidth rest c hc).2.2⟩
  | cons w width =>
    rw [hw] at hwidth hfirst
    have hdigit : Text.isDecimalDigit w = true := hwidth w List.mem_cons_self
    have hminus : w ≠ '-' := by
      rintro rfl
      simp [Text.isDecimalDigit] at hdigit
    simpa [hminus] using hfirst

lemma flag_zero (hs : s.Proper) (rest : List Char) :
    flag '0' (s.afterMinus ++ rest) = (s.fillZero, s.width ++ (s.afterWidth ++ rest)) := by
  rw [afterMinus, List.append_assoc, List.append_assoc]
  cases hset : s.fillZero with
  | false => exact flag_of_head fun c hc => (hs.head_width rest c hc).2 hset
  | true => rfl

lemma flag_minus (hs : s.Proper) (rest : List Char) :
    flag '-' (s.chars ++ rest) = (s.alignLeft, s.afterMinus ++ rest) := by
  have hhead : ∀ c ∈ (s.afterMinus ++ rest).head?, c ≠ '-' := by
    rw [afterMinus, List.append_assoc, List.append_assoc]
    cases s.fillZero with
    | false => exact fun c hc => (hs.head_width rest c hc).1
    | true => simp
  rw [chars, List.append_assoc]
  cases s.alignLeft with
  | false => exact flag_of_head hhead
  | true => rfl

lemma unique (hs : s.Proper) (hs' : s'.Proper) {rest rest' : List Char}
    (h : s.chars ++ rest = s'.chars ++ rest') : s = s' ∧ rest = rest' := by
  have hminus := hs.flag_minus rest
  rw [h, hs'.flag_minus] at hminus
  obtain ⟨halign, hafterMinus⟩ := Prod.mk.inj hminus
  have hzero := hs.flag_zero rest
  rw [← hafterMinus, hs'.flag_zero] at hzero
  obtain ⟨hfill, hafterZero⟩ := Prod.mk.inj hzero
  have hwidth := hs.takeWhile_width rest
  rw [← hafterZero, hs'.takeWhile_width] at hwidth
  have hprecision := hs.precision_afterWidth rest
  rw [← hs.dropWhile_width, ← hafterZero, hs'.dropWhile_width, hs'.precision_afterWidth]
    at hprecision
  obtain ⟨hplaces, htail⟩ := Prod.mk.inj hprecision
  obtain ⟨hconversion, hrest⟩ := List.cons_eq_cons.mp htail
  cases s
  cases s'
  cases halign
  cases hfill
  cases hwidth
  cases hplaces
  cases hconversion
  exact ⟨rfl, hrest.symm⟩

end Spelling.Proper

section Reading

variable {cs rest : List Char} {c : Char} {s : Spelling}

lemma directive?_chars (hs : s.Proper) (rest : List Char) :
    directive? (s.chars ++ rest) = some (s.directive, rest) := by
  have hconversion : ['d', 's', 'f', 'x', 'X', '%'].contains s.conversion = true :=
    List.contains_iff_mem.mpr hs.conversion
  unfold directive?
  rw [hs.flag_minus]
  dsimp only
  rw [hs.flag_zero]
  dsimp only
  rw [hs.takeWhile_width, hs.dropWhile_width, hs.precision_afterWidth]
  dsimp only
  rw [if_pos hconversion]
  rfl

lemma exists_of_directive? {d : Directive} (h : directive? cs = some (d, rest)) :
    ∃ s : Spelling, s.Proper ∧ s.directive = d ∧ cs = s.chars ++ rest := by
  unfold directive? at h
  obtain ⟨⟨alignLeft, afterMinus⟩, hminus⟩ : ∃ p, flag '-' cs = p := ⟨_, rfl⟩
  obtain ⟨⟨fillZero, afterZero⟩, hzero⟩ : ∃ p, flag '0' afterMinus = p := ⟨_, rfl⟩
  obtain ⟨width, hwidth⟩ : ∃ w, afterZero.takeWhile Text.isDecimalDigit = w := ⟨_, rfl⟩
  obtain ⟨⟨places, behind⟩, hplaces⟩ :
    ∃ p, precision (afterZero.dropWhile Text.isDecimalDigit) = p := ⟨_, rfl⟩
  rw [hminus] at h
  dsimp only at h
  rw [hzero] at h
  dsimp only at h
  rw [hwidth, hplaces] at h
  dsimp only at h
  split at h
  · next c rest' =>
    split at h
    · next hc =>
      cases h
      obtain ⟨hcs, -⟩ := eq_of_flag hminus
      obtain ⟨hafterMinus, hfirst⟩ := eq_of_flag hzero
      obtain ⟨hdrop, hdigits⟩ := eq_of_precision hplaces
      have hsplit := List.takeWhile_append_dropWhile (p := Text.isDecimalDigit) (l := afterZero)
      rw [hwidth, hdrop] at hsplit
      refine ⟨⟨alignLeft, fillZero, width, places, c⟩, ⟨?_, ?_, hdigits, ?_⟩, rfl, ?_⟩
      · intro w hw
        rw [← hwidth] at hw
        exact List.mem_takeWhile_imp hw
      · intro hset w hw
        refine hfirst hset w ?_
        obtain ⟨more, rfl⟩ := List.head?_eq_some_iff.mp hw
        rw [← hsplit]
        rfl
      · exact List.contains_iff_mem.mp hc
      · rw [hcs, hafterMinus, ← hsplit]
        simp [Spelling.chars, Spelling.afterMinus, Spelling.afterWidth]
    · cases h
  · cases h

lemma directive?_eq_none_iff :
    directive? cs = none ↔ ∀ (s : Spelling) rest, s.Proper → cs ≠ s.chars ++ rest := by
  constructor
  · rintro h s rest hs rfl
    rw [directive?_chars hs] at h
    cases h
  · intro h
    cases hd : directive? cs with
    | none => rfl
    | some found =>
      obtain ⟨s, hs, -, rfl⟩ := exists_of_directive? hd
      exact absurd rfl (h s found.2 hs)

end Reading

section Parts

variable {cs : List Char} {pieces : List Piece}

lemma exists_parts (cs : List Char) : ∃ pieces, Parts cs pieces := by
  induction hn : cs.length using Nat.strong_induction_on generalizing cs with
  | _ n ih =>
    cases cs with
    | nil => exact ⟨[], .nil⟩
    | cons c cs =>
      rw [List.length_cons] at hn
      cases hd : directive? cs with
      | none =>
        obtain ⟨pieces, h⟩ := ih cs.length (by omega) cs rfl
        exact ⟨_, .plain (fun _ => directive?_eq_none_iff.mp hd) h⟩
      | some found =>
        by_cases hc : c = '%'
        · subst hc
          obtain ⟨s, hs, -, rfl⟩ := exists_of_directive? hd
          rw [List.length_append] at hn
          obtain ⟨pieces, h⟩ := ih found.2.length (by omega) found.2 rfl
          exact ⟨_, .directive hs h⟩
        · obtain ⟨pieces, h⟩ := ih cs.length (by omega) cs rfl
          exact ⟨_, .plain (fun heq => absurd heq hc) h⟩

lemma Parts.unique {pieces' : List Piece} (h : Parts cs pieces) (h' : Parts cs pieces') :
    pieces = pieces' := by
  induction h generalizing pieces' with
  | nil =>
    cases h'
    rfl
  | plain hc h ih =>
    cases h' with
    | plain hc' h' => rw [ih h']
    | directive hs h' => exact absurd rfl (hc rfl _ _ hs)
  | directive hs h ih =>
    generalize htext : '%' :: (_ ++ _) = text at h'
    cases h' with
    | nil => cases htext
    | plain hc h' =>
      obtain ⟨rfl, rfl⟩ := List.cons_eq_cons.mp htext
      exact absurd rfl (hc rfl _ _ hs)
    | directive hs' h' =>
      obtain ⟨rfl, rfl⟩ := hs.unique hs' (List.cons_eq_cons.mp htext).2
      rw [ih h']

lemma Parts.fillFrom_eq (h : Parts cs pieces) {fuel : Nat} (hfuel : cs.length < fuel)
    (values : List Value) (done : List Char) : fillFrom fuel cs values done =
      done.reverse ++ written (fun d => pad d (body d .null)) pieces values := by
  induction h generalizing fuel values done with
  | nil =>
    obtain ⟨fuel, rfl⟩ := Nat.exists_eq_succ_of_ne_zero (Nat.ne_zero_of_lt hfuel)
    simp [fillFrom, written]
  | @plain c cs pieces hc h ih =>
    obtain ⟨fuel, rfl⟩ := Nat.exists_eq_succ_of_ne_zero (Nat.ne_zero_of_lt hfuel)
    have hcopy : fillFrom (fuel + 1) (c :: cs) values done =
        fillFrom fuel cs values (c :: done) := by
      by_cases hpercent : c = '%'
      · subst hpercent
        rw [fillFrom, directive?_eq_none_iff.mpr (hc rfl)]
      · rw [fillFrom]
        exact hpercent
    rw [hcopy, ih (Nat.lt_of_succ_lt_succ hfuel), written, List.reverse_cons, List.append_assoc]
    rfl
  | @directive s rest pieces hs h ih =>
    obtain ⟨fuel, rfl⟩ := Nat.exists_eq_succ_of_ne_zero (Nat.ne_zero_of_lt hfuel)
    have hrest : rest.length < fuel := by
      rw [List.length_cons, List.length_append] at hfuel
      omega
    rw [fillFrom, directive?_chars hs, written]
    dsimp only
    split
    · next hpercent =>
      have hpercent : s.conversion = '%' := eq_of_beq hpercent
      rw [if_pos hpercent, ih hrest, List.reverse_cons, List.append_assoc]
      rfl
    · next hne =>
      have hne : ¬s.conversion = '%' := fun heq => hne (beq_iff_eq.mpr heq)
      rw [if_neg hne, ih hrest, List.reverse_append, List.reverse_reverse, List.append_assoc]
      cases values <;> rfl

end Parts

section Bare

lemma parts_zero : Number.parts 0.0 = .finite false 0 (-1074) := by
  decide +kernel

lemma integer_zero : integer 0.0 = 0 := by
  decide +kernel

lemma scaled_zero (e : Int) : (Number.scaled 0 1 e).1 = 0 := by
  cases e with
  | ofNat k => rfl
  | negSucc k => exact Nat.zero_mul _

lemma fixed_zero (places : Nat) : (Number.fixed places 0.0).toList =
    if places = 0 then ['0'] else '0' :: '.' :: List.replicate places '0' := by
  have hround (d : Nat) : Number.roundHalfEven 0 d = 0 := by
    simp [Number.roundHalfEven]
  rw [Number.fixed, parts_zero]
  dsimp only
  rw [scaled_zero, Nat.zero_mul, hround, Nat.zero_div, Nat.zero_mod]
  cases places with
  | zero => rfl
  | succ places =>
    have hpart : (Text.padZero (places + 1) (toString 0)).toList =
        List.replicate (places + 1) '0' := by
      rw [Text.padZero, String.toList_append, String.toList_ofList, List.replicate_succ']
      rfl
    rw [hpart]
    simp

lemma body_null {d : Directive} (hd : d.conversion ∈ conversions) (hne : d.conversion ≠ '%') :
    body d .null = bare d := by
  have hinteger : (toString (integer 0.0)).toList = ['0'] := by
    rw [integer_zero]
    rfl
  have hhex (upper : Bool) : hexDigits upper (integer 0.0) = ['0'] := by
    rw [integer_zero]
    cases upper <;> rfl
  have hnumber : Value.toNumber .null = .ok 0.0 := rfl
  have hc := hd
  simp only [conversions, List.mem_cons, List.not_mem_nil, or_false] at hc
  rw [body, hnumber]
  rcases hc with h | h | h | h | h | h
  · rw [h]
    exact hinteger.trans (by simp [bare, h])
  · rw [h, bare, if_pos h]
    rfl
  · rw [h]
    refine (fixed_zero _).trans ?_
    by_cases hplaces : d.precision.getD 6 = 0 <;> simp [bare, h, hplaces]
  · rw [h]
    exact (hhex false).trans (by simp [bare, h])
  · rw [h]
    exact (hhex true).trans (by simp [bare, h])
  · exact absurd h hne

lemma mem_pad {d : Directive} {text : List Char} {c : Char} (hc : c ∈ text) : c ∈ pad d text := by
  unfold pad
  split
  · exact List.mem_append_left _ hc
  · split
    · split
      · next rest =>
        rcases List.mem_cons.mp hc with rfl | hc
        · exact List.mem_cons_self
        · exact List.mem_cons_of_mem _ (List.mem_append_right _ hc)
      · exact List.mem_append_right _ hc
    · exact List.mem_append_right _ hc

lemma point_notMem_pad_nil (d : Directive) : '.' ∉ pad d [] := by
  unfold pad
  split
  · simp
  · split <;> simp

lemma zero_mem_pad_nil {d : Directive} (h : '0' ∈ pad d []) :
    d.alignLeft = false ∧ d.fillZero = true ∧ 0 < d.width := by
  unfold pad at h
  split at h
  · simp at h
  · next halign =>
    split at h
    · next hzero =>
      have hwidth : d.width ≠ 0 := by simpa using h
      exact ⟨by simpa using halign, (Bool.and_eq_true_iff.mp hzero).1, Nat.pos_of_ne_zero hwidth⟩
    · simp at h

lemma bare_cases {d : Directive} (hs : d.conversion ≠ 's') :
    bare d = ['0'] ∧ (d.conversion = 'f' → d.precision = some 0) ∨
      '.' ∈ bare d ∧ ¬(d.conversion = 'f' → d.precision = some 0) := by
  have hplaces : d.precision.getD 6 = 0 ↔ d.precision = some 0 := by
    cases d.precision <;> simp
  unfold bare
  rw [if_neg hs]
  split
  · next h => exact .inr ⟨by simp, fun hf => h.2 (hplaces.mpr (hf h.1))⟩
  · next h => exact .inl ⟨rfl, fun hf => hplaces.mp (by_contra fun hne => h ⟨hf, hne⟩)⟩

lemma pad_bare_iff (d : Directive) : pad d (bare d) = pad d [] ↔ d.conversion = 's' ∨
    d.alignLeft = false ∧ d.fillZero = true ∧ 0 < d.width ∧
      (d.conversion = 'f' → d.precision = some 0) := by
  by_cases hs : d.conversion = 's'
  · simp [bare, hs]
  · rw [or_iff_right hs]
    rcases bare_cases hs with ⟨hbare, hf⟩ | ⟨hpoint, hf⟩
    · rw [hbare, and_iff_left hf]
      constructor
      · intro heq
        exact zero_mem_pad_nil (heq ▸ mem_pad List.mem_cons_self)
      · rintro ⟨halign, hzero, hwidth⟩
        obtain ⟨width, hwidth⟩ := Nat.exists_eq_succ_of_ne_zero (Nat.ne_of_gt hwidth)
        simp [pad, halign, hzero, hs, hwidth, List.replicate_succ']
    · refine iff_of_false (fun heq => ?_) fun h => hf h.2.2.2
      exact point_notMem_pad_nil d (heq ▸ mem_pad hpoint)

end Bare

lemma Parts.written_null {cs : List Char} {pieces : List Piece} (h : Parts cs pieces)
    (values : List Value) : written (fun d => pad d (body d .null)) pieces values =
      written (fun d => pad d (bare d)) pieces values := by
  induction h generalizing values with
  | nil => rfl
  | plain hc h ih => rw [written, written, ih]
  | directive hs h ih =>
    rw [written, written, ih, ih]
    split
    · rfl
    · next hne =>
      cases values with
      | nil => rw [List.head?_nil, filled, filled, body_null hs.conversion hne]
      | cons v values => rfl

section Surplus

variable {lack lack' : Directive → List Char}

lemma length_written_le (hlack : ∀ d, (lack' d).length ≤ (lack d).length) (pieces : List Piece)
    (values : List Value) : (written lack' pieces values).length ≤
      (written lack pieces values).length := by
  induction pieces generalizing values with
  | nil => exact Nat.le_refl 0
  | cons piece rest ih =>
    cases piece with
    | plain c => exact Nat.succ_le_succ (ih values)
    | directive s =>
      rw [written, written]
      split
      · exact Nat.succ_le_succ (ih values)
      · rw [List.length_append, List.length_append]
        refine Nat.add_le_add ?_ (ih values.tail)
        cases values with
        | nil => exact hlack s.directive
        | cons v values => exact Nat.le_refl _

lemma written_eq_iff (hlack : ∀ d, (lack' d).length ≤ (lack d).length) (pieces : List Piece)
    (values : List Value) : written lack pieces values = written lack' pieces values ↔
      ∀ d ∈ surplus pieces values, lack d = lack' d := by
  induction pieces generalizing values with
  | nil => simp [written, surplus]
  | cons piece rest ih =>
    cases piece with
    | plain c =>
      rw [written, written, surplus, List.cons_inj_right]
      exact ih values
    | directive s =>
      rw [written, written, surplus]
      split
      · rw [List.cons_inj_right]
        exact ih values
      · cases values with
        | nil =>
          rw [List.isEmpty_nil, if_pos rfl, List.forall_mem_append, List.forall_mem_singleton,
            ← ih [].tail]
          constructor
          · intro heq
            have hlength := congrArg List.length heq
            rw [List.length_append, List.length_append] at hlength
            have hfirst := hlack s.directive
            have hrest := length_written_le hlack rest [].tail
            refine List.append_inj heq ?_
            rw [List.head?_nil, filled, filled] at hlength
            exact Nat.le_antisymm (by omega) hfirst
          · rintro ⟨hfirst, hrest⟩
            rw [List.head?_nil, filled, filled, hfirst, hrest]
        | cons v values =>
          rw [List.head?_cons, filled, filled, List.append_cancel_left_eq]
          exact ih values

end Surplus

lemma length_pad (d : Directive) (text : List Char) :
    (pad d text).length = max d.width text.length := by
  unfold pad
  split
  · simp
    omega
  · split
    · split
      · simp
        omega
      · simp
        omega
    · simp
      omega

lemma length_pad_nil_le (d : Directive) (text : List Char) :
    (pad d []).length ≤ (pad d text).length := by
  rw [length_pad, length_pad]
  exact max_le_max_left _ (Nat.zero_le _)

lemma fills_fill (format : String) (values : List Value) :
    Fills (fun d => pad d (bare d)) format values (fill format values) := by
  obtain ⟨pieces, hparts⟩ := exists_parts format.toList
  refine ⟨pieces, hparts, ?_⟩
  have hfuel : format.toList.length < format.length + 1 := Nat.lt_succ_self _
  rw [fill, String.toList_ofList, hparts.fillFrom_eq hfuel, hparts.written_null]
  rfl

lemma understand_run (module : Module) (builtin : String) (format : Value) (values : List Value) :
    ((Builtin.string.understand module).run
      { builtin, rest := (format :: values).reverse }).1 =
        .ok (.reply (.text (fill format.toText values))) := by
  change (Builtin.string.understand module _).1 = _
  rw [Builtin.understand, StateExcept.bind_apply]
  simp only [Take.all, List.reverse_reverse]
  rfl

lemma Fills.unique {lack : Directive → List Char} {format text text' : String}
    {values : List Value} (h : Fills lack format values text)
    (h' : Fills lack format values text') : text = text' := by
  obtain ⟨pieces, hparts, htext⟩ := h
  obtain ⟨pieces', hparts', htext'⟩ := h'
  rw [← hparts.unique hparts', ← htext] at htext'
  exact String.toList_inj.mp htext'.symm

/-- What `String` gives for a format and some values: every directive takes one of the values that
are left, two percent signs take none and stand for one, and the text between is copied. A directive
that finds no value left shows an empty text under `s` and a zero under the other letters. It would
be the same to show its padding alone exactly if all directives without a value have the letter `s`
or are filled with zeros, of which the zero shown is one. -/
theorem understand_format (module : Module) (format : Value) (values : List Value) :
    ∃ id text pieces, Signature.idOf? "String" = some id ∧
      Registry.standard.understand module id (format :: values) = .ok (.reply (.text text)) ∧
      Parts format.toText.toList pieces ∧
      Fills (fun d => pad d (bare d)) format.toText values text ∧
      (Fills (fun d => pad d []) format.toText values text ↔ ∀ d ∈ surplus pieces values,
        d.conversion = 's' ∨ d.alignLeft = false ∧ d.fillZero = true ∧ 0 < d.width ∧
          (d.conversion = 'f' → d.precision = some 0)) := by
  have hentry : (Registry.standard.entries[(22 : UInt16).toNat]?).join = some .string := by
    decide +kernel
  have hsignature : Signature.ofId 22 = some
      { name := "String", parameters := [.required "format" .text], isVariadic := true } := by
    decide +kernel
  obtain ⟨pieces, hparts, htext⟩ := fills_fill format.toText values
  refine ⟨22, fill format.toText values, pieces, by decide +kernel, ?_, hparts,
    ⟨pieces, hparts, htext⟩, ?_⟩
  · unfold Registry.understand
    rw [hentry, hsignature]
    rw [← understand_run module "String" format values]
    simp [Signature.accepts, Signature.least, Signature.greatest, Parameter.required]
  · have hempty : Fills (fun d => pad d []) format.toText values (fill format.toText values) ↔
        written (fun d => pad d (bare d)) pieces values =
          written (fun d => pad d []) pieces values := by
      rw [← htext]
      constructor
      · rintro ⟨pieces', hparts', h⟩
        rwa [hparts.unique hparts']
      · exact fun h => ⟨pieces, hparts, h⟩
    rw [hempty, written_eq_iff fun d => length_pad_nil_le d (bare d)]
    exact forall₂_congr fun d _ => pad_bare_iff d

/-- A directive for an integer that has no value shows a zero although it asks for no padding. -/
theorem not_fills_integer : ¬Fills (fun d => pad d []) "%d" [] (fill "%d" []) := by
  intro h
  let d : Spelling :=
    { alignLeft := false, fillZero := false, width := [], places := [], conversion := 'd' }
  have hproper : d.Proper := ⟨by simp [d], by simp [d], by simp [d], by simp [d, conversions]⟩
  have hparts : Parts "%d".toList [.directive d] := .directive hproper .nil
  have hzero : fill "%d" [] = "0" := (fills_fill "%d" []).unique ⟨_, hparts, rfl⟩
  have hempty : fill "%d" [] = "" := h.unique ⟨_, hparts, rfl⟩
  exact absurd (hzero.symm.trans hempty) (by decide)

end Stagecraft.Format
