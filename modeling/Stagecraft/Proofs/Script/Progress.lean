import Stagecraft.Proofs.Basic
import Stagecraft.Script.Parse

namespace Stagecraft

namespace Parser

def next (p : Parser) : Token :=
  p.rest.headD p.final

structure Proper (p : Parser) : Prop where
  final : p.final.kind = .endOfFile
  inner : ∀ t ∈ p.rest, t.kind ≠ .endOfFile

lemma proper_ofTokens (tokens : List Token) (diagnostics : List Diagnostic) :
    (ofTokens tokens diagnostics).Proper := by
  refine ⟨?_, fun t ht => by simpa using (List.mem_takeWhile_imp ht)⟩
  unfold ofTokens
  cases hfind : tokens.find? (·.kind == .endOfFile) with
  | none => simp [hfind, Token.endAt]
  | some t => simpa [hfind] using List.find?_some hfind

lemma ofTokens_eq {tokens : List Token} (diagnostics : List Diagnostic)
    (h : ∀ t ∈ tokens.dropLast, t.kind ≠ .endOfFile) :
    ofTokens tokens diagnostics = match tokens.getLast? with
      | none => { rest := [], final := .endAt .unplaced, diagnostics := diagnostics.toArray }
      | some t =>
        if t.kind == .endOfFile then
          { rest := tokens.dropLast, final := t, diagnostics := diagnostics.toArray }
        else { rest := tokens, final := .endAt t.span, diagnostics := diagnostics.toArray } := by
  unfold ofTokens
  cases hlast : tokens.getLast? with
  | none => simp [List.getLast?_eq_none_iff.mp hlast]
  | some t =>
    obtain ⟨before, rfl⟩ : ∃ before, tokens = before ++ [t] :=
      ⟨_, (List.dropLast_append_getLast? t hlast).symm⟩
    rw [List.dropLast_concat] at h
    have hfind : before.find? (·.kind == .endOfFile) = none := by simpa using h
    have htake : before.takeWhile (!·.kind == .endOfFile) = before :=
      List.takeWhile_eq_self_iff.mpr (by simpa using h)
    by_cases ht : t.kind = .endOfFile
    · simp [List.takeWhile_append, List.find?_append, htake, hfind, ht]
    · simp [List.takeWhile_append, List.find?_append, htake, hfind, ht]

structure Onward (p q : Parser) : Prop where
  final : q.final = p.final
  cuts : p.cuts ≤ q.cuts
  front : ∃ ts, p.rest = ts ++ q.rest ∧ q.taken = p.taken + ts.length ∧
    q.last = (ts.getLast?.map Token.span).or p.last

lemma Onward.refl (p : Parser) : p.Onward p :=
  ⟨rfl, Nat.le_refl _, [], rfl, rfl, rfl⟩

lemma Onward.trans {p q r : Parser} (h : p.Onward q) (h' : q.Onward r) : p.Onward r := by
  obtain ⟨ts, hrest, htaken, hlast⟩ := h.front
  obtain ⟨ts', hrest', htaken', hlast'⟩ := h'.front
  refine ⟨h'.final.trans h.final, Nat.le_trans h.cuts h'.cuts, ts ++ ts', ?_, ?_, ?_⟩
  · rw [hrest, hrest', List.append_assoc]
  · rw [htaken', htaken, List.length_append, Nat.add_assoc]
  · rw [hlast', hlast, List.getLast?_append, Option.map_or, Option.or_assoc]

lemma Onward.length {p q : Parser} (h : p.Onward q) :
    q.rest.length + q.taken = p.rest.length + p.taken ∧ p.taken ≤ q.taken := by
  obtain ⟨ts, hrest, htaken, -⟩ := h.front
  rw [hrest, htaken, List.length_append]
  omega

lemma Onward.next {p q : Parser} (h : p.Onward q) (htaken : q.taken = p.taken) :
    q.next = p.next := by
  obtain ⟨ts, hrest, hlength, -⟩ := h.front
  have hnil : ts = [] := List.eq_nil_of_length_eq_zero (by omega)
  rw [Parser.next, Parser.next, h.final, hrest, hnil, List.nil_append]

lemma Onward.proper {p q : Parser} (h : p.Onward q) (hp : p.Proper) : q.Proper := by
  obtain ⟨ts, hrest, -⟩ := h.front
  refine ⟨h.final ▸ hp.final, fun t ht => hp.inner t ?_⟩
  rw [hrest]
  exact List.mem_append_right _ ht

lemma onward_past {p : Parser} {t : Token} {rest : List Token} (h : p.rest = t :: rest) :
    p.Onward (p.past t rest) :=
  ⟨rfl, Nat.le_refl _, [t], h, rfl, rfl⟩

lemma onward_pastWhile {p : Parser} (f : Token → Bool) (ts : List Token) (h : p.rest = ts) :
    p.Onward (pastWhile f ts p) := by
  induction ts generalizing p with
  | nil => exact .refl p
  | cons t ts ih =>
    rw [pastWhile]
    split
    · exact (onward_past h).trans (ih rfl)
    · exact .refl p

lemma cuts_pastWhile {p : Parser} (f : Token → Bool) (ts : List Token) :
    (pastWhile f ts p).cuts = p.cuts := by
  induction ts generalizing p with
  | nil => rfl
  | cons t ts ih =>
    rw [pastWhile]
    split
    · exact ih
    · rfl

lemma Proper.rest_of_next {p : Parser} (hp : p.Proper) (h : p.next.kind ≠ .endOfFile) :
    ∃ rest, p.rest = p.next :: rest := by
  unfold next at h ⊢
  cases hrest : p.rest with
  | nil => exact absurd (by rw [hrest]; exact hp.final) h
  | cons t rest => exact ⟨rest, rfl⟩

lemma Proper.rest_eq_nil {p : Parser} (hp : p.Proper) (h : p.next.kind = .endOfFile) :
    p.rest = [] := by
  cases hrest : p.rest with
  | nil => rfl
  | cons t rest =>
    have ht := hp.inner t (hrest ▸ List.mem_cons_self)
    exact absurd (by rw [← h, Parser.next, hrest]; rfl) ht

structure Went (enough : Prop) (n : Nat) (p q : Parser) : Prop where
  onward : p.Onward q
  moved : q.cuts = p.cuts → p.taken + n ≤ q.taken
  whole : enough → q.cuts = p.cuts

section Went

variable {enough enough' : Prop} {n m : Nat} {p q r : Parser}

lemma Went.refl (enough : Prop) (p : Parser) : p.Went enough 0 p :=
  ⟨.refl p, fun _ => Nat.le_refl _, fun _ => rfl⟩

lemma Went.trans (h : p.Went enough n q) (h' : q.Went enough m r) : p.Went enough (n + m) r := by
  refine ⟨h.onward.trans h'.onward, fun hcuts => ?_, fun he => (h'.whole he).trans (h.whole he)⟩
  -- what was not cut short as a whole was not cut short on the way
  have hmiddle : q.cuts = p.cuts := by
    have := h.onward.cuts
    have := h'.onward.cuts
    omega
  have hn := h.moved hmiddle
  have hm := h'.moved (hcuts.trans hmiddle.symm)
  omega

lemma Went.mono (h : p.Went enough' m q) (he : enough → enough') (hn : n ≤ m) :
    p.Went enough n q :=
  ⟨h.onward, fun hcuts => by have := h.moved hcuts; omega, fun h' => h.whole (he h')⟩

lemma Went.left (h : p.Went enough n q) (he : enough) : q.rest.length + n ≤ p.rest.length := by
  have := h.onward.length
  have := h.moved (h.whole he)
  omega

end Went

end Parser

namespace Parse

variable {α β : Type} {enough : Prop} {p : Parser}

lemma bind_at (x : Parse α) (f : α → Parse β) (p : Parser) : (x >>= f) p = f (x p).1 (x p).2 :=
  rfl

def Goes (enough : Prop) (n : α → Nat) (x : Parse α) (p : Parser) : Prop :=
  p.Proper → p.Went enough (n (x p).1) (x p).2

section Goes

variable {n : β → Nat} {m : α → Nat} {x : Parse α} {f : α → Parse β}

lemma Goes.mono {enough' : Prop} {n' : α → Nat} (h : Goes enough' m x p) (he : enough → enough')
    (hn : ∀ a, n' a ≤ m a) : Goes enough n' x p :=
  fun hp => (h hp).mono he (hn _)

lemma Goes.bind (hx : Goes enough m x p)
    (hf : ∀ a q, p.Went enough (m a) q → Goes enough (fun b => n b - m a) (f a) q) :
    Goes enough n (x >>= f) p := by
  intro hp
  have hxp := hx hp
  exact (hxp.trans (hf _ _ hxp (hxp.onward.proper hp))).mono id le_add_tsub

lemma goes_pure {a : α} (h : m a = 0) : Goes enough m (pure a) p :=
  fun _ => (Parser.Went.refl enough p).mono id (Nat.le_of_eq h)

lemma goes_cut {a : α} (h : ¬ enough) : Goes enough m (cut a) p :=
  fun _ => ⟨⟨rfl, Nat.le_succ _, [], rfl, rfl, rfl⟩, fun hcuts => absurd hcuts (Nat.succ_ne_self _),
    fun he => absurd he h⟩

lemma goes_skip {a : α} (hx : p.Proper → x p = (a, p)) (hf : Goes enough n (f a) p) :
    Goes enough n (x >>= f) p := by
  intro hp
  change p.Went enough (n (f (x p).1 (x p).2).1) (f (x p).1 (x p).2).2
  rw [hx hp]
  exact hf hp

lemma goes_look {f : Token → Parse β} (h : Goes enough n (f p.next) p) : Goes enough n (peek >>= f) p :=
  h

lemma goes_lookKind {f : TokenKind → Parse β} (h : Goes enough n (f p.next.kind) p) :
    Goes enough n (peekKind >>= f) p :=
  h

lemma goes_take {f : Token → Parse β} (h : p.next.kind ≠ .endOfFile)
    (hf : ∀ q, p.Went enough 1 q → Goes enough (fun b => n b - 1) (f p.next) q) :
    Goes enough n (advance >>= f) p := by
  intro hp
  obtain ⟨rest, hrest⟩ := hp.rest_of_next h
  have hadvance : advance p = (p.next, p.past p.next rest) := by
    rw [advance, hrest]
  have hwent : p.Went enough 1 (p.past p.next rest) :=
    ⟨Parser.onward_past hrest, fun _ => Nat.le_refl _, fun _ => rfl⟩
  change p.Went enough (n (f (advance p).1 (advance p).2).1) (f (advance p).1 (advance p).2).2
  rw [hadvance]
  exact (hwent.trans (hf _ hwent (hwent.onward.proper hp))).mono id le_add_tsub

lemma goes_advance : Goes enough (fun _ => 0) advance p := by
  intro _
  unfold advance
  split
  · exact .refl enough p
  · next t rest hrest => exact ⟨Parser.onward_past hrest, fun _ => Nat.le_succ _, fun _ => rfl⟩

lemma goes_start {f : Token → Parse β} {k : Nat} (hk : k = 0 ∨ k = 1 ∧ p.next.kind ≠ .endOfFile)
    (hf : ∀ t q, p.Went enough 0 q → Goes enough (fun _ => 0) (f t) q) :
    Goes enough (fun _ => k) (advance >>= f) p := by
  rcases hk with rfl | ⟨rfl, hend⟩
  · exact goes_advance.bind fun t q hq => hf t q hq
  · exact goes_take hend fun q hq => hf p.next q (hq.mono id (Nat.zero_le _))

end Goes

section Readers

variable {n : β → Nat}

lemma goes_lookSecond {f : TokenKind → Parse β} (h : ∀ kind, Goes enough n (f kind) p) :
    Goes enough n (peekSecond >>= f) p :=
  h _

lemma goes_lastSpan : Goes enough (fun _ => 0) lastSpan p :=
  fun _ => .refl enough p

def Still (x : Parse α) : Prop :=
  ∀ p : Parser, p.Onward (x p).2 ∧ (x p).2.taken = p.taken ∧ (x p).2.cuts = p.cuts

lemma still_pure (a : α) : Still (pure a) :=
  fun p => ⟨.refl p, rfl, rfl⟩

lemma still_freshId : Still freshId :=
  fun _ => ⟨⟨rfl, Nat.le_refl _, [], rfl, rfl, rfl⟩, rfl, rfl⟩

lemma still_report {issue : Issue} {span : Span} : Still (report issue span) :=
  fun _ => ⟨⟨rfl, Nat.le_refl _, [], rfl, rfl, rfl⟩, rfl, rfl⟩

lemma still_unexpected {what : String} : Still (unexpected what) :=
  fun p => still_report p

lemma still_flush {parts : Array DialoguePart} {pending : Pending} :
    Still (flush parts pending) := by
  unfold flush
  dsimp only
  split
  · exact still_pure _
  · exact fun _ => ⟨⟨rfl, Nat.le_refl _, [], rfl, rfl, rfl⟩, rfl, rfl⟩

lemma Still.goes {x : Parse α} (h : Still x) : Goes enough (fun _ => 0) x p := by
  intro _
  obtain ⟨honward, htaken, hcuts⟩ := h p
  exact ⟨honward, fun _ => Nat.le_of_eq htaken.symm, fun _ => hcuts⟩

lemma Still.then {x : Parse α} {f : α → Parse β} (h : Still x)
    (hf : ∀ a q, p.Went enough 0 q → q.next = p.next → Goes enough n (f a) q) :
    Goes enough n (x >>= f) p := by
  intro hp
  obtain ⟨honward, htaken, -⟩ := h p
  have hwent : p.Went enough 0 (x p).2 := h.goes hp
  have hf' := hf (x p).1 (x p).2 hwent (honward.next htaken) (honward.proper hp)
  exact (hwent.trans hf').mono id (by rw [Nat.zero_add]; exact Nat.le_refl _)

lemma goes_freshId : Goes enough (fun _ => 0) freshId p :=
  still_freshId.goes

lemma goes_report {issue : Issue} {span : Span} :
    Goes enough (fun _ => 0) (report issue span) p :=
  still_report.goes

lemma goes_unexpected {what : String} : Goes enough (fun _ => 0) (unexpected what) p :=
  still_unexpected.goes

lemma goes_nodeFrom {first : Span} : Goes enough (fun _ => 0) (nodeFrom first) p :=
  goes_freshId.bind fun _ _ _ => goes_lastSpan.bind fun _ _ _ => goes_pure rfl

lemma goes_eat {kind : TokenKind} {f : Bool → Parse β} (hend : kind ≠ .endOfFile)
    (hyes : p.next.kind = kind → ∀ q, p.Went enough 1 q →
      Goes enough (fun b => n b - 1) (f true) q)
    (hno : p.next.kind ≠ kind → Goes enough n (f false) p) : Goes enough n (eat kind >>= f) p := by
  unfold eat
  rw [bind_assoc]
  refine goes_lookKind ?_
  by_cases h : p.next.kind = kind
  · rw [if_pos (beq_iff_eq.mpr h), bind_assoc]
    exact goes_take (h ▸ hend) fun q hq => hyes h q hq
  · rw [if_neg fun hbeq => h (beq_iff_eq.mp hbeq)]
    exact hno h

lemma goes_expect {kind : TokenKind} {what : String} {f : Bool → Parse β} (hend : kind ≠ .endOfFile)
    (hyes : p.next.kind = kind → ∀ q, p.Went enough 1 q →
      Goes enough (fun b => n b - 1) (f true) q)
    (hno : p.next.kind ≠ kind → ∀ q, p.Went enough 0 q → Goes enough n (f false) q) :
    Goes enough n (expect kind what >>= f) p := by
  unfold expect
  rw [bind_assoc]
  refine goes_eat hend (fun h q hq => hyes h q hq) fun h => ?_
  rw [if_neg Bool.false_ne_true, bind_assoc]
  exact goes_unexpected.bind fun _ q hq => hno h q hq

lemma goes_close {kind : TokenKind} {what : String} {f : Bool → Parse β}
    (hend : kind ≠ .endOfFile)
    (h : ∀ found q, p.Went enough 0 q → Goes enough (fun _ => 0) (f found) q) :
    Goes enough (fun _ => 0) (expect kind what >>= f) p :=
  goes_expect hend (fun _ q hq => h true q (hq.mono id (Nat.zero_le _))) fun _ q hq => h false q hq

lemma goes_skipWhile {f : Token → Bool} : Goes enough (fun _ => 0) (skipWhile f) p :=
  fun _ => have honward := Parser.onward_pastWhile f p.rest rfl
    ⟨honward, fun _ => honward.length.2, fun _ => Parser.cuts_pastWhile f p.rest⟩

lemma goes_synchronize : Goes enough (fun _ => 0) synchronize p :=
  goes_skipWhile.bind fun _ _ _ => goes_eat (by decide) (fun _ _ _ => goes_pure rfl)
    fun _ => goes_pure rfl

lemma goes_endStatement : Goes enough (fun _ => 0) endStatement p :=
  goes_eat (by decide) (fun _ _ _ => goes_pure rfl) fun _ =>
    goes_unexpected.bind fun _ _ _ => goes_synchronize

lemma goes_name {what : String} : Goes enough (fun _ => 0) (name what) p := by
  refine goes_lookKind ?_
  split
  · exact goes_advance.bind fun _ _ _ => goes_pure rfl
  · exact goes_advance.bind fun _ _ _ => goes_pure rfl
  · exact goes_unexpected.bind fun _ _ _ => goes_pure rfl

lemma goes_assignment {target other : Expression} {operator : Span}
    {make : Node → Target → Expression} :
    Goes enough (fun _ => 0) (assignment target operator other make) p := by
  unfold assignment
  split
  · exact goes_lastSpan.bind fun _ _ _ => goes_freshId.bind fun _ _ _ => goes_pure rfl
  · exact goes_report.bind fun _ _ _ => goes_pure rfl

lemma goes_flush {parts : Array DialoguePart} {pending : Pending} :
    Goes enough (fun _ => 0) (flush parts pending) p :=
  still_flush.goes

end Readers

inductive Turn (β α : Type) where
  | goOn (b : β)
  | leave (a : α)

def Turn.steps : Turn β α → Nat
  | goOn _ => 1
  | leave _ => 0

def again (f : β → Parse α) : Turn β α → Parse α
  | .goOn b => f b
  | .leave a => pure a

lemma Goes.again {turn : Parse (Turn β α)} {f : β → Parse α} (hturn : Goes enough Turn.steps turn p)
    (hf : ∀ b q, p.Went enough 1 q → Goes enough (fun _ => 0) (f b) q) :
    Goes enough (fun _ => 0) (turn >>= again f) p := by
  refine hturn.bind fun t q hq => ?_
  cases t with
  | goOn b => exact hf b q hq
  | leave a => exact goes_pure rfl

section Skipping

def skipTurn (f : Token → Bool) : Parse (Turn Unit Unit) := do
  let t ← peek
  if t.kind == .endOfFile || !f t then pure (.leave ())
  else
    let _ ← advance
    pure (.goOn ())

def synchronizeTurn : Parse (Turn Unit Unit) := do
  let kind ← peekKind
  if kind == .endOfFile || kind == .closeBrace || kind.isMember then pure (.leave ())
  else
    let _ ← advance
    if kind == .semicolon then pure (.leave ()) else pure (.goOn ())

lemma goes_skipTurn {f : Token → Bool} : Goes enough Turn.steps (skipTurn f) p := by
  refine goes_look ?_
  split
  · exact goes_pure rfl
  · next h =>
    have hend : p.next.kind ≠ .endOfFile := fun he => h (by simp [he])
    exact goes_take hend fun _ _ => goes_pure rfl

lemma goes_synchronizeTurn : Goes enough Turn.steps synchronizeTurn p := by
  refine goes_lookKind ?_
  split
  · exact goes_pure rfl
  · next h =>
    have hend : p.next.kind ≠ .endOfFile := fun he => h (by simp [he])
    refine goes_take hend fun _ _ => ?_
    split
    · exact goes_pure rfl
    · exact goes_pure rfl

lemma skipTurn_apply (f : Token → Bool) (p : Parser) : skipTurn f p =
    if p.next.kind == .endOfFile || !f p.next then (.leave (), p)
    else (.goOn (), (advance p).2) := by
  have hlook : skipTurn f p = (if p.next.kind == .endOfFile || !f p.next then pure (.leave ())
      else do
        let _ ← advance
        pure (.goOn ()) : Parse (Turn Unit Unit)) p := rfl
  rw [hlook]
  split <;> rfl

lemma synchronizeTurn_apply (p : Parser) : synchronizeTurn p =
    if p.next.kind == .endOfFile || p.next.kind == .closeBrace || p.next.kind.isMember then
      (.leave (), p)
    else (if p.next.kind == .semicolon then .leave () else .goOn (), (advance p).2) := by
  have hlook : synchronizeTurn p = (if p.next.kind == .endOfFile || p.next.kind == .closeBrace ||
        p.next.kind.isMember then pure (.leave ())
      else do
        let _ ← advance
        if p.next.kind == .semicolon then pure (.leave ()) else pure (.goOn ()) :
      Parse (Turn Unit Unit)) p := rfl
  rw [hlook]
  split
  · rfl
  · change ((if _ then _ else _ : Parse (Turn Unit Unit)) (advance p).2) = _
    split <;> rfl

lemma skipWhile_unroll (f : Token → Bool) (hp : p.Proper) :
    skipWhile f p = (skipTurn f >>= again fun _ => skipWhile f) p := by
  have hskip (p : Parser) : skipWhile f p = ((), Parser.pastWhile f p.rest p) := rfl
  have hturn : (skipTurn f >>= again fun _ => skipWhile f) p =
      again (fun _ => skipWhile f) (skipTurn f p).1 (skipTurn f p).2 := rfl
  rw [hskip, hturn, skipTurn_apply]
  cases hrest : p.rest with
  | nil =>
    simp [Parser.next, hrest, hp.final, again, Parser.pastWhile]
    rfl
  | cons t rest =>
    have hend : t.kind ≠ .endOfFile := hp.inner t (hrest ▸ List.mem_cons_self)
    have hadvance : advance p = (t, p.past t rest) := by rw [advance, hrest]
    rw [Parser.pastWhile]
    cases hf : f t
    · simp [Parser.next, hrest, hf, again]
      rfl
    · simp [Parser.next, hrest, hf, hend, again, hskip, hadvance, Parser.past]

lemma eat_apply (kind : TokenKind) (p : Parser) : eat kind p =
    if p.next.kind == kind then (true, (advance p).2) else (false, p) := by
  have hlook : eat kind p = (if p.next.kind == kind then do
      let _ ← advance
      pure true
    else pure false : Parse Bool) p := rfl
  rw [hlook]
  split <;> rfl

lemma synchronize_unroll (hp : p.Proper) :
    synchronize p = (synchronizeTurn >>= again fun _ => synchronize) p := by
  have hturn : (synchronizeTurn >>= again fun _ => synchronize) p =
      again (fun _ => synchronize) (synchronizeTurn p).1 (synchronizeTurn p).2 := rfl
  obtain ⟨inside, hinside⟩ : ∃ inside : Token → Bool, inside = fun t =>
    !(t.kind == .closeBrace || t.kind.isMember || t.kind == .semicolon) := ⟨_, rfl⟩
  have hsynchronize (q : Parser) :
      synchronize q = ((), (eat .semicolon (skipWhile inside q).2).2) := hinside ▸ rfl
  have hskip : (skipWhile inside p).2 = if p.next.kind == .endOfFile || !inside p.next then p
      else (skipWhile inside (advance p).2).2 := by
    rw [skipWhile_unroll inside hp]
    change (again _ (skipTurn inside p).1 (skipTurn inside p).2).2 = _
    rw [skipTurn_apply]
    split <;> rfl
  rw [hturn, synchronizeTurn_apply, hsynchronize, hskip]
  by_cases hend : p.next.kind = .endOfFile
  · simp [hend, eat_apply, again]
    rfl
  by_cases hbrace : p.next.kind = .closeBrace
  · simp [hbrace, hinside, eat_apply, again]
    rfl
  by_cases hmember : p.next.kind.isMember
  · have hkind : p.next.kind ≠ .semicolon := by
      intro he
      simp [he] at hmember
      cases hmember
    simp [hmember, hinside, hkind, eat_apply, again]
    rfl
  by_cases hsemicolon : p.next.kind = .semicolon
  · simp [hsemicolon, hinside, eat_apply, again, TokenKind.isMember]
    rfl
  · simp [hend, hbrace, hmember, hsemicolon, hinside, again, hsynchronize]

lemma goes_synchronize_of (hend : p.next.kind ≠ .endOfFile) (hbrace : p.next.kind ≠ .closeBrace)
    (hmember : p.next.kind.isMember = false) : Goes enough (fun _ => 1) synchronize p := by
  intro hp
  have hturn : Goes enough (fun _ => 1) synchronizeTurn p := by
    refine goes_lookKind ?_
    rw [if_neg (by simp [hend, hbrace, hmember])]
    refine goes_take hend fun _ _ => ?_
    split
    · exact goes_pure rfl
    · exact goes_pure rfl
  have hgoes : Goes enough (fun _ => 1) (synchronizeTurn >>= again fun _ => synchronize) p := by
    refine hturn.bind fun t q _ => ?_
    cases t with
    | goOn _ => exact goes_synchronize
    | leave _ => exact goes_pure rfl
  have hwent := hgoes hp
  rwa [← synchronize_unroll hp] at hwent

lemma synchronize_stop (hp : p.Proper) (hmember : p.next.kind.isMember = true) :
    synchronize p = ((), p) := by
  rw [synchronize_unroll hp]
  change again (fun _ => synchronize) (synchronizeTurn p).1 (synchronizeTurn p).2 = _
  rw [synchronizeTurn_apply, if_pos (by simp [hmember])]
  rfl

end Skipping

end Parse

end Stagecraft
