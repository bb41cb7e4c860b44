import Stagecraft.Proofs.Machine.Frames
import Stagecraft.Proofs.Safety.Code

namespace Stagecraft

namespace Thread

/-- The innermost routine, called with the frame `f` over `callers`, is at a position with a number of
values on its part of the stack. -/
def Stands (f : Frame) (callers : List Frame) (position depth : Nat) (t : Thread) : Prop :=
  (∃ arguments, t.frames = { f with position, arguments } :: callers) ∧
    t.stack.size = f.base + depth

variable {t t' : Thread} {f : Frame} {callers : List Frame} {position depth next size : Nat}
  {offset : Int16} {v : Value}

namespace Stands

lemma base (h : t.Stands f callers position depth) : t.base = f.base := by
  obtain ⟨⟨arguments, hframes⟩, -⟩ := h
  simp [Thread.base, hframes]

lemma push (h : t.Stands f callers position depth) (v : Value) :
    (t.push v).Stands f callers position (depth + 1) := by
  refine ⟨h.1, ?_⟩
  rw [Thread.push, Array.size_push, h.2, Nat.add_assoc]

lemma pop (h : t.Stands f callers position depth) (hpop : t.pop = .ok (v, t')) :
    t'.Stands f callers position (depth - 1) := by
  have hbase := h.base
  have hsize := h.2
  unfold Thread.pop at hpop
  split at hpop
  · cases hpop
  · split at hpop
    · cases hpop
      refine ⟨h.1, ?_⟩
      rw [Array.size_pop]
      omega
    · cases hpop

lemma popMany {values : List Value} {n : Nat} (h : t.Stands f callers position depth)
    (hpop : t.popMany n = .ok (values, t')) : t'.Stands f callers position (depth - n) := by
  obtain ⟨below, hstack, hlength, hbase, rfl⟩ := popMany_ok hpop
  have hsize := h.2
  rw [h.base] at hbase
  have hall := congrArg List.length hstack
  rw [List.length_append, Array.length_toList] at hall
  refine ⟨h.1, ?_⟩
  rw [List.size_toArray]
  omega

lemma setArgument {index : UInt16} (h : t.Stands f callers position depth)
    (hset : t.setArgument index v = .ok t') : t'.Stands f callers position depth := by
  obtain ⟨⟨arguments, hframes⟩, hsize⟩ := h
  simp only [Thread.setArgument, hframes] at hset
  split at hset
  · cases hset
    exact ⟨⟨_, rfl⟩, hsize⟩
  · cases hset

lemma jump (h : t.Stands f callers position depth) (hjump : t.jump next offset size = .ok t') :
    ∃ target : Nat, (next + offset.toInt : Int) = target ∧ t'.Stands f callers target depth := by
  obtain ⟨⟨arguments, hframes⟩, hsize⟩ := h
  unfold Thread.jump at hjump
  dsimp only at hjump
  split at hjump
  · cases hjump
  · next hin =>
    cases hjump
    refine ⟨(next + offset.toInt).toNat, by omega, ⟨arguments, ?_⟩, ?_⟩
    · simp [goTo, hframes]
    · simpa [goTo, hframes] using hsize

lemma jumpIf {wanted : Bool} (h : t.Stands f callers position depth)
    (hjump : t.jumpIf wanted next offset size = .ok t') :
    t'.Stands f callers position (depth - 1) ∨
      ∃ target : Nat, (next + offset.toInt : Int) = target ∧
        t'.Stands f callers target (depth - 1) := by
  simp only [Thread.jumpIf, Except.bind_eq_ok_iff] at hjump
  obtain ⟨⟨v, t₁⟩, hpop, truth, -, hjump⟩ := hjump
  split at hjump
  · exact .inr ((h.pop hpop).jump hjump)
  · cases hjump
    exact .inl (h.pop hpop)

end Stands

/-- The routine that was called with the frame `f` over `callers` has called another one, and has kept
a number of values on its part of the stack. It will go on at a position. -/
def Waits (f : Frame) (callers : List Frame) (position depth : Nat) (t : Thread) : Prop :=
  ∃ callee below arguments, callee.base = below.length ∧ below.length = f.base + depth ∧
    t.Inside callee below ({ f with position, arguments } :: callers)

lemma Stands.calls {m : Module} {routine : UInt16} {below arguments : List Value}
    {parameters : List String} (h : t.Stands f callers position depth)
    (hcalls : Calls m routine t t' below arguments)
    (hparameters : m.parameters routine = .ok parameters) (hle : parameters.length ≤ depth) :
    t'.Waits f callers position (depth - parameters.length) := by
  obtain ⟨⟨kept, hframes⟩, hsize⟩ := h
  obtain ⟨names, hnames, hlength⟩ := hcalls.parameters
  cases hnames.symm.trans hparameters
  have hstack := congrArg List.length hcalls.stack
  rw [List.length_append, Array.length_toList, hlength] at hstack
  obtain rfl := hcalls.result
  refine ⟨{ module := m, routine, arguments := arguments.toArray, base := below.length }, below,
    kept, rfl, by omega, ⟨[], _, ?_, rfl, by simp⟩, List.prefix_rfl⟩
  simp [hframes]

lemma eq_of_fetch {name : String} {arguments : Array Value} {body : Body} {i i' : Instruction}
    (hbody : f.module.body f.routine = .ok body) (hi : Bytes.Holds body.code position i.encode)
    (hfetch : fetch name { f with position, arguments } = .ok (i', size)) : i' = i := by
  simp only [fetch, hbody, Except.mapError, Except.ok_bind] at hfetch
  split at hfetch
  · cases hfetch
  · rw [Instruction.decode_of_holds hi] at hfetch
    cases hfetch
    rfl

end Thread

def Setting.Keeps (s : Setting) (modules : Std.TreeMap String Module) : Prop :=
  ∀ (name : String) m, modules[name]? = some m → s.modules[name]? = some m

namespace Site

open Thread (Stands Waits)

variable {σ : Type} [Stage σ] {s : Setting} {t t' : Thread} {w w' : World σ} {flow : Flow}
  {f : Frame} {callers : List Frame} {i : Instruction} {size depth next : Nat}
  {K : Nat → Nat → Prop} {site : Site}

lemma Allows.execute (hkeeps : s.Keeps site.modules) (h : site.Allows next depth K i)
    (ht : t.Stands f callers next depth)
    (hexecute : t.execute s site.module f.routine next size w i = (.ok (flow, t'), w')) :
    (∃ p d, t'.Stands f callers p d ∧ K p d) ∨ (∃ p d, t'.Waits f callers p d ∧ K p (d + 1)) ∨
      t'.frames.length ≤ callers.length := by
  have goes {d : Nat} (ht : t'.Stands f callers next d) (hK : K next d) :
      (∃ p d, t'.Stands f callers p d ∧ K p d) ∨
        (∃ p d, t'.Waits f callers p d ∧ K p (d + 1)) ∨ t'.frames.length ≤ callers.length :=
    .inl ⟨next, d, ht, hK⟩
  cases i with
  | load value =>
    obtain ⟨v, -, hok⟩ := Except.bind_eq_ok_iff.mp (Thread.quietly_ok hexecute).2
    cases hok
    exact goes (ht.push v) h.2
  | loadArgument index =>
    obtain ⟨v, -, hok⟩ := Except.bind_eq_ok_iff.mp (Thread.quietly_ok hexecute).2
    cases hok
    exact goes (ht.push v) h.2
  | storeArgument index =>
    obtain ⟨⟨v, t₁⟩, hpop, hok⟩ := Except.bind_eq_ok_iff.mp (Thread.quietly_ok hexecute).2
    exact goes ((ht.pop hpop).setArgument hok) h.2.2
  | loadGlobal token =>
    obtain ⟨name, -, hok⟩ := Except.bind_eq_ok_iff.mp (Thread.quietly_ok hexecute).2
    cases hok
    exact goes (ht.push _) h.2
  | storeGlobal token =>
    simp only [Thread.execute] at hexecute
    split at hexecute
    · cases hexecute
    · cases hexecute
    · next name v t₁ _ hpop =>
      cases hexecute
      exact goes (ht.pop hpop) h.2.2
  | binary op =>
    obtain ⟨⟨right, t₁⟩, hright, hok⟩ := Except.bind_eq_ok_iff.mp (Thread.quietly_ok hexecute).2
    obtain ⟨⟨left, t₂⟩, hleft, hok⟩ := Except.bind_eq_ok_iff.mp hok
    obtain ⟨v, -, hok⟩ := Except.bind_eq_ok_iff.mp hok
    cases hok
    obtain ⟨htwo, hK⟩ := h
    refine goes (((ht.pop hright).pop hleft).push v) ?_
    rwa [show depth - 1 - 1 + 1 = depth - 1 by omega]
  | unary op =>
    obtain ⟨⟨operand, t₁⟩, hpop, hok⟩ := Except.bind_eq_ok_iff.mp (Thread.quietly_ok hexecute).2
    obtain ⟨v, -, hok⟩ := Except.bind_eq_ok_iff.mp hok
    cases hok
    refine goes ((ht.pop hpop).push v) ?_
    rw [Nat.sub_add_cancel h.1]
    exact h.2
  | jump offset =>
    obtain ⟨target, htarget, hstands⟩ := ht.jump (Thread.quietly_ok hexecute).2
    obtain ⟨target', htarget', -, hK⟩ := h
    obtain rfl : target' = target := by omega
    exact .inl ⟨target', depth, hstands, hK⟩
  | jumpIfTrue offset | jumpIfFalse offset =>
    obtain ⟨-, hnext, target', htarget', -, hK⟩ := h
    obtain hstands | ⟨target, htarget, hstands⟩ := ht.jumpIf (Thread.quietly_ok hexecute).2
    · exact goes hstands hnext
    · obtain rfl : target' = target := by omega
      exact .inl ⟨target', depth - 1, hstands, hK⟩
  | call routine =>
    obtain ⟨below, arguments, hcalls⟩ := Thread.calls_of_call (Thread.quietly_ok hexecute).2
    obtain ⟨parameters, hparameters, hle, hK⟩ := h
    exact .inr (.inl ⟨next, _, ht.calls hcalls hparameters hle, hK⟩)
  | callFar index routine =>
    obtain ⟨name, m, hname, hm, hcall⟩ := Thread.callFar_ok (Thread.quietly_ok hexecute).2
    obtain ⟨below, arguments, hcalls⟩ := Thread.calls_of_call hcall
    obtain ⟨name', m', hname', hm', parameters, hparameters, hle, hK⟩ := h
    cases hname.symm.trans hname'
    cases hm.symm.trans (hkeeps _ _ hm')
    exact .inr (.inl ⟨next, _, ht.calls hcalls hparameters hle, hK⟩)
  | dispatch builtin count =>
    obtain ⟨signature, -, -, hle, hK⟩ := h
    simp only [Thread.execute, Thread.dispatch] at hexecute
    split at hexecute
    · cases hexecute
    · next values t₁ hpop =>
      split at hexecute
      · cases hexecute
      · next request _ =>
        -- whatever the request does to the world, it leaves one value on the stack
        have hpush := (ht.popMany hpop).push (request.run s.now w).1
        split at hexecute
        · cases hexecute
          exact goes hpush hK
        · cases hexecute
          exact goes hpush hK
  | present token =>
    simp only [Thread.execute] at hexecute
    split at hexecute
    · cases hexecute
    · cases hexecute
      exact goes ht h.2
  | beginDialogue index =>
    simp only [Thread.execute] at hexecute
    split at hexecute
    · cases hexecute
    · cases hexecute
      exact goes ht h
  | selectStart | selectEnd =>
    cases hexecute
    exact goes ht h
  | isPressed token =>
    simp only [Thread.execute] at hexecute
    split at hexecute
    · cases hexecute
    · cases hexecute
      exact goes (ht.push _) h.2
  | pop =>
    obtain ⟨⟨v, t₁⟩, hpop, hok⟩ := Except.bind_eq_ok_iff.mp (Thread.quietly_ok hexecute).2
    cases hok
    exact goes (ht.pop hpop) h.2
  | dup =>
    obtain ⟨⟨v, t₁⟩, hpop, hok⟩ := Except.bind_eq_ok_iff.mp (Thread.quietly_ok hexecute).2
    cases hok
    refine goes (((ht.pop hpop).push v).push v) ?_
    rw [Nat.sub_add_cancel h.1]
    exact h.2
  | trap token =>
    obtain ⟨message, -, hok⟩ := Except.bind_eq_ok_iff.mp (Thread.quietly_ok hexecute).2
    cases hok
  | ret =>
    obtain ⟨⟨arguments, hframes⟩, -⟩ := ht
    have hleave : t.leave = (flow, t') := Except.ok.inj (congrArg Prod.fst hexecute)
    rw [show t' = t.leave.2 by rw [hleave]]
    refine .inr (.inr ?_)
    cases callers <;> simp [Thread.leave, hframes, Thread.terminate]

theorem Allows.step {position : Nat} (hkeeps : s.Keeps site.modules)
    (hmodule : site.module = f.module) {body : Body} (hbody : f.module.body f.routine = .ok body)
    (hi : Bytes.Holds body.code position i.encode) (h : site.Allows (position + i.size) depth K i)
    (ht : t.Stands f callers position depth) (hstep : t.step s w = (.ok (flow, t'), w')) :
    (∃ p d, t'.Stands f callers p d ∧ K p d) ∨ (∃ p d, t'.Waits f callers p d ∧ K p (d + 1)) ∨
      t'.frames.length ≤ callers.length := by
  obtain ⟨⟨arguments, hframes⟩, hsize⟩ := ht
  obtain ⟨hnil, -, -⟩ | ⟨frame, outer, i', size, hframes', hfetch, hexecute, -⟩ :=
    Thread.step_cases hstep
  · rw [hframes] at hnil
    cases hnil
  cases hframes.symm.trans hframes'
  obtain rfl := Thread.eq_of_fetch hbody hi hfetch
  have hpast : (t.past { f with position, arguments } callers i').Stands f callers
      (position + i'.size) depth :=
    ⟨⟨arguments, rfl⟩, hsize⟩
  obtain ⟨modules, module, parameters, code⟩ := site
  obtain rfl : module = f.module := hmodule
  exact h.execute hkeeps hpast hexecute

end Site

namespace Thread

/-- The routine that was called with the frame `f` over `callers` has not returned, the values in
`stack` are at the bottom of the stack, and the routine is at a place with the property `K`, or will
be when the routine that it has called returns. -/
structure Busy (f : Frame) (callers : List Frame) (stack : Array Value) (K : Nat → Nat → Prop)
    (t : Thread) : Prop where
  inside : t.Inside f stack.toList callers
  place : (∃ p d, t.Stands f callers p d ∧ K p d) ∨ ∃ p d, t.Waits f callers p d ∧ K p (d + 1)

variable {σ : Type} [Stage σ] {s : Setting} {t t' : Thread} {w w' : World σ} {flow : Flow}
  {f : Frame} {callers : List Frame} {stack : Array Value} {K K' : Nat → Nat → Prop} {site : Site}
  {body : Body}

lemma Inside.length_lt {callee : Frame} {below : List Value}
    (h : t.Inside callee below callers) : callers.length < t.frames.length := by
  obtain ⟨inner, frame, hframes, -, -⟩ := h.frames
  rw [hframes, List.length_append, List.length_cons]
  omega

lemma Busy.status (h : t.Busy f callers stack K) (status : Status) :
    Busy f callers stack K { t with status } := by
  refine ⟨⟨h.inside.frames, h.inside.stack⟩, h.place.imp_right ?_⟩
  rintro ⟨p, d, ⟨callee, below, arguments, hbase, hlength, hinside⟩, hK⟩
  exact ⟨p, d, ⟨callee, below, arguments, hbase, hlength, hinside.frames, hinside.stack⟩, hK⟩

theorem Busy.step (hkeeps : s.Keeps site.modules) (hmodule : site.module = f.module)
    (hbody : f.module.body f.routine = .ok body) (hbase : f.base = stack.size)
    (hK : ∀ p d, K p d → K' p d)
    (hgo : ∀ p d, t.Stands f callers p d → K p d → ∃ i, Bytes.Holds body.code p i.encode ∧
      site.Allows (p + i.size) d K' i)
    (h : t.Busy f callers stack K) (hstep : t.step s w = (.ok (flow, t'), w')) :
    t'.Busy f callers stack K' ∨ t' = t'.terminate ∨ Returns f stack.toList callers t t' := by
  rcases h.inside.moves (by simpa using hbase) (.step hstep) with hinside | hexit
  · refine .inl ⟨hinside, ?_⟩
    obtain ⟨p, d, hstands, hplace⟩ | ⟨p, d, hwaits, hplace⟩ := h.place
    · obtain ⟨i, hi, hallows⟩ := hgo p d hstands hplace
      obtain hstands | hwaits | hgone := hallows.step hkeeps hmodule hbody hi hstands hstep
      · exact .inl hstands
      · exact .inr hwaits
      · exact absurd hinside.length_lt (Nat.not_lt.mpr hgone)
    · obtain ⟨callee, below, arguments, hcallee, hlength, hcalled⟩ := hwaits
      rcases hcalled.moves hcallee (.step hstep) with hcalled | hend | hreturns
      · exact .inr ⟨p, d, ⟨callee, below, arguments, hcallee, hlength, hcalled⟩, hK _ _ hplace⟩
      · rw [hend] at hinside
        exact absurd hinside.length_lt (Nat.not_lt_zero _)
      · refine .inl ⟨p, d + 1, ⟨⟨arguments, hreturns.frames⟩, ?_⟩, hK _ _ hplace⟩
        rw [← Array.length_toList, hreturns.stack, List.length_append, hlength]
        rfl
  · exact .inr hexit

end Thread

inductive Change (σ : Type) where
  | step (s : Setting) (w : World σ) (flow : Flow) (w' : World σ)
  | status (status : Status)
  | ends

namespace Change

variable {σ : Type} [Stage σ] {modules : Std.TreeMap String Module} {t t' : Thread} {x : Change σ}

def Makes (modules : Std.TreeMap String Module) (t t' : Thread) : Change σ → Prop
  | step s w flow w' => s.Keeps modules ∧ t.step s w = (.ok (flow, t'), w')
  | status new => t' = { t with status := new }
  | ends => t' = t.terminate

lemma Makes.name (h : x.Makes modules t t') : t'.name = t.name := by
  cases x with
  | step s w flow w' => exact (Thread.same_step h.2).2
  | status status =>
    cases h
    rfl
  | ends =>
    cases h
    rfl

end Change

end Stagecraft
