import Stagecraft.Proofs.Code.Landings
import Stagecraft.Proofs.Code.Menu

/-!
The code of a selection goes through phases: it begins, asks for one label after the other, and
either rests after a round without a choice, or plays the body of the case that was taken and is
left.
-/

namespace Stagecraft

open Bytes (Holds)

inductive Phase where
  | opens
  | asks (i : Nat)
  | hears (i : Nat) (pressed : Bool)
  | enters (i : Nat)
  | plays (i : Nat)
  | leaves (i : Nat)
  | rests
  | left (i : Nat)
  deriving DecidableEq

inductive Doing where
  | begins
  | asks (label : String) (pressed : Bool)
  | yields
  deriving DecidableEq

def Doing.Seen [Stage σ] (thread : String) (w : World σ) (flow : Flow) (w' : World σ) :
    Option Doing → Prop
  | none => flow = .next ∧ w' = w
  | some .begins => flow = .next ∧
      w' = { w with stage := Stage.perform (.beginSelect thread) w.stage }
  | some (.asks label pressed) => flow = .next ∧
      ∃ stage, Stage.poll thread label w.stage = (pressed, stage) ∧ w' = { w with stage }
  | some .yields => flow = .yield ∧ w' = w

namespace Phase

inductive Turns (labels : List String) : Phase → Option Doing → Phase → Prop
  | begins : Turns labels .opens (some .begins) (.asks 0)
  | asks {i : Nat} {label : String} (pressed : Bool) (h : labels[i]? = some label) :
      Turns labels (.asks i) (some (.asks label pressed)) (.hears i pressed)
  | refused (i : Nat) : Turns labels (.hears i false) none (.asks (i + 1))
  | taken (i : Nat) : Turns labels (.hears i true) none (.enters i)
  | yields : Turns labels (.asks labels.length) (some .yields) .rests
  | again : Turns labels .rests none (.asks 0)
  | leaves (i : Nat) : Turns labels (.leaves i) none (.left i)

def isOwn : Phase → Bool
  | .opens | .asks _ | .hears _ _ | .leaves _ | .rests => true
  | .enters _ | .plays _ | .left _ => false

def round (labels : List String) : List Doing :=
  labels.map (.asks · false) ++ [.yields]

def asked (labels : List String) (rounds i : Nat) : List Doing :=
  .begins :: ((List.replicate rounds (round labels)).flatten ++ (labels.take i).map (.asks · false))

def seen (labels : List String) (rounds : Nat) : Phase → List Doing
  | .opens => []
  | .asks i => asked labels rounds i
  | .hears i pressed => asked labels rounds i ++ (labels[i]?.map (.asks · pressed)).toList
  | .enters i | .plays i | .leaves i | .left i =>
    asked labels rounds i ++ (labels[i]?.map (.asks · true)).toList
  | .rests => asked labels rounds 0

variable {labels : List String} {p p' : Phase} {doing : Option Doing}

lemma asked_succ (labels : List String) (rounds i : Nat) :
    asked labels rounds (i + 1) =
      asked labels rounds i ++ (labels[i]?.map (.asks · false)).toList := by
  cases h : labels[i]? <;> simp [asked, List.take_add_one, h]

lemma asked_round (labels : List String) (rounds : Nat) :
    asked labels rounds labels.length ++ [.yields] = asked labels (rounds + 1) 0 := by
  simp [asked, round, List.replicate_succ']

lemma Turns.seen (h : Turns labels p doing p') (rounds : Nat) :
    ∃ rounds', p'.seen labels rounds' = p.seen labels rounds ++ doing.toList := by
  cases h with
  | begins => exact ⟨0, by simp [Phase.seen, asked]⟩
  | asks pressed h => exact ⟨rounds, by simp [Phase.seen, h]⟩
  | refused i => exact ⟨rounds, by simp [Phase.seen, asked_succ]⟩
  | taken i => exact ⟨rounds, by simp [Phase.seen]⟩
  | yields => exact ⟨rounds + 1, (asked_round labels rounds).symm⟩
  | again => exact ⟨rounds, by simp [Phase.seen]⟩
  | leaves i => exact ⟨rounds, by simp [Phase.seen]⟩

end Phase

namespace Thread

def Rests (f : Frame) (callers : List Frame) (position : Nat) (stack : Array Value) (t : Thread) :
    Prop :=
  (∃ arguments, t.frames = { f with position, arguments } :: callers) ∧ t.stack = stack

variable {t : Thread} {f : Frame} {callers : List Frame} {position : Nat} {stack : Array Value}

lemma Rests.eq_at {body : Body} (h : t.Rests f callers position stack)
    (hbody : f.module.body f.routine = .ok body) (w : World σ) :
    ∃ arguments, t = (Spot.mk t f callers body hbody).at_ ⟨position, arguments, stack, w⟩ := by
  obtain ⟨id, name, home, frames, found, status, dialogue⟩ := t
  obtain ⟨⟨arguments, rfl⟩, rfl⟩ := h
  exact ⟨arguments, rfl⟩

lemma rests_at {body : Body} (hbody : f.module.body f.routine = .ok body) (arguments : Array Value)
    (w : World σ) :
    ((Spot.mk t f callers body hbody).at_ ⟨position, arguments, stack, w⟩).Rests f callers position
      stack :=
  ⟨⟨arguments, rfl⟩, rfl⟩

end Thread

namespace Menu

/-- A thread in which a routine, called with the frame `f` over `callers`, runs the code of a
selection, is in a phase. The values in `stack` are on the stack before, between and after the
bodies, and below what the bodies put there. -/
def At (menu : Menu) (f : Frame) (callers : List Frame) (stack : Array Value) (t : Thread) :
    Phase → Prop
  | .opens => t.Rests f callers menu.start stack
  | .asks i => i ≤ menu.entries.length ∧ t.Rests f callers (menu.ask i) stack
  | .hears i pressed => i < menu.entries.length ∧
      t.Rests f callers (menu.ask i + 3) (stack.push (.flag pressed))
  | .enters i => i < menu.entries.length ∧ t.Rests f callers (menu.ask i + 6) stack
  | .plays i => ∃ entry, menu.entries[i]? = some entry ∧ stack.toList <+: t.stack.toList ∧
      ∃ inner position arguments, t.frames = inner ++ { f with position, arguments } :: callers ∧
        (∀ g ∈ inner, stack.size ≤ g.base) ∧ entry.body.Starts (menu.ask i + 6) position
  | .leaves i => ∃ entry, menu.entries[i]? = some entry ∧
      t.Rests f callers (menu.ask i + 6 + entry.body.extent) stack
  | .rests => t.Rests f callers (menu.wait + 1) stack
  | .left i => i < menu.entries.length ∧ t.Rests f callers menu.stop stack

def Works [Stage σ] (menu : Menu) (f : Frame) (callers : List Frame) (stack : Array Value)
    (s : Setting) (w : World σ) (phase : Phase) (t : Thread) : Prop :=
  ∃ flow t' w' doing phase', t.step s w = (.ok (flow, t'), w') ∧
    phase.Turns menu.labels doing phase' ∧ Doing.Seen t.name w flow w' doing ∧
    menu.At f callers stack t' phase'

variable {σ : Type} [Stage σ] {menu : Menu} {f : Frame} {callers : List Frame}
  {stack stack' : Array Value} {t : Thread} {phase phase' : Phase} {body : Body} {s : Setting}
  {w : World σ} {position : Nat} {arguments : Array Value} {doing : Option Doing} {b : Moment σ}

lemma works_of_step {flow : Flow} (hbody : f.module.body f.routine = .ok body)
    (ht : t = (Spot.mk t f callers body hbody).at_ ⟨position, arguments, stack', w⟩)
    (hstep : ((Spot.mk t f callers body hbody).at_ ⟨position, arguments, stack', w⟩).step s w =
      (.ok (flow, (Spot.mk t f callers body hbody).at_ b), b.world))
    (hturn : phase.Turns menu.labels doing phase') (hseen : Doing.Seen t.name w flow b.world doing)
    (hat : ∀ t' : Thread, t'.Rests f callers b.position b.stack →
      menu.At f callers stack t' phase') :
    menu.Works f callers stack s w phase t := by
  rw [← ht] at hstep
  exact ⟨flow, _, b.world, doing, phase', hstep, hturn, hseen,
    hat _ (Thread.rests_at hbody b.arguments b.world)⟩

theorem At.works (hlaid : menu.Laid f.module body.code)
    (hbody : f.module.body f.routine = .ok body) (hbase : f.base ≤ stack.size)
    (h : menu.At f callers stack t phase) (hown : phase.isOwn) (s : Setting) (w : World σ) :
    menu.Works f callers stack s w phase t := by
  have hstop : menu.stop ≤ body.code.size := hlaid.stop_le
  have hsize (i : Nat) : menu.ask i ≤ body.code.size :=
    (menu.ask_le_wait i).trans ((Nat.le_add_right _ 4).trans hstop)
  cases phase with
  | opens =>
    obtain ⟨arguments, ht⟩ := h.eq_at hbody w
    refine works_of_step hbody ht (Spot.next_selectStart hlaid.begins) .begins ⟨rfl, rfl⟩
      fun t' ht' => ⟨Nat.zero_le _, ?_⟩
    rw [ask_zero]
    exact ht'
  | asks i =>
    obtain ⟨hi, h⟩ := h
    obtain ⟨arguments, ht⟩ := h.eq_at hbody w
    -- a label is left to ask for, or the selection yields
    rcases Nat.lt_or_eq_of_le hi with hi | rfl
    · have hentry := List.getElem?_eq_getElem hi
      obtain ⟨token, htext, hask⟩ := (hlaid.entries i _ hentry).asks
      rcases hpoll : Stage.poll t.name menu.entries[i].label w.stage with ⟨pressed, stage⟩
      have hlabel : menu.labels[i]? = some menu.entries[i].label := by simp [labels, hentry]
      exact works_of_step hbody ht (Spot.next_isPressed hask htext hpoll) (.asks pressed hlabel)
        ⟨rfl, stage, hpoll, rfl⟩ fun t' ht' => ⟨hi, ht'⟩
    · have hturn : (Phase.asks menu.entries.length).Turns menu.labels (some .yields) .rests := by
        rw [← List.length_map (·.label)]
        exact .yields
      exact works_of_step hbody ht (Spot.step_selectEnd hlaid.waits) hturn ⟨rfl, rfl⟩
        fun t' ht' => ht'
  | hears i pressed =>
    obtain ⟨hi, h⟩ := h
    obtain ⟨arguments, ht⟩ := h.eq_at hbody w
    have hentry := List.getElem?_eq_getElem hi
    obtain ⟨offset, hskip, htarget⟩ := (hlaid.entries i _ hentry).skips
    rw [← ask_succ hentry] at htarget
    have hnext : (Spot.mk t f callers body hbody).Next s
        ⟨menu.ask i + 3, arguments, stack.push (.flag pressed), w⟩
        ⟨if pressed = false then menu.ask (i + 1) else menu.ask i + 6, arguments, stack, w⟩ :=
      Spot.next_branch hskip hbase rfl (by push_cast; omega) (hsize (i + 1))
    cases pressed with
    | false => exact works_of_step hbody ht hnext (.refused i) ⟨rfl, rfl⟩ fun t' ht' => ⟨hi, ht'⟩
    | true => exact works_of_step hbody ht hnext (.taken i) ⟨rfl, rfl⟩ fun t' ht' => ⟨hi, ht'⟩
  | leaves i =>
    obtain ⟨entry, hentry, h⟩ := h
    obtain ⟨arguments, ht⟩ := h.eq_at hbody w
    obtain ⟨offset, hleave, htarget⟩ := (hlaid.entries i entry hentry).leaves
    have hi : i < menu.entries.length := (List.getElem?_eq_some_iff.mp hentry).1
    refine works_of_step hbody ht (Spot.next_jump hleave ?_ hstop) (.leaves i) ⟨rfl, rfl⟩
      fun t' ht' => ⟨hi, ht'⟩
    simp only [MenuEntry.extent] at htarget
    push_cast at htarget ⊢
    omega
  | rests =>
    obtain ⟨arguments, ht⟩ := h.eq_at hbody w
    obtain ⟨offset, hback, htarget⟩ := hlaid.again
    refine works_of_step hbody ht (Spot.next_jump hback ?_ (hsize 0)) .again ⟨rfl, rfl⟩
      fun t' ht' => ⟨Nat.zero_le _, ht'⟩
    simp only [stop] at htarget
    push_cast at htarget ⊢
    omega
  | enters _ | plays _ | left _ => cases hown

end Menu

end Stagecraft
