import Mathlib
import Stagecraft.Proofs.Machine.History
import Stagecraft.Proofs.Machine.Told
import Stagecraft.Proofs.Safety.Launched
import Stagecraft.Scenario.Play

/-!
In a tick every offer of choices takes one action, which makes one of these choices; then, if
threads wait for the player, one action advances.
-/

namespace Stagecraft

open Scenario (Event)

namespace Scenario

namespace Event

def IsReport : Event → Prop
  | dialogue .. | text .. | host _ | error .. => True
  | _ => False

def isSelect : Event → Bool
  | select .. => true
  | _ => false

def isWaitKey : Event → Bool
  | waitKey _ => true
  | _ => false

end Event

inductive Answers : Event → Action → Prop
  | choose {thread label : String} {choices : List String} (h : label ∈ choices) :
      Answers (.select thread choices) (.choose label)

lemma isSelect_of_answers {events : List Event} {actions : List Action}
    (h : List.Forall₂ Answers events actions) : ∀ e ∈ events, e.isSelect := by
  induction h with
  | nil => simp
  | cons h _ ih =>
    cases h
    simpa [Event.isSelect] using ih

lemma takeChoice_ok {index : Nat} {label : String} {actions rest : List Action}
    (h : takeChoice index actions = .ok (label, rest)) : actions = .choose label :: rest := by
  unfold takeChoice at h
  split at h
  · cases h
  · cases h
    rfl
  · cases h

lemma takeAdvance_ok {index : Nat} {actions rest : List Action}
    (h : takeAdvance index actions = .ok rest) : actions = .advance :: rest := by
  unfold takeAdvance at h
  split at h
  · cases h
  · cases h
    rfl
  · cases h

end Scenario

namespace RecordingStage

def Records (s s' : RecordingStage) : Prop :=
  ∃ events : List Event, s'.events.toList = s.events.toList ++ events ∧ ∀ e ∈ events, e.IsReport

variable {s s' s'' : RecordingStage}

lemma Records.of_eq (h : s'.events = s.events) : s.Records s' :=
  ⟨[], by simp [h], by simp⟩

lemma Records.of_push {e : Event} (h : s'.events = s.events.push e) (he : e.IsReport) :
    s.Records s' :=
  ⟨[e], by simp [h], by simpa using he⟩

lemma Records.trans (h : s.Records s') (h' : s'.Records s'') : s.Records s'' := by
  obtain ⟨events, hs, he⟩ := h
  obtain ⟨events', hs', he'⟩ := h'
  refine ⟨events ++ events', by rw [hs', hs, List.append_assoc], fun e hmem => ?_⟩
  exact (List.mem_append.mp hmem).elim (he e) (he' e)

lemma records_told (h : Stage.Told s s') : s.Records s' := by
  cases h with
  | perform cue =>
    cases cue with
    | beginSelect | setGlobal => exact .of_eq rfl
    | _ => exact .of_push rfl trivial
  | load asset => cases asset <;> exact .of_push rfl trivial
  | poll thread label =>
    apply Records.of_eq
    simp only [Stage.poll, poll]
    split <;> rfl

lemma records_of_told (h : Relation.ReflTransGen Stage.Told s s') : s.Records s' := by
  induction h with
  | refl => exact .of_eq rfl
  | tail _ h ih => exact ih.trans (records_told h)

end RecordingStage

namespace Scenario.Play

variable {p p' p'' : Play} {events events' : List Event} {actions actions' : List Action}

structure Passes (p p' : Play) (events : List Event) (actions : List Action) : Prop where
  recorded : p'.stage.events.toList = p.stage.events.toList ++ events
  taken : p.actions = actions ++ p'.actions

lemma Passes.trans (h : Passes p p' events actions) (h' : Passes p' p'' events' actions') :
    Passes p p'' (events ++ events') (actions ++ actions') :=
  ⟨by rw [h'.recorded, h.recorded, List.append_assoc],
    by rw [h.taken, h'.taken, List.append_assoc]⟩

lemma foldl_record {α : Type} (f : α → Event) (xs : List α) (p : Play) :
    xs.foldl (fun p x => p.record (f x)) p =
      { p with stage := { p.stage with events := p.stage.events ++ (xs.map f).toArray } } := by
  induction xs generalizing p with
  | nil => simp
  | cons x rest ih =>
    rw [List.foldl_cons, ih]
    simp [record, RecordingStage.record]

lemma advanceMachine_ok (h : p.advanceMachine = .ok p') :
    p'.machine.threads = (p.machine.tick p.stage).2.1.threads ∧
      p'.machine.nextThread = (p.machine.tick p.stage).2.1.nextThread ∧
      ∃ reports, Passes p p' reports [] ∧ ∀ e ∈ reports, e.IsReport := by
  have hrecords := RecordingStage.records_of_told (p.machine.told_run p.machine.budget p.stage)
  unfold advanceMachine at h
  split at h
  · cases h
  · next machine stage heq =>
    rw [Machine.tick] at heq
    rw [heq] at hrecords
    obtain ⟨reports, hrecorded, hreports⟩ : p.stage.Records stage := hrecords
    dsimp only [Machine.takeErrors] at h
    rw [← Array.foldl_toList, foldl_record] at h
    cases h
    rw [Machine.tick, heq]
    refine ⟨rfl, rfl, reports ++ machine.errors.toList.map fun e => .error e.thread e.error.code,
      ⟨by simp [hrecorded], rfl⟩, fun e he => ?_⟩
    rcases List.mem_append.mp he with he | he
    · exact hreports e he
    · obtain ⟨error, -, rfl⟩ := List.mem_map.mp he
      trivial

lemma answerOffer_ok {offer : Offer} (h : p.answerOffer offer = .ok p') :
    p'.machine = p.machine ∧ ∃ label ∈ offer.choices.toList,
      Passes p p' [.select offer.thread offer.choices.toList] [.choose label] := by
  simp only [answerOffer, Except.bind_eq_ok_iff] at h
  obtain ⟨⟨label, rest⟩, htake, h⟩ := h
  split at h
  · next hlabel =>
    cases h
    exact ⟨rfl, label, by simpa using hlabel, by simp [record, RecordingStage.record,
      RecordingStage.choose], takeChoice_ok htake⟩
  · cases h

lemma foldlM_answerOffer {offers : List Offer} (h : offers.foldlM answerOffer p = .ok p') :
    p'.machine = p.machine ∧
      ∃ selects choices, List.Forall₂ Answers selects choices ∧ Passes p p' selects choices := by
  induction offers generalizing p with
  | nil =>
    cases h
    exact ⟨rfl, [], [], .nil, by simp, rfl⟩
  | cons offer rest ih =>
    rw [List.foldlM_cons, Except.bind_eq_ok_iff] at h
    obtain ⟨p₁, hoffer, h⟩ := h
    obtain ⟨hmachine, label, hlabel, hpass⟩ := answerOffer_ok hoffer
    obtain ⟨hmachine', selects, choices, hanswers, hpass'⟩ := ih h
    exact ⟨hmachine'.trans hmachine, _, _, .cons (.choose hlabel) hanswers, hpass.trans hpass'⟩

lemma answerOffers_ok (h : p.answerOffers = .ok p') :
    p'.machine = p.machine ∧
      ∃ selects choices, List.Forall₂ Answers selects choices ∧ Passes p p' selects choices := by
  -- taking the offers from the stage records nothing
  obtain ⟨hmachine, selects, choices, hanswers, hpass⟩ := foldlM_answerOffer h
  exact ⟨hmachine, selects, choices, hanswers, hpass.recorded, hpass.taken⟩

def waiting (p : Play) : List Thread :=
  p.machine.live.toList.filter isWaiting

def advances (p : Play) : List Action :=
  if p.waiting.isEmpty then [] else [.advance]

lemma answerWaits_ok (h : p.answerWaits = .ok p') :
    p'.machine = p.machine ∧
      Passes p p' (p.waiting.map (.waitKey ·.name)) p.advances := by
  have hwaiting : (p.machine.live.filter isWaiting).toList = p.waiting := Array.toList_filter
  unfold answerWaits at h
  dsimp only at h
  rw [← Array.isEmpty_toList, hwaiting] at h
  split at h
  · next hempty =>
    cases h
    rw [List.isEmpty_iff] at hempty
    exact ⟨rfl, by simp [hempty], by simp [advances, hempty]⟩
  · next hempty =>
    simp only [Except.bind_eq_ok_iff] at h
    obtain ⟨rest, htake, h⟩ := h
    rw [← Array.foldl_toList, hwaiting, foldl_record] at htake h
    cases h
    refine ⟨rfl, by simp, ?_⟩
    rw [advances, if_neg hempty]
    exact takeAdvance_ok htake

/-- A tick of a play. Its offers are answered by one action each, in their order; then one action
advances if threads wait, each of which is recorded once. -/
structure Round (p p' : Play) (events : List Event) (actions : List Action) : Prop
    extends Passes p p' events actions where
  ticked : p.tick = .ok p'
  answered : ∃ choices, List.Forall₂ Answers (events.filter Event.isSelect) choices ∧
    actions = choices ++ p'.advances
  waits : events.filter Event.isWaitKey = p'.waiting.map (.waitKey ·.name)
  once : ∀ t ∈ p'.waiting, events.count (.waitKey t.name) = 1
  notDone : .done ∉ events

lemma nodup_waiting (h : p.machine.Orderly) : (p.waiting.map Thread.name).Nodup := by
  have hlive (t : Thread) (ht : t ∈ p.waiting) : t ∈ p.machine.threads ∧ t.isLive := by
    have := (List.mem_filter.mp ht).1
    exact Array.mem_filter.mp (Array.mem_toList_iff.mp this)
  have hsub : p.waiting.Sublist p.machine.threads.toList := by
    refine List.filter_sublist.trans ?_
    rw [Machine.live, Array.toList_filter]
    exact List.filter_sublist
  rw [List.Nodup, List.pairwise_map]
  exact (h.names.sublist hsub).imp_of_mem fun ht hu hne => hne (hlive _ ht).2 (hlive _ hu).2

lemma filter_recorded {reports selects waits : List Event} (hr : ∀ e ∈ reports, e.IsReport)
    (hs : ∀ e ∈ selects, e.isSelect) (hw : ∀ e ∈ waits, e.isWaitKey) :
    (reports ++ selects ++ waits).filter Event.isSelect = selects ∧
      (reports ++ selects ++ waits).filter Event.isWaitKey = waits ∧
      .done ∉ reports ++ selects ++ waits := by
  have hreport (e : Event) (h : e.IsReport) :
      e.isSelect = false ∧ e.isWaitKey = false ∧ e ≠ .done := by
    cases e with
    | dialogue | text | host | error => exact ⟨rfl, rfl, nofun⟩
    | select | waitKey | done => cases h
  have hselect (e : Event) (h : e.isSelect) : e.isWaitKey = false ∧ e ≠ .done := by
    cases e with
    | select => exact ⟨rfl, nofun⟩
    | _ => simp [Event.isSelect] at h
  have hwait (e : Event) (h : e.isWaitKey) : e.isSelect = false ∧ e ≠ .done := by
    cases e with
    | waitKey => exact ⟨rfl, nofun⟩
    | _ => simp [Event.isWaitKey] at h
  refine ⟨?_, ?_, ?_⟩
  · rw [List.filter_append, List.filter_append, List.filter_eq_self.mpr hs,
      List.filter_eq_nil_iff.mpr fun e he => by simp [(hreport e (hr e he)).1],
      List.filter_eq_nil_iff.mpr fun e he => by simp [(hwait e (hw e he)).1]]
    simp
  · rw [List.filter_append, List.filter_append, List.filter_eq_self.mpr hw,
      List.filter_eq_nil_iff.mpr fun e he => by simp [(hreport e (hr e he)).2.1],
      List.filter_eq_nil_iff.mpr fun e he => by simp [(hselect e (hs e he)).1]]
    simp
  · intro hdone
    rcases List.mem_append.mp hdone with hdone | hdone
    · rcases List.mem_append.mp hdone with hdone | hdone
      · exact (hreport _ (hr _ hdone)).2.2 rfl
      · exact (hselect _ (hs _ hdone)).2 rfl
    · exact (hwait _ (hw _ hdone)).2 rfl

lemma round_of_tick (hm : p.machine.Orderly) (h : p.tick = .ok p') :
    p'.machine.Orderly ∧ ∃ events actions, Round p p' events actions := by
  have hticked := h
  simp only [tick, Except.bind_eq_ok_iff] at h
  obtain ⟨p₁, hadvance, p₂, hoffers, hwaits⟩ := h
  obtain ⟨hthreads, hnext, reports, hpass₁, hreports⟩ := advanceMachine_ok hadvance
  obtain ⟨hmachine₂, selects, choices, hanswers, hpass₂⟩ := answerOffers_ok hoffers
  obtain ⟨hmachine₃, hpass₃⟩ := answerWaits_ok hwaits
  have hm' : p'.machine.Orderly := by
    rw [hmachine₃, hmachine₂]
    exact (hm.run p.machine.budget p.stage).of_eq hthreads hnext
  have hwaiting : p₂.waiting = p'.waiting := by rw [waiting, waiting, hmachine₃]
  have hadvances : p₂.advances = p'.advances := by rw [advances, advances, hwaiting]
  rw [hwaiting, hadvances] at hpass₃
  have hwaits : ∀ e ∈ p'.waiting.map fun t => Event.waitKey t.name, e.isWaitKey := by
    simp [Event.isWaitKey]
  obtain ⟨hselects, hkeys, hdone⟩ :=
    filter_recorded hreports (isSelect_of_answers hanswers) hwaits
  refine ⟨hm', _, _, (hpass₁.trans hpass₂).trans hpass₃, hticked, ⟨choices, ?_, rfl⟩, hkeys,
    fun t ht => ?_, hdone⟩
  · rw [hselects]
    exact hanswers
  · have hnodup : (p'.waiting.map fun t => Event.waitKey t.name).Nodup := by
      have := (nodup_waiting hm').map (f := Event.waitKey) fun _ _ h => Event.waitKey.inj h
      rwa [List.map_map] at this
    rw [← List.count_filter (p := Event.isWaitKey) rfl, hkeys]
    exact List.count_eq_one_of_mem hnodup (List.mem_map.mpr ⟨t, ht, rfl⟩)

/-- The ticks of a play up to its end, with what is recorded and which actions are taken in each.
Threads are left after every tick but the last. -/
inductive Course (s : Scenario) : Play → List (List Event × List Action) → Play → Prop
  | last {p p' : Play} {events : List Event} {actions : List Action}
      (h : Round p p' events actions) (ended : p'.machine.live.isEmpty) :
      Course s p [(events, actions)] p'
  | next {p p' p'' : Play} {events : List Event} {actions : List Action}
      {rounds : List (List Event × List Action)} (h : Round p p' events actions)
      (goesOn : ¬p'.machine.live.isEmpty) (rest : Course s (p'.moveClock s.tickLength) rounds p'') :
      Course s p ((events, actions) :: rounds) p''

variable {s : Scenario} {rounds : List (List Event × List Action)}

lemma Course.passes (h : Course s p rounds p') :
    Passes p p' (rounds.flatMap Prod.fst) (rounds.flatMap Prod.snd) := by
  induction h with
  | last h ended => simpa using h.toPasses
  | next h goesOn _ ih => exact h.toPasses.trans ⟨ih.recorded, ih.taken⟩

lemma Course.notDone (h : Course s p rounds p') : .done ∉ rounds.flatMap Prod.fst := by
  induction h with
  | last h ended => simpa using h.notDone
  | next h goesOn _ ih =>
    rw [List.flatMap_cons, List.mem_append]
    exact fun hdone => hdone.elim h.notDone ih

lemma Course.ended (h : Course s p rounds p') : p'.machine.live.isEmpty := by
  induction h with
  | last h ended => exact ended
  | next h goesOn _ ih => exact ih

lemma finish_ok {ticks : Nat} {r : Report} (h : p.finish s ticks = .ok r) :
    p.actions = [] ∧ r.events.toList = p.stage.events.toList ++ [.done] ∧
      r.actionsUsed = s.actions.length ∧ r.ticks = ticks := by
  simp only [finish] at h
  split at h
  · next hempty =>
    cases h
    have hnil : p.actions = [] := List.isEmpty_iff.mp hempty
    exact ⟨hnil, by simp [record, RecordingStage.record], by simp [record, hnil], rfl⟩
  · cases h

lemma course_of_goOn {left : Nat} {r : Report} (hm : p.machine.Orderly)
    (hleft : left ≤ s.maxTicks) (h : goOn s left p = .ok r) :
    ∃ rounds p', Course s p rounds p' ∧ p'.actions = [] ∧
      r.events.toList = p'.stage.events.toList ++ [.done] ∧ r.actionsUsed = s.actions.length ∧
      r.ticks = s.maxTicks - left + rounds.length := by
  induction left generalizing p with
  | zero => cases h
  | succ left ih =>
    simp only [goOn, Except.bind_eq_ok_iff] at h
    obtain ⟨p₁, htick, h⟩ := h
    obtain ⟨hm₁, events, actions, hround⟩ := round_of_tick hm htick
    split at h
    · next hended =>
      obtain ⟨hactions, hevents, hused, hticks⟩ := finish_ok h
      refine ⟨_, p₁, .last hround hended, hactions, hevents, hused, ?_⟩
      rw [hticks, List.length_singleton]
      omega
    · next hgoes =>
      obtain ⟨rounds, p', hcourse, hactions, hevents, hused, hticks⟩ :=
        ih (p := p₁.moveClock s.tickLength) hm₁ (Nat.le_of_succ_le hleft) h
      refine ⟨_, p', .next hround hgoes hcourse, hactions, hevents, hused, ?_⟩
      rw [hticks, List.length_cons]
      omega

end Scenario.Play

namespace Launch

lemma orderly_loadAll {pairs : List (String × Compiled)} {m m' : Machine} (hm : m.Orderly)
    (h : loadAll m pairs = .ok m') : m'.Orderly := by
  induction pairs generalizing m with
  | nil =>
    cases h
    exact hm
  | cons pair rest ih =>
    simp only [loadAll, Except.bind_eq_ok_iff] at h
    obtain ⟨loaded, -, h⟩ := h
    exact ih (m := m.addModule loaded) (hm.of_eq rfl rfl) h

lemma orderly_launch {options : Options} {launched : Launched}
    (h : launch options = .ok launched) : launched.machine.Orderly := by
  simp only [launch, Except.bind_eq_ok_iff, Except.mapError_eq_ok_iff] at h
  obtain ⟨project, -, module, -, machine, hload, h⟩ := h
  have hm := orderly_loadAll (.new options.seed options.budget) hload
  split at h
  · cases h
  · split at h
    · cases h
    · next entry _ =>
      have hcreate := hm.apply (.createThread mainThread module entry)
      split at h
      · next machine' heq =>
        cases h
        simpa only [Machine.Operation.apply, heq] using hcreate
      · cases h

end Launch

namespace Scenario

/-- A play that comes to a report has used all actions, in their order. In every tick each offer of
choices took one that makes one of its choices, and one that advances was taken after them exactly
if a thread waited for the player; each such thread is recorded once. The end is recorded once,
after the tick that left no thread. -/
theorem play_answered {s : Scenario} {files : Files} {r : Report} (h : s.play files = .ok r) :
    ∃ launched rounds p', Launch.launch { files, seed := some s.seed, module? := some s.module
                                          start? := s.start? } = .ok launched ∧
      Play.Course s { machine := launched.machine, actions := s.actions } rounds p' ∧
      p'.machine.live.isEmpty ∧ r.ticks = rounds.length ∧
      s.actions = rounds.flatMap Prod.snd ∧ r.actionsUsed = s.actions.length ∧
      r.events.toList = rounds.flatMap Prod.fst ++ [.done] ∧ .done ∉ rounds.flatMap Prod.fst := by
  simp only [play, Except.bind_eq_ok_iff, Except.mapError_eq_ok_iff] at h
  obtain ⟨launched, hlaunch, h⟩ := h
  obtain ⟨rounds, p', hcourse, hactions, hevents, hused, hticks⟩ :=
    Play.course_of_goOn (Launch.orderly_launch hlaunch) (Nat.le_refl _) h
  have hpasses := hcourse.passes
  refine ⟨launched, rounds, p', hlaunch, hcourse, hcourse.ended, by simpa using hticks, ?_, hused,
    ?_, hcourse.notDone⟩
  · simpa [hactions] using hpasses.taken
  · simpa [hevents] using hpasses.recorded

def sample : Scenario where
  version := currentVersion
  maxTicks := 3
  actions := [.advance, .choose "left"]

namespace Sample

open Launch.Sample (node)

def files : Files :=
  (∅ : Files).insert "main.nss" "chapter main { WaitKey(); select { case left: { } } }"

def source : Source where
  script := {
    path := "main.nss"
    includes := []
    members := [
      .chapter (node 0 1 54) "main" (.mk (node 1 14 54) [
        .expression (node 3 16 26) (.call (node 2 16 25) "WaitKey" []),
        .select (node 7 27 52)
          [.mk (node 6 36 50) "left" (.block (node 5 47 50) (.mk (node 4 47 50) []))]])] }
  includes := []

def symbol : RoutineSymbol :=
  { module := "main.nss", name := "main", kind := .chapter, index := 0, parameterCount := 0 }

def table : SymbolTable where
  path := "main.nss"
  includes := []
  members := {
    entries := #[("main", { node := 0, kind := .chapter, symbol := .routine symbol })]
    places := (∅ : Std.HashMap String Nat).insert "main" 0 }
  scopes := (∅ : Std.TreeMap Nat Scope).insert 0 {}
  symbols := (∅ : Std.TreeMap Nat Symbol).insert 0 (.routine symbol)

def bindings : Bindings where
  path := "main.nss"
  visible := ["main.nss"]
  references := (∅ : Std.TreeMap Nat Symbol).insert 2 (.builtin 1)

def builder : Builder where
  routines := #[
    { kind := .chapter, name := "main", parameters := [], dialogues := []
      code := Instruction.encodeAll [.dispatch 1 0, .pop, .selectStart, .isPressed 0,
        .jumpIfFalse 3, .jump 4, .selectEnd, .jump (-13), .load .null, .ret] }]
  heap := {
    texts := #["left"]
    index := (∅ : Std.HashMap String UInt16).insert "left" 0 }

def bytes : ByteArray :=
  builder.write.toOption.getD ByteArray.empty

def module : Module :=
  Module.ofBuilder "main.nss" builder

def launched : Launch.Launched where
  machine := {
    modules := (∅ : Std.TreeMap String Module).insert "main.nss" module
    threads := #[.start 1 { name := "main", module, routine := 0 } #[]]
    nextThread := 2
    random := { state := 1 } }
  module := "main.nss"
  entry := "main"
  diagnostics := #[]

def report : Report where
  events := #[.waitKey "main", .select "main" ["left"], .done]
  actionsUsed := 2
  ticks := 3
  globals := ∅

lemma read_files :
    Sources.read files = .ok ((∅ : Sources).insert "main.nss" source, #[]) := by
  have hparse : Parse.parseScript "main.nss"
      "chapter main { WaitKey(); select { case left: { } } }" = ⟨source.script, []⟩ := by cbv
  exact Launch.read_singleFile hparse rfl

lemma tables_sources : SymbolTables.ofSources ((∅ : Sources).insert "main.nss" source) =
    ((∅ : SymbolTables).insert "main.nss" table, #[]) := by
  have htable : SymbolTable.ofScript "main.nss" source.includes source.script =
      ⟨table, #[]⟩ := by
    simp [SymbolTable.ofScript, source, SymbolTable.addMember, Dictionary.contains,
      Dictionary.size, Member.nameAt, Member.parameters, Member.kind, SymbolTable.addParameters,
      SymbolTable.symbolOf, Member.dialogues, Block.dialogues, Statement.dialoguesAll,
      Statement.dialogues, Choice.dialoguesAll, Choice.dialogues, SymbolTable.addDialogues,
      Dictionary.insert, Member.node, node, table, symbol]
  simp [Launch.ofSources_singleFile, htable, CompiledProject.inFile]

lemma bindAll_sources : CompiledProject.bindAll ((∅ : Sources).insert "main.nss" source)
    ((∅ : SymbolTables).insert "main.nss" table) =
      ((∅ : Std.TreeMap String Bindings).insert "main.nss" bindings, #[]) := by
  have hvisible : Sources.visibleFrom ((∅ : Sources).insert "main.nss" source) "main.nss" =
      ["main.nss"] := by cbv
  have hid : Signature.idOf? "WaitKey" = some 1 := by cbv
  have hbindings : Bindings.ofScript ((∅ : SymbolTables).insert "main.nss" table) ["main.nss"]
      source.script = ⟨bindings, #[]⟩ := by
    simp [Bindings.ofScript, source, Bindings.addMember, Member.uses, Block.uses,
      Statement.usesAll, Statement.uses, Expression.uses, Expression.usesAll, Choice.usesAll,
      Choice.uses, Bindings.addUse, Surroundings.resolve, hid, bindings, node]
  rw [Launch.bindAll_singleFile _ hvisible, hbindings]
  simp [CompiledProject.inFile]

lemma launch_files :
    Launch.launch { files, seed := some sample.seed, module? := some sample.module
                    start? := sample.start? } = .ok launched := by
  have hroutines : Compiled.addRoutines { table, bindings } (Compiled.membersOf source.script)
      table.members.toList {} #[] = (.ok builder, #[]) := by cbv
  have hwrite : builder.write = .ok bytes := by cbv
  have hcompile := Launch.compile_singleFile read_files (by cbv) tables_sources bindAll_sources
    hroutines hwrite
  have hpath : Path.normalize "main.nss" = "main.nss" := by cbv
  have hload : Module.load "main.nss" bytes = .ok module := by cbv
  have hmodules (compiled : Compiled) :
      ((∅ : Std.TreeMap String Compiled).insert "main.nss" compiled).toList =
        [("main.nss", compiled)] := rfl
  simp [sample, Launch.launch, hcompile, Except.mapError, Launch.entryModule, hpath, hmodules,
    Launch.loadAll, hload]
  cbv

lemma play_files : sample.play files = .ok report := by
  have hplayed : Play.goOn sample 3 { machine := launched.machine, actions := sample.actions } =
      .ok report := by cbv
  rw [play, launch_files]
  exact hplayed

end Sample

theorem play_answered_sample :
    sample.play Sample.files = .ok Sample.report ∧ ∃ rounds p',
      Play.Course sample { machine := Sample.launched.machine, actions := sample.actions } rounds
        p' ∧ p'.machine.live.isEmpty ∧ rounds.length = 3 ∧
      rounds.flatMap Prod.snd = [.advance, .choose "left"] ∧
      rounds.flatMap Prod.fst = [.waitKey "main", .select "main" ["left"]] := by
  obtain ⟨launched, rounds, p', hlaunch, hcourse, hended, hticks, hactions, -, hevents, -⟩ :=
    play_answered Sample.play_files
  cases hlaunch.symm.trans Sample.launch_files
  refine ⟨Sample.play_files, rounds, p', hcourse, hended, hticks.symm, hactions.symm, ?_⟩
  exact List.append_cancel_right hevents.symm

end Scenario

end Stagecraft
