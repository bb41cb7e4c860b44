import Stagecraft.Machine.Step

/-!
In a turn every thread that is ready runs for a limited number of steps, in the order in which the
threads were started; threads that are started during a turn wait for the next one.
-/

namespace Stagecraft

structure ThreadError where
  thread : String
  error : MachineError

structure Machine where
  modules : Std.TreeMap String Module := ∅
  registry : Registry := .standard
  threads : Array Thread := #[]
  nextThread : Nat := 1
  random : Random := { state := Random.defaultSeed }
  errors : Array ThreadError := #[]
  budget : Nat := 10000

namespace Machine

def new (seed : Option UInt32) (budget : Nat) : Machine :=
  { random := { state := seed.getD Random.defaultSeed }, budget }

/-- Adds a module, which takes the place of one with the same name. Threads keep the one they
have. -/
def addModule (m : Machine) (module : Module) : Machine :=
  { m with modules := m.modules.insert module.name module }

def hasName (name : String) (t : Thread) : Bool :=
  t.isLive && t.name == name

def update (name : String) (f : Thread → Thread) (threads : Array Thread) : Option (Array Thread) :=
  (threads.findIdx? (hasName name)).map fun i => threads.modify i f

/-- Starts a thread with null for each parameter. A live thread with the same name ends. -/
def spawn (m : Machine) (s : Spawn) : Except MachineError Nat × Machine :=
  match s.module.parameters s.routine with
  | .error e => (.error (.module e), m)
  | .ok parameters =>
    let threads := (update s.name Thread.terminate m.threads).getD m.threads
    let id := m.nextThread
    let t := Thread.start id s (Array.replicate parameters.length .null)
    (.ok id, { m with threads := threads.push t, nextThread := id + 1 })

def createThread (m : Machine) (name module entry : String) : Except MachineError Nat × Machine :=
  match m.modules[module]? with
  | none => (.error (.moduleNotLoaded module), m)
  | some found =>
    match found.find? entry with
    | none => (.error (.entryNotFound entry found.name), m)
    | some routine => m.spawn { name, module := found, routine }

def control (m : Machine) (name : String) (f : Thread → Thread) : Except MachineError Machine :=
  match update name f m.threads with
  | some threads => .ok { m with threads }
  | none => .error (.threadNotFound name)

def suspend (m : Machine) (name : String) : Except MachineError Machine :=
  m.control name fun t => if t.status == .running then { t with status := .held } else t

def resume (m : Machine) (name : String) : Except MachineError Machine :=
  m.control name fun t => if t.status == .held then { t with status := .running } else t

def kill (m : Machine) (name : String) : Except MachineError Machine :=
  m.control name Thread.terminate

def complete (m : Machine) (token : Nat) : Bool × Machine :=
  let isWaiting (t : Thread) : Bool := t.status == .waiting (.token token)
  (m.threads.any isWaiting,
    { m with threads := m.threads.map fun t =>
        if isWaiting t then { t with status := .running } else t })

def live (m : Machine) : Array Thread :=
  m.threads.filter Thread.isLive

def thread? (m : Machine) (name : String) : Option Thread :=
  m.threads.find? (hasName name)

def takeErrors (m : Machine) : Array ThreadError × Machine :=
  (m.errors, { m with errors := #[] })

def isDue (now : Nat) (input : Input) : Wait → Bool
  | .time deadline => deadline ≤ now
  | .input deadline => input.advance || deadline.any (· ≤ now)
  | .token _ => false

def wake (now : Nat) (input : Input) (t : Thread) : Thread :=
  match t.status with
  | .waiting reason => if isDue now input reason then { t with status := .running } else t
  | _ => t

def slice [Stage σ] (s : Setting) : Nat → Thread → World σ → Thread × Option MachineError × World σ
  | 0, t, w => (t, none, w)
  | budget + 1, t, w =>
    let ended := t.terminate
    match t.step s w with
    | (.ok (.next, t), w) => slice s budget t w
    | (.ok (_, t), w) => (t, none, w)
    | (.error e, w) => (ended, some e, w)

def spawnAll (m : Machine) : List Spawn → Machine
  | [] => m
  | s :: rest =>
    match m.spawn s with
    | (.ok _, m) => spawnAll m rest
    | (.error error, m) =>
      spawnAll { m with errors := m.errors.push { thread := s.name, error } } rest

structure Turn (σ : Type) where
  machine : Machine
  stage : σ
  moved : Bool := false

def visit [Stage σ] (now budget : Nat) (turn : Turn σ) (i : Nat) : Turn σ :=
  let m := turn.machine
  match m.threads[i]? with
  | none => turn
  | some t =>
    if t.status != .running then turn
    else
      let s : Setting := { modules := m.modules, registry := m.registry, now }
      let (t, error?, w) := slice s budget t { stage := turn.stage, random := m.random }
      let m := { m with
        threads := m.threads.setIfInBounds i t
        random := w.random
        errors := m.errors ++ (error?.map (ThreadError.mk t.name)).toArray }
      { machine := m.spawnAll w.spawns.toList, stage := w.stage, moved := true }

/-- Lets every thread that is ready run for `budget` steps at most. Tells whether there was one. -/
def run [Stage σ] (m : Machine) (budget : Nat) (stage : σ) :
    Except MachineError Bool × Machine × σ :=
  if budget == 0 then (.error .invalidBudget, m, stage)
  else
    let now := Stage.now stage
    let input := Stage.input stage
    let m := { m with threads := m.live.map (wake now input) }
    let turn := (List.range m.threads.size).foldl (visit now budget) { machine := m, stage }
    (.ok turn.moved, turn.machine, turn.stage)

def tick [Stage σ] (m : Machine) (stage : σ) : Except MachineError Bool × Machine × σ :=
  m.run m.budget stage

end Machine

end Stagecraft
