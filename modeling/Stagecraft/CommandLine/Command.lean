import Stagecraft.Text.Class

/-!
An option is written as two words, `--name value`, or as one, `--name=value`, and at most once; a
flag is the word `--name`.
-/

namespace Stagecraft.CommandLine

structure PlayOptions where
  scripts : String
  module? : Option String
  start? : Option String
  ticks : Nat
  tickLength : Nat
  seed? : Option UInt32
  deriving DecidableEq, Repr

inductive Command where
  | compile (scripts out : String)
  | dump (path : String) (asJson : Bool)
  | play (options : PlayOptions)
  deriving DecidableEq, Repr

structure Given where
  values : List (String × String) := []
  flags : List String := []

namespace Given

def value? (g : Given) (name : String) : Option String :=
  g.values.lookup name

def addValue (g : Given) (name value : String) : Option Given :=
  if (g.value? name).isSome then none else some { g with values := (name, value) :: g.values }

def addFlag (g : Given) (name : String) : Option Given :=
  if g.flags.contains name then none else some { g with flags := name :: g.flags }

end Given

def isValue (word : String) : Bool :=
  !word.startsWith "-" || word == "-"

def splitOption (word : String) : Option (String × Option String) :=
  match word.toList with
  | '-' :: '-' :: cs =>
    let name := String.ofList (cs.takeWhile (· != '='))
    match cs.dropWhile (· != '=') with
    | [] => some (name, none)
    | _ :: value => some (name, some (String.ofList value))
  | _ => none

def options (names flags : List String) (given : Given) : List String → Option Given
  | [] => some given
  | ["--"] => some given
  | word :: rest =>
    match splitOption word with
    | none => none
    | some (name, some value) =>
      if names.contains name then
        (given.addValue name value).bind fun given => options names flags given rest
      else none
    | some (name, none) =>
      if flags.contains name then
        (given.addFlag name).bind fun given => options names flags given rest
      else if names.contains name then
        match rest with
        | value :: rest =>
          if isValue value then
            (given.addValue name value).bind fun given => options names flags given rest
          else none
        | [] => none
      else none

def digits? (limit : Nat) (cs : List Char) : Option Nat :=
  if cs.isEmpty || !cs.all Char.isDigit then none
  else
    let n := cs.foldl (fun n c => 10 * n + (c.toNat - '0'.toNat)) 0
    if n ≤ limit then some n else none

def natural? (limit : Nat) (s : String) : Option Nat :=
  match s.toList with
  | '+' :: cs => digits? limit cs
  | cs => digits? limit cs

def signed? (limit : Nat) (s : String) : Option Nat :=
  match s.toList with
  | '-' :: cs => digits? 0 cs
  | _ => natural? limit s

def optional (f : String → Option α) : Option String → Option (Option α)
  | none => some none
  | some s => (f s).map some

def parse : List String → Option Command
  | "compile" :: words => do
    let given ← options ["scripts-dir", "out-dir"] [] {} words
    pure (.compile (← given.value? "scripts-dir") (← given.value? "out-dir"))
  | "dump" :: words => do
    let given ← options ["module"] ["json"] {} words
    pure (.dump (← given.value? "module") (given.flags.contains "json"))
  | "run" :: words => do
    let given ← options ["scripts-dir", "module", "entry", "ticks", "tick-ms", "seed"] [] {} words
    let limit := 0xffffffffffffffff
    let ticks ← optional (natural? limit) (given.value? "ticks")
    let tickLength ← optional (natural? limit) (given.value? "tick-ms")
    let seed ← optional (signed? 0xffffffff) (given.value? "seed")
    pure (.play {
      scripts := ← given.value? "scripts-dir"
      module? := given.value? "module"
      start? := given.value? "entry"
      ticks := ticks.getD 1000
      tickLength := tickLength.getD 16
      seed? := seed.map UInt32.ofNat })
  | _ => none

end Stagecraft.CommandLine
