import Stagecraft.Project.Source

namespace Stagecraft.Sources

def includesOf (sources : Sources) (path : String) : List String :=
  (sources[path]?.map (·.includes)).getD []

def missingInclude? (sources : Sources) : Option (String × String) :=
  sources.toList.findSome? fun (path, source) =>
    (source.includes.find? (!sources.contains ·)).map (·, path)

mutual

/-- Follows includes depth first from `path`, which was reached through `trail`, its last file
first. Gives the files from which no cycle can be reached, or the chain of files that closes one.
`depth` is how many more files a chain without repetition can have. -/
def explore (sources : Sources) (depth : Nat) (trail : List String) (path : String)
    (settled : List String) : Except (List String) (List String) :=
  if trail.contains path then .error (path :: trail).reverse
  else if settled.contains path then .ok settled
  else match depth with
    | 0 => .ok settled
    | depth + 1 =>
      (exploreAll sources depth (path :: trail) (sources.includesOf path) settled).map (path :: ·)

def exploreAll (sources : Sources) (depth : Nat) (trail : List String) :
    List String → List String → Except (List String) (List String)
  | [], settled => .ok settled
  | path :: rest, settled =>
    match explore sources depth trail path settled with
    | .ok settled => exploreAll sources depth trail rest settled
    | .error chain => .error chain

end

def cycle? (sources : Sources) : Option (List String) :=
  match exploreAll sources sources.size [] sources.keys [] with
  | .ok _ => none
  | .error chain => some chain

def checkIncludes (sources : Sources) : Except CompileError Unit :=
  match sources.missingInclude? with
  | some (target, path) => .error (.includeNotFound target path)
  | none =>
    match sources.cycle? with
    | some chain => .error (.includeCycle chain)
    | none => .ok ()

def visitAll (sources : Sources) : Nat → List String → List String → List String
  | _, [], seen => seen.reverse
  | 0, _, seen => seen.reverse
  | fuel + 1, path :: queue, seen =>
    if seen.contains path then visitAll sources fuel queue seen
    else visitAll sources fuel (queue ++ sources.includesOf path) (path :: seen)

def edgeCount (sources : Sources) : Nat :=
  sources.foldl (fun count _ source => count + source.includes.length) 0

/-- The files whose members are visible from a file: the file itself, then what it includes,
directly or through others, breadth first. -/
def visibleFrom (sources : Sources) (path : String) : List String :=
  visitAll sources (sources.edgeCount + 1) [path] []

end Stagecraft.Sources
