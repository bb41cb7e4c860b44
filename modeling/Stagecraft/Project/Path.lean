import Stagecraft.Text.Class

/-!
Paths are texts with slashes; a normal path has no empty part, no `.`, no `..` and no backslash.
-/

namespace Stagecraft.Path

def parts (path : String) : List String :=
  (Text.split '/' (path.toList.map fun c => if c == '\\' then '/' else c)).map String.ofList

def descend (trail : List String) (part : String) : List String :=
  if part.isEmpty || part == "." then trail
  else if part == ".." then trail.tail
  else part :: trail

def normalize (path : String) : String :=
  Text.join "/" ((parts path).foldl descend []).reverse

def folder (path : String) : String :=
  let parts := (Text.split '/' path.toList).map String.ofList
  Text.join "/" (parts.filter fun part => !part.isEmpty && part != ".").dropLast

/-- The file that `target` names in the file `current`: one next to it if that is known, else one
counted from the root if that is known. -/
def resolve (isKnown : String → Bool) (current target : String) : String :=
  let near := normalize (if target.startsWith "/" then target else folder current ++ "/" ++ target)
  let rooted := normalize target
  if !isKnown near && isKnown rooted then rooted else near

end Stagecraft.Path
