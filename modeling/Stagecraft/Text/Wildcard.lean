import Stagecraft.Text.Class

namespace Stagecraft.Text.Wildcard

def dropFront? : List Char → List Char → Option (List Char)
  | [], cs => some cs
  | _ :: _, [] => none
  | p :: part, c :: cs => if p == c then dropFront? part cs else none

def after? (part : List Char) : List Char → Option (List Char)
  | [] => dropFront? part []
  | c :: cs => (dropFront? part (c :: cs)).or (after? part cs)

def restMatches : List (List Char) → List Char → Bool
  | [], cs => cs.isEmpty
  | [part], cs => part.isSuffixOf cs
  | part :: parts, cs =>
    match after? part cs with
    | some cs => restMatches parts cs
    | none => false

def hasForm (pattern text : String) : Bool :=
  match split '*' pattern.toList with
  | [] => false
  | part :: parts =>
    match dropFront? part text.toList with
    | some cs => restMatches parts cs
    | none => false

end Stagecraft.Text.Wildcard
