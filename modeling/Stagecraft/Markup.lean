import Stagecraft.Token.Basic

/-!
A start tag that never finds its end tag becomes an element without content, and what follows it
stays beside it.
-/

namespace Stagecraft

inductive Markup where
  | text (s : String)
  | lineBreak
  | element (name : String) (attributes : List (String × String)) (closed : Bool)
      (children : List Markup)
  deriving Repr, Inhabited

namespace Markup

mutual

def render : Markup → String
  | text s => s
  | lineBreak => "\n"
  | element name attributes closed children =>
    let start := attributes.foldl (fun s (key, value) => s ++ " " ++ key ++ "=\"" ++ value ++ "\"")
      ("<" ++ name) ++ ">"
    if closed then start ++ renderAll children ++ "</" ++ name ++ ">" else start

def renderAll : List Markup → String
  | [] => ""
  | m :: rest => render m ++ renderAll rest

end

mutual

def plain : Markup → String
  | text s => s
  | lineBreak => "\n"
  | element _ _ _ children => plainAll children

def plainAll : List Markup → String
  | [] => ""
  | m :: rest => plain m ++ plainAll rest

end

def attribute? (attributes : List (String × String)) (key : String) : Option String :=
  (attributes.find? fun (name, _) => Token.sameIgnoringCase name key).map (·.2)

mutual

def attributeValues (key : String) : Markup → List (Option String)
  | text _ | lineBreak => []
  | element _ attributes _ children => attribute? attributes key :: attributeValuesAll key children

def attributeValuesAll (key : String) : List Markup → List (Option String)
  | [] => []
  | m :: rest => attributeValues key m ++ attributeValuesAll key rest

end

def ofText (cs : List Char) : List Markup :=
  let line (cs : List Char) : List Markup :=
    if cs.isEmpty then [] else [text (String.ofList cs)]
  match Text.split '\n' cs with
  | [] => []
  | first :: rest => line first ++ rest.flatMap fun cs => lineBreak :: line cs

structure Tag where
  isEnd : Bool
  inner : List Char

def tag? (cs : List Char) : Option (Tag × List Char) :=
  match cs with
  | '<' :: rest =>
    let (isEnd, body) := match rest with
      | '/' :: body => (true, body)
      | body => (false, body)
    if !(body.head?.any Text.isLetter) then none
    else
      let isInner (c : Char) : Bool := c != '<' && c != '>' && c != '\n'
      match body.dropWhile isInner with
      | '>' :: after => some ({ isEnd, inner := body.takeWhile isInner }, after)
      | _ => none
  | _ => none

def findTag (before : Array Char) : List Char → Option (List Char × Tag × List Char)
  | [] => none
  | c :: rest =>
    match tag? (c :: rest) with
    | some (tag, after) => some (before.toList, tag, after)
    | none => findTag (before.push c) rest

def attributeValue? (cs : List Char) : Option (List Char × List Char) :=
  let inQuotes (q : Char) (rest : List Char) : Option (List Char × List Char) :=
    match rest.dropWhile (· != q) with
    | _ :: after => some (rest.takeWhile (· != q), after)
    | [] => none
  match cs with
  | '"' :: rest => inQuotes '"' rest
  | '\x27' :: rest => inQuotes '\x27' rest
  | _ =>
    let isBare (c : Char) : Bool := !Text.isBlank c && c != '"' && c != '\x27' && c != '/'
    let bare := cs.takeWhile isBare
    if bare.isEmpty then none else some (bare, cs.dropWhile isBare)

def attributeAt? (cs : List Char) : Option ((String × String) × List Char) :=
  match cs with
  | [] => none
  | c :: rest =>
    if !(Text.isLetter c || c == '_') then none
    else
      let isKey (c : Char) : Bool := Text.isWord c || c == '-'
      let key := c :: rest.takeWhile isKey
      match (rest.dropWhile isKey).dropWhile Text.isBlank with
      | '=' :: after =>
        (attributeValue? (after.dropWhile Text.isBlank)).map fun (value, after) =>
          ((String.ofList key, String.ofList value), after)
      | _ => none

def attributesIn (fuel : Nat) (found : Array (String × String)) (cs : List Char) :
    List (String × String) :=
  match fuel, cs with
  | 0, _ => found.toList
  | _, [] => found.toList
  | fuel + 1, c :: rest =>
    match attributeAt? (c :: rest) with
    | some (pair, after) => attributesIn fuel (found.push pair) after
    | none => attributesIn fuel found rest

namespace Tag

def name (t : Tag) : String :=
  String.ofList ((Text.trimStart t.inner).takeWhile fun c =>
    !Text.isBlank c && c != '/' && c != '=')

def attributes (t : Tag) : List (String × String) :=
  attributesIn t.inner.length #[] t.inner

def isWhole (t : Tag) : Bool :=
  (Text.trimEnd t.inner).getLast? == some '/'

end Tag

structure Open where
  name : String
  attributes : List (String × String)
  before : List Markup

structure Reading where
  pieces : List Markup := []
  waiting : List Open := []
  unmatched : Array String := #[]

namespace Reading

def giveUp (r : Reading) (o : Open) (outer : List Open) : Reading :=
  { r with pieces := r.pieces ++ (element o.name o.attributes false [] :: o.before),
           waiting := outer }

def close (name : String) (waiting : List Open) (r : Reading) : Reading :=
  match waiting with
  | [] => { r with waiting := [] }
  | o :: outer =>
    if Token.sameIgnoringCase o.name name then
      { r with
        pieces := element o.name o.attributes true r.pieces.reverse :: o.before
        waiting := outer }
    else close name outer (r.giveUp o outer)

def finish (waiting : List Open) (r : Reading) : Reading :=
  match waiting with
  | [] => r
  | o :: outer => finish outer (r.giveUp o outer)

def addText (r : Reading) (cs : List Char) : Reading :=
  { r with pieces := (ofText cs).reverse ++ r.pieces }

def addTag (r : Reading) (t : Tag) : Reading :=
  if t.isEnd then
    if r.waiting.any fun o => Token.sameIgnoringCase o.name t.name then
      close t.name r.waiting r
    else { r with unmatched := r.unmatched.push t.name }
  else if t.isWhole then
    { r with pieces := element t.name t.attributes false [] :: r.pieces }
  else
    { r with
      pieces := []
      waiting := { name := t.name, attributes := t.attributes, before := r.pieces } :: r.waiting }

def run (fuel : Nat) (r : Reading) (cs : List Char) : Reading :=
  match fuel with
  | 0 => r.addText cs
  | fuel + 1 =>
    match findTag #[] cs with
    | some (before, tag, after) => run fuel ((r.addText before).addTag tag) after
    | none => r.addText cs

end Reading

def read (cs : List Char) : List Markup × List String :=
  let r := Reading.run cs.length {} cs
  let r := Reading.finish r.waiting r
  (r.pieces.reverse, r.unmatched.toList)

def readAt (span : Span) (cs : List Char) : List Markup × List Diagnostic :=
  let (pieces, unmatched) := read cs
  (pieces, unmatched.map fun name => { issue := .unmatchedEndTag name, span })

end Markup

end Stagecraft
