import Stagecraft.Project.Bindings

/-!
Jumps are counted in bytes of the parts they skip, and a jump out of a loop stays open until the
loop around it is complete. An expression leaves one value on the stack; a statement leaves none.
-/

namespace Stagecraft

/-- A step of code that is being written: an instruction, or a jump to the end of the loop around
it, whose distance is not known yet. -/
inductive Step where
  | run (instruction : Instruction)
  | leave
  deriving DecidableEq, Repr

namespace Step

def jumpSize : Nat := 3

def size : Step → Nat
  | run i => i.size
  | leave => jumpSize

def instruction : Step → Instruction
  | run i => i
  | leave => .jump 0

end Step

abbrev Code := Array Step

namespace Code

def extent (code : Code) : Nat :=
  code.foldl (fun n step => n + step.size) 0

def one (i : Instruction) : Code :=
  #[.run i]

def encode (code : Code) : ByteArray :=
  Instruction.encodeAll (code.toList.map Step.instruction)

end Code

/-- Why the code of a member cannot be written. A `trap` concerns the member alone. -/
inductive Failure where
  | trap (diagnostic : Diagnostic)
  | fatal (error : ModuleError)

structure Draft where
  builder : Builder := {}
  marks : Array (UInt16 × DialogueMark) := #[]

abbrev Emit := ExceptT Failure (StateM Draft)

namespace Emit

structure Context where
  table : SymbolTable
  bindings : Bindings

def fail (issue : Issue) (span : Span) : Emit α :=
  throw (.trap { issue, span })

def build (work : Build α) : Emit α := fun
  | { builder, marks } =>
    match work builder with
    | (.ok a, builder) => (.ok a, { builder, marks })
    | (.error e, builder) => (.error (.fatal e), { builder, marks })

def intern (s : String) : Emit UInt16 :=
  build (Builder.intern s)

def mark (index : UInt16) (m : DialogueMark) : Emit Unit :=
  modify fun
    | { builder, marks } => { builder, marks := marks.push (index, m) }

def jump (make : Int16 → Instruction) (distance : Int) : Emit Instruction :=
  if -32768 ≤ distance ∧ distance ≤ 32767 then pure (make (Int16.ofInt distance))
  else fail (.jumpTooFar distance) .unplaced

def reference (c : Context) (node : Node) (name : String) : Emit Symbol :=
  match c.bindings.references[node.id]? with
  | some symbol => pure symbol
  | none => fail (.unresolvedSymbol (c.bindings.unresolved[node.id]?.getD name)) node.span

def integral? (x : Float) : Option Int32 :=
  if Number.isIntegral x && -2147483648.0 ≤ x && x ≤ 2147483647.0 then
    some (Int32.ofInt (Number.truncateWithin (-2147483648) 2147483647 x))
  else none

def immediate : Literal → Emit Immediate
  | .null => pure .null
  | .flag b => pure (.flag b)
  | .number x => pure ((integral? x).elim (.float x.toBits) .integer)
  | .delta x => pure ((integral? x).elim (.deltaFloat x.toBits) .deltaInteger)
  | .text s => do pure (.text (← intern s))

def load (c : Context) (node : Node) (name : String) : Emit Instruction := do
  match ← reference c node name with
  | .parameter symbol => pure (.loadArgument symbol.index)
  | .global => do pure (.loadGlobal (← intern name))
  | .constant (.enumerator e) => pure (.load (.enumerator e.id))
  | .constant (.preset p) => pure (.load (.preset p.id))
  | _ => fail (.notValue name) node.span

def store (c : Context) (target : Target) : Emit Instruction := do
  match ← reference c target.node target.name with
  | .parameter symbol => pure (.storeArgument symbol.index)
  | .global => do pure (.storeGlobal (← intern target.name))
  | _ => fail (.notAssignable target.name) target.node.span

def callRoutine (c : Context) (routine : RoutineSymbol) (count : Nat) (span : Span) :
    Emit Instruction := do
  if routine.parameterCount != count then
    fail (.routineArguments routine.name routine.parameterCount count) span
  else if routine.module == c.table.path then pure (.call routine.index)
  else pure (.callFar (← build (Builder.addImport routine.module)) routine.index)

def shortCircuit (branch : Int16 → Instruction) (decisive : Bool) (left right : Code) :
    Emit Code := do
  let whole := Instruction.load (.flag !decisive)
  let short := Instruction.load (.flag decisive)
  let past := whole.size + Step.jumpSize
  let first ← jump branch (right.extent + Step.jumpSize + past)
  let second ← jump branch past
  let leap ← jump .jump short.size
  pure (left ++ Code.one first ++ right ++
    #[.run second, .run whole, .run leap, .run short])

def combine (op : BinaryOperator) (left right : Code) : Emit Code :=
  match op with
  | .and => shortCircuit .jumpIfFalse false left right
  | .or => shortCircuit .jumpIfTrue true left right
  | op => pure (left ++ right ++ Code.one (.binary op))

mutual

def expression (c : Context) : Expression → Emit Code
  | .literal _ value => do pure (Code.one (.load (← immediate value)))
  | .name node text => do pure (Code.one (← load c node text))
  | .unary _ op operand => do pure ((← expression c operand) ++ Code.one (.unary op))
  | .binary _ op left right => do
    let l ← expression c left
    let r ← expression c right
    combine op l r
  | .assign _ target op value => do
    let keep ← store c target
    match op.binary? with
    | some arithmetic => do
      let old ← load c target.node target.name
      let new ← expression c value
      pure (Code.one old ++ new ++ #[.run (.binary arithmetic), .run .dup, .run keep])
    | none => do
      let new ← expression c value
      pure (new ++ #[.run .dup, .run keep])
  | .step _ target op => do
    let keep ← store c target
    let old ← load c target.node target.name
    pure #[.run old, .run (.load (.integer 1)), .run (.binary op.binary), .run .dup, .run keep]
  | .call node callee arguments => do
    let count := arguments.length
    match ← reference c node callee with
    | .builtin id =>
      if ((Signature.ofId id).any (·.accepts count)) && count < 256 then do
        let code ← expressions c #[] arguments
        pure (code ++ Code.one (.dispatch id (UInt8.ofNat count)))
      else fail (.builtinArguments callee count) node.span
    | symbol =>
      match symbol.routine? with
      | none => fail (.notCallable callee) node.span
      | some routine => do
        let code ← expressions c #[] arguments
        pure (code ++ Code.one (← callRoutine c routine count node.span))

def expressions (c : Context) (code : Code) : List Expression → Emit Code
  | [] => pure code
  | e :: rest => do
    let more ← expression c e
    expressions c (code ++ more) rest

end

def closeExits (beyond : Nat) (code : Code) : Emit Code := do
  let total := code.extent + beyond
  let (_, closed) ← code.foldlM (fun (position, closed) step =>
    match step with
    | .run _ => pure (position + step.size, closed.push step)
    | .leave => do
      let next := position + Step.jumpSize
      pure (next, closed.push (.run (← jump .jump (total - next : Nat))))) (0, (#[] : Code))
  pure closed

def visit (c : Context) (node : Node) (target : String) : Emit Code := do
  match (← reference c node target).routine? with
  | none => fail (.notCallable target) node.span
  | some routine => pure #[.run (← callRoutine c routine 0 node.span), .run .pop]

mutual

def statement (c : Context) (inLoop : Bool) (start : Nat) : Statement → Emit Code
  | .block _ body => block c inLoop start body
  | .ifThen _ condition thenBranch => do
    let test ← expression c condition
    let yes ← statement c inLoop (start + test.extent + Step.jumpSize) thenBranch
    let skip ← jump .jumpIfFalse yes.extent
    pure (test ++ Code.one skip ++ yes)
  | .ifElse _ condition thenBranch elseBranch => do
    let test ← expression c condition
    let yesAt := start + test.extent + Step.jumpSize
    let yes ← statement c inLoop yesAt thenBranch
    let skip ← jump .jumpIfFalse (yes.extent + Step.jumpSize : Nat)
    let no ← statement c inLoop (yesAt + yes.extent + Step.jumpSize) elseBranch
    let leap ← jump .jump no.extent
    pure (test ++ Code.one skip ++ yes ++ Code.one leap ++ no)
  | .loop _ condition body => do
    let test ← expression c condition
    let inner ← statement c true (start + test.extent + Step.jumpSize) body
    let back ← jump .jump (-(test.extent + Step.jumpSize + inner.extent + Step.jumpSize : Nat))
    let skip ← jump .jumpIfFalse (inner.extent + Step.jumpSize : Nat)
    let inner ← closeExits Step.jumpSize inner
    pure (test ++ Code.one skip ++ inner ++ Code.one back)
  | .select _ cases => do
    let begin := Instruction.selectStart
    let wait := Instruction.selectEnd
    let inner ← choices c (start + begin.size) #[] cases
    let back ← jump .jump (-(inner.extent + wait.size + Step.jumpSize : Nat))
    let inner ← closeExits (wait.size + Step.jumpSize) inner
    pure (Code.one begin ++ inner ++ #[.run wait, .run back])
  | .callChapter node target => visit c node target
  | .callScene node target => visit c node target
  | .ret _ (some value) => do pure ((← expression c value) ++ Code.one .ret)
  | .ret _ none => pure #[.run (.load .null), .run .ret]
  | .exit node => if inLoop then pure #[.leave] else fail .breakOutsideLoop node.span
  | .expression _ value => do pure ((← expression c value) ++ Code.one .pop)
  | .dialogue _ value => dialogue c inLoop start value
  | .empty _ => pure #[]

def statements (c : Context) (inLoop : Bool) (next : Nat) (code : Code) :
    List Statement → Emit Code
  | [] => pure code
  | s :: rest => do
    let more ← statement c inLoop next s
    statements c inLoop (next + more.extent) (code ++ more) rest

def block (c : Context) (inLoop : Bool) (start : Nat) : Block → Emit Code
  | .mk _ body => statements c inLoop start #[] body

def choice (c : Context) (start : Nat) : Choice → Emit Code
  | .mk _ label body => do
    let test := Instruction.isPressed (← intern label)
    let inner ← statement c true (start + test.size + Step.jumpSize) body
    let skip ← jump .jumpIfFalse (inner.extent + Step.jumpSize : Nat)
    pure (#[.run test, .run skip] ++ inner ++ #[.leave])

def choices (c : Context) (next : Nat) (code : Code) : List Choice → Emit Code
  | [] => pure code
  | case :: rest => do
    let more ← choice c next case
    choices c (next + more.extent) (code ++ more) rest

def dialogue (c : Context) (inLoop : Bool) (start : Nat) : Dialogue → Emit Code
  | .mk node _ _ parts => do
    match c.table.dialogueOf? node.id with
    | none => fail .undeclaredDialogue node.span
    | some symbol =>
      if start < 65536 then do
        mark symbol.index { name := symbol.name, offset := UInt16.ofNat start }
        let begin := Instruction.beginDialogue symbol.index
        dialogueParts c inLoop (start + begin.size) (Code.one begin) parts
      else fail (.codeTooLarge symbol.name) node.span

def dialoguePart (c : Context) (inLoop : Bool) (start : Nat) : DialoguePart → Emit Code
  | .markup pieces _ => do pure (Code.one (.present (← intern (Markup.renderAll pieces))))
  | .code body => block c inLoop start body

def dialogueParts (c : Context) (inLoop : Bool) (next : Nat) (code : Code) :
    List DialoguePart → Emit Code
  | [] => pure code
  | p :: rest => do
    let more ← dialoguePart c inLoop next p
    dialogueParts c inLoop (next + more.extent) (code ++ more) rest

end

def member (c : Context) (m : Member) : Emit Code := do
  let code ← match m with
    | .chapter _ _ body | .scene _ _ body | .function _ _ _ body => block c false 0 body
    | .dialogue value => dialogue c false 0 value
  pure (code ++ #[.run (.load .null), .run .ret])

end Emit

end Stagecraft
