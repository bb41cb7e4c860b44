import Stagecraft.Module.Basic

namespace Stagecraft

/-- The slots of a memo, one for each row of a table, hold what has been read of it. -/
structure Memo where
  subject : Module
  bodies : Array (Option Body)
  parameterLists : Array (Option (List String))
  texts : Array (Option String)
  reads : Nat := 0

namespace Memo

def ofModule (m : Module) : Memo :=
  { subject := m
    bodies := Array.replicate m.bodies.size none
    parameterLists := Array.replicate m.parameterLists.size none
    texts := Array.replicate m.texts.size none }

/-- Looks at row `i` of a table. Nothing is read for a number without a slot or one whose slot is
filled: that is answered from the slot. Otherwise the row is read, and the slot filled if it can be.
The number is that of the readings. -/
def look (table : Table) (rows : Array (Except ModuleError α)) (slots : Array (Option α))
    (i : UInt16) : Except ModuleError α × Array (Option α) × Nat :=
  match slots[i.toNat]?, rows[i.toNat]? with
  | some (some a), _ => (.ok a, slots, 0)
  | some none, some (.ok a) => (.ok a, slots.setIfInBounds i.toNat (some a), 1)
  | some none, some (.error e) => (.error e, slots, 1)
  | _, _ => (.error (.outOfRange table i), slots, 0)

def body (c : Memo) (i : UInt16) : Except ModuleError Body × Memo :=
  let (row, bodies, n) := look .routines c.subject.bodies c.bodies i
  (row, { c with bodies, reads := c.reads + n })

def parameters (c : Memo) (i : UInt16) : Except ModuleError (List String) × Memo :=
  let (row, parameterLists, n) := look .routines c.subject.parameterLists c.parameterLists i
  (row, { c with parameterLists, reads := c.reads + n })

def text (c : Memo) (i : UInt16) : Except ModuleError String × Memo :=
  let (row, texts, n) := look .texts c.subject.texts c.texts i
  (row, { c with texts, reads := c.reads + n })

end Memo

abbrev Lookup := ExceptT ModuleError (StateM Memo)

end Stagecraft
