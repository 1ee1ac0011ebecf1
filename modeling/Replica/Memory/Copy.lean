import Replica.Memory.Collection

/-!
Deep copies. A copy makes a new allocation for each handle that it comes to, goes on through
nodes, and puts collections together anew. It stops at a cell that somebody changes.
-/

namespace Replica

/-- Why there is no copy. -/
inductive Halt where
  /-- The trail leads to a cell that somebody changes. -/
  | held (trail : Trail)
  /-- More handles stand behind each other than the copy was to follow. -/
  | depth
deriving DecidableEq, Repr

namespace Halt

/-- The same reason, seen from a value that `step` leads on from. -/
def behind (step : Nat) : Halt → Halt
  | .held trail => .held (step :: trail)
  | .depth => .depth

end Halt

/-- A copy in the making: the store grows by what the copy needs. It is left to whoever stops to
give up what was made until then. -/
abbrev Copying := ExceptT Halt (StateM Store)

namespace Copying

variable {α : Type}

def behind (step : Nat) (copying : Copying α) : Copying α := fun store =>
  let (result, store) := copying store
  (result.mapError (Halt.behind step), store)

/-- Gives up handles if there is no copy. -/
def orRelease (addresses : List Address) (copying : Copying α) : Copying α := fun store =>
  match copying store with
  | (.ok result, store) => (.ok result, store)
  | (.error halt, store) => (.error halt, store.release addresses)

end Copying

/-- What a copy does with a part. -/
inductive Treatment where
  | deep
  /-- The copy holds the same handles. -/
  | share
  /-- The copy gets an empty vector. -/
  | reset
deriving DecidableEq, Repr

namespace Form

def treatment : Form → Nat → Treatment
  | .strategies _, 0 => .share
  | .strategies _, 1 => .reset
  | _, _ => .deep

def upper (name : String) : String :=
  String.ofList (name.toList.map Char.toUpper)

/-- The form of the copy. No lock is poisoned in it, its counter is one ahead, and what has a
constructor went through it. -/
def copied : Form → Form
  | .mutex _ => .mutex false
  | .rwLock _ => .rwLock false
  | .strategies counter => .strategies (counter + 1)
  | .account _ owner balance => .account .withBonus owner balance
  | .library name => .library (upper name)
  | form => form

/-- A mutex is poisoned by what goes wrong while it is locked. -/
def poisoned : Form → Form
  | .mutex _ => .mutex true
  | form => form

end Form

namespace Value

/-- What a copy gets in the place of a part. `copying` is the part's own copy. -/
def treat (copying : Copying Value) (part : Value) : Treatment → Copying Value
  | .deep => copying
  | .share => do
    modify (Store.retainAll part.addresses)
    return part
  | .reset => return .node .vector []

mutual

/-- Copies a value. `follow` copies the allocation at an address. -/
def copyWith (follow : Address → Copying Address) : Value → Copying Value
  | .atom content => pure (.atom content)
  | .static label content => pure (.static label content)
  | .handle sharing address => do return .handle sharing (← follow address)
  | .node (.refCell true) _ => throw (.held [])
  | .node form parts => do
    let copies ← copyParts follow form.treatment 0 parts
    modifyGet (Store.assemble form.copied copies)

/-- Copies the parts of a value from the one with the number `step` on. If one of them stops the
copy, the copies of those in front of it are given up. -/
def copyParts (follow : Address → Copying Address) (treatment : Nat → Treatment) (step : Nat) :
    List Value → Copying (List Value)
  | [] => pure []
  | value :: values => do
    let copy ← treat (Copying.behind step (copyWith follow value)) value (treatment step)
    let copies ← Copying.orRelease copy.addresses (copyParts follow treatment (step + 1) values)
    return copy :: copies

end

/-- Copies the allocation at an address into a new one, through at the most `depth` handles. -/
def copyAllocation : (depth : Nat) → Address → Copying Address
  | 0, _ => throw .depth
  | depth + 1, address => do
    let contents := ((← get).contents? address).getD []
    let copies ← copyParts (copyAllocation depth) (fun _ => .deep) 0 contents
    modifyGet (Store.allocate copies)

/-- Copies a value through at the most `depth` handles behind each other. -/
def copyTo (depth : Nat) (value : Value) : Copying Value :=
  copyWith (copyAllocation depth) value

/-- The deep copy of a value in a store without circles. -/
def copy (value : Value) : Copying Value := do
  copyTo (← get).depth value

end Value

end Replica
