import Replica.Memory.Action
import Replica.Memory.Picture

/-!
Scripts: steps over named variables. A step that is refused changes nothing, except that a copy
which stops poisons the mutexes that it holds.
-/

namespace Replica

/-- A cell to hold on to during a copy. -/
structure Hold where
  name : String
  path : List Nat
  exclusive : Bool

inductive Step where
  | assign (name : String) (value : Datum)
  | drop (name : String)
  | copy (name source : String) (hold : Option Hold)
  | act (name : String) (path : List Nat) (action : Action) (value key : Option Datum)
  | malformed

namespace Value

/-- Marks a cell as changed by somebody, or as free again. -/
def mark (isHeld : Bool) : Value → Value
  | .node (.refCell _) parts => .node (.refCell isHeld) parts
  | value => value

end Value

/-- The variables in the order of their names, and what they share. -/
structure Memory where
  bindings : List (String × Value)
  store : Store

namespace Memory

def empty : Memory := ⟨[], .empty⟩

def lookup (memory : Memory) (name : String) : Option Value :=
  memory.bindings.lookup name

def insert (name : String) (value : Value) :
    List (String × Value) → List (String × Value)
  | [] => [(name, value)]
  | first :: rest =>
    if name = first.1 then (name, value) :: rest
    else if name < first.1 then (name, value) :: first :: rest
    else first :: insert name value rest

/-- Puts a value into a variable. What was there gives up its handles. -/
def assign (name : String) (value : Value) (memory : Memory) : Memory :=
  let former := (memory.lookup name).elim [] Value.addresses
  ⟨insert name value memory.bindings, memory.store.release former⟩

def drop (name : String) (memory : Memory) : Except Refusal Memory :=
  match memory.lookup name with
  | none => .error .noVariable
  | some value =>
    .ok ⟨memory.bindings.filter (·.1 ≠ name), memory.store.release value.addresses⟩

/-- Puts a value to the end of a trail from a variable. -/
def write (name : String) (trail : Trail) (value : Value) (memory : Memory) : Memory :=
  match (memory.lookup name).bind (memory.store.rewrite? value trail) with
  | some (.own root) => { memory with bindings := insert name root memory.bindings }
  | some (.behind address contents) =>
    { memory with store := memory.store.setContents address contents }
  | none => memory

/-- Changes what a trail from a variable leads to, and the forms on the way. -/
def alter (name : String) (trail : Trail) (passing : Form → Form) (change : Value → Value)
    (memory : Memory) : Memory :=
  match memory.lookup name with
  | none => memory
  | some value =>
    let (value, store) := Store.alter passing change trail value memory.store
    ⟨insert name value memory.bindings, store⟩

def build (data : Datum) (memory : Memory) : Except Refusal (Value × Memory) := do
  let (value, store) ← (Value.build memory.lookup data).run memory.store
  return (value, { memory with store })

def buildOptional (data : Option Datum) (memory : Memory) :
    Except Refusal (Option Value × Memory) :=
  match data with
  | none => .ok (none, memory)
  | some data => (memory.build data).map fun (value, memory) => (some value, memory)

def act (name : String) (path : List Nat) (action : Action) (value key : Option Datum)
    (memory : Memory) : Except Refusal Memory := do
  let (value, memory) ← memory.buildOptional value
  let (key, memory) ← memory.buildOptional key
  let some root := memory.lookup name | throw .noVariable
  let some place := memory.store.walk? (fun _ => true) path root .owned | throw .badPath
  let change ← memory.store.change action place.access place.value value key
  let memory := memory.write name place.trail change.value
  return { memory with store := memory.store.release (Value.addressesOfAll change.dropped) }

/-- Where the cell is that a copy is made under the hold of. -/
def held (hold : Hold) (memory : Memory) : Except Refusal Trail := do
  let some root := memory.lookup hold.name | throw .noVariable
  let some place := memory.store.walk? (· ≠ .lock) hold.path root .owned | throw .badPath
  match place.value with
  | .node (.refCell _) _ => return place.trail
  | _ => throw .notACell

/-- Marks the cell that a trail from a variable leads to. -/
def mark (isHeld : Bool) (cell : Option (String × Trail)) (memory : Memory) : Memory :=
  match cell with
  | none => memory
  | some (name, trail) => memory.alter name trail id (Value.mark isHeld)

/-- The cell that nobody else may look into during a copy. To look into a cell together harms
nobody. -/
def exclusive (hold : Option Hold) (memory : Memory) : Except Refusal (Option (String × Trail)) :=
  match hold with
  | none => .ok none
  | some hold => do
    let trail ← memory.held hold
    return if hold.exclusive then some (hold.name, trail) else none

/-- Deep-copies a variable into another. Where that fails, the mutexes on the way to the cell
that somebody changes are poisoned, since they were locked. -/
def copy (name source : String) (hold : Option Hold) (memory : Memory) :
    Option Refusal × Memory :=
  match memory.lookup source, memory.exclusive hold with
  | none, _ => (some .noVariable, memory)
  | some _, .error refusal => (some refusal, memory)
  | some value, .ok cell =>
    let during := memory.mark true cell
    match ((during.lookup source).getD value).copy.run during.store with
    | (.ok copy, store) => (none, (({ during with store }).mark false cell).assign name copy)
    | (.error (.held trail), store) =>
      (some .panic,
        ({ during with store }.alter source trail Form.poisoned id).mark false cell)
    | (.error .depth, store) => (some .panic, ({ during with store }).mark false cell)

/-- The step's result: why it was refused, if it was. -/
def step (memory : Memory) : Step → Option Refusal × Memory
  | .assign name data => settle do
    let (value, memory) ← memory.build data
    return memory.assign name value
  | .drop name => settle (memory.drop name)
  | .copy name source hold => memory.copy name source hold
  | .act name path action value key => settle (memory.act name path action value key)
  | .malformed => (some .badInput, memory)
where
  settle : Except Refusal Memory → Option Refusal × Memory
    | .ok changed => (none, changed)
    | .error refusal => (some refusal, memory)

/-- All variables as data, numbered together in the order of their names. -/
def picture (memory : Memory) : List (String × Datum) :=
  let follow := Value.drawAddress memory.store memory.store.depth
  let drawings := memory.bindings.map fun (_, value) => value.draw memory.store follow
  (memory.bindings.map (·.1)).zip ((Drawing.sequence drawings).run []).1

/-- The result of each step, and the variables behind it. There are none if a step overflows. -/
def run (memory : Memory) : List Step → Option (List (Option Refusal × List (String × Datum)))
  | [] => some []
  | step :: steps =>
    let (refusal, memory) := memory.step step
    if refusal = some .overflow then none
    else (memory.run steps).map ((refusal, memory.picture) :: ·)

end Memory

end Replica
