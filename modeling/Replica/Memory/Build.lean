import Replica.Memory.Path

/-!
Building values from data. What is built last depends on nothing but the data, the store, and
the values that the data refers to by name.
-/

namespace Replica

inductive Refusal where
  | badInput
  | noVariable
  | notShared
  | badPath
  | immutable
  | wrongType
  | empty
  | occupied
  | notACell
  | panic
  /-- More seconds than can be counted end the whole script. -/
  | overflow
deriving DecidableEq, Repr

abbrev Building := StateT Store (Except Refusal)

namespace Building

def required {α : Type} : Option α → Building α
  | some value => pure value
  | none => throw .badInput

end Building

namespace Form

/-- The account that a named constructor makes. Only one of them looks at the bonus, and needs
it. -/
def account? (maker owner : String) (balance : Int64) (bonus : Option Int64) : Option Form :=
  match maker with
  | "new" => some (.account .new owner balance)
  | "with_bonus" => bonus.map fun bonus => .account .withBonus owner (balance + bonus)
  | "closed" => some (.account .closed owner 0)
  | "audited" => some (.account .audited owner balance)
  | "doubled" => some (.account .new owner (balance + balance))
  | _ => none

end Form

namespace Sharing

/-- How many values an allocation holds. -/
def admitsCount (sharing : Sharing) (count : Nat) : Bool :=
  match sharing with
  | .rcSlice | .arcSlice => true
  | _ => count = 1

/-- The handles that are read with values behind their word. -/
def ofWord? (word : String) : Option Sharing :=
  [Sharing.rc, .arc, .rcSlice, .arcSlice].find? (·.word = word)

end Sharing

namespace Store

/-- Whether a collection of the form may find a part by the key. -/
def admits (store : Store) (form : Form) (key : Value) : Bool :=
  match form with
  | .priorityQueue | .hashSet | .hashMap => (store.fixedKey key).isOrdered
  | .treeSet | .treeMap | .sorted => (store.key key).isOrdered
  | _ => true

end Store

namespace Value

open Building

def share (sharing : Sharing) (contents : List Value) : Building Value := do
  return .handle sharing (← modifyGet (Store.allocate contents))

def shelve (value : Value) : Building Value :=
  share .rc [.node (.refCell false) [value]]

/-- Another handle to what a variable holds, which has to be a handle itself. -/
def refer (lookup : String → Option Value) (name : String) : Building Value :=
  match lookup name with
  | some (.handle sharing address) => do
    modify (Store.retain address)
    return .handle sharing address
  | some (.static label content) => pure (.static label content)
  | some _ => throw .notShared
  | none => throw .noVariable

def compose (form : Form) (parts : List Value) : Building Value := do
  let store ← get
  if !parts.all (store.admits form) then throw .badInput
  modifyGet (Store.assemble form parts)

/-- An account. What stands behind the balance may be left out, and counts only as a bonus. -/
def openAccount (maker owner balance : String) (rest : List Datum) : Building Value := do
  let balance ← required (IntegerType.i64.read? balance)
  let bonus ← match maker, rest with
    | "with_bonus", [.text bonus] => some <$> required (IntegerType.i64.read? bonus)
    | _, [] | _, [_] => pure none
    | _, _ => throw .badInput
  let form ← required (Form.account? maker owner (.ofInt balance) (bonus.map .ofInt))
  return .node form []

mutual

/-- Builds a value, its parts in the order in which they are written. How many there are is
checked before any of them is built, and what collections find them by when all are built. -/
def build (lookup : String → Option Value) : Datum → Building Value
  | .list (.text word :: items) =>
    match word, items with
    | "ref", [.text name] => refer lookup name
    | "static", [.text content] => modifyGet (Store.static content)
    | "rc_str", [.text content] => share .rcText [.text content]
    | "arc_str", [.text content] => share .arcText [.text content]
    | "cell", [.text number] => do
      return .node (.cell (← required (IntegerType.i64.read? number))) []
    | "simple", [.text name, .text number] => do
      return .node (.simple name (← required (IntegerType.i64.read? number))) []
    | "account", .text maker :: .text owner :: .text balance :: rest =>
      openAccount maker owner balance rest
    | "library", [.text name, content] => do
      let shelf ← shelve (← build lookup content)
      return .node (.library (Form.upper name)) [shelf]
    | "strategies", [shared, .text counter, cache, owned] => do
      let shared ← shelve (← build lookup shared)
      let counter ← required (IntegerType.u32.readNat? counter)
      match ← build lookup cache with
      | .node .vector cached =>
        let owned ← shelve (← build lookup owned)
        return .node (.strategies (.ofNat counter)) [shared, .node .vector cached, owned]
      | _ => throw .badInput
    | "hash_map", entries => do
      modifyGet (Store.assemble .hashMap (← buildEntries lookup .hashMap entries))
    | "btree_map", entries => do
      modifyGet (Store.assemble .treeMap (← buildEntries lookup .treeMap entries))
    | "deque_front", items => do compose .deque (← buildAll lookup items).reverse
    | word, items =>
      match Sharing.ofWord? word, Form.ofWord? word with
      | some sharing, _ => do
        if !sharing.admitsCount items.length then throw .badInput
        share sharing (← buildAll lookup items)
      | none, some form => do
        if !form.admitsCount items.length then throw .badInput
        compose form (← buildAll lookup items)
      | none, none => do
        if Atom.overflows word items then throw .overflow
        return .atom (← required (Atom.read? word items))
  | _ => throw .badInput

def buildAll (lookup : String → Option Value) : List Datum → Building (List Value)
  | [] => pure []
  | item :: items => do
    let value ← build lookup item
    return value :: (← buildAll lookup items)

/-- Builds the entries of a map. A key that the map cannot use ends it. -/
def buildEntries (lookup : String → Option Value) (form : Form) :
    List Datum → Building (List Value)
  | [] => pure []
  | .list [key, value] :: items => do
    let key ← build lookup key
    if !(← get).admits form key then throw .badInput
    let value ← build lookup value
    return .node .entry [key, value] :: (← buildEntries lookup form items)
  | _ => throw .badInput

end

end Value

end Replica
