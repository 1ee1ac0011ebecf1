import Replica.Memory.Build

/-!
Actions: how the value that a path leads to can be changed.
-/

namespace Replica

inductive Action where
  | cellSet
  | onceSet
  | poison
  | set
  | push
  | insert
  | pop
  | popFront
  | unknown
deriving DecidableEq, Repr

/-- What an action leaves in the place of a value, and what it takes from there. -/
structure Change where
  value : Value
  dropped : List Value

namespace Change

def ofCollection (form : Form) (result : List (Keyed Value) × List Value) : Change :=
  ⟨.node form (result.1.map (·.2)), result.2⟩

def withoutLast (form : Form) (parts : List Value) : Except Refusal Change :=
  match parts.getLast? with
  | some last => .ok ⟨.node form parts.dropLast, [last]⟩
  | none => .error .empty

def withoutFirst (form : Form) : List Value → Except Refusal Change
  | [] => .error .empty
  | first :: parts => .ok ⟨.node form parts, [first]⟩

end Change

namespace Store

open Change

/-- Appends to a sequence or a text, or adds to a set. A set keeps what it has. -/
def push (store : Store) (target value : Value) : Except Refusal Change :=
  match target with
  | .node .vector parts => .ok ⟨.node .vector (parts ++ [value]), []⟩
  | .node .deque parts => .ok ⟨.node .deque (parts ++ [value]), []⟩
  | .node .linked parts => .ok ⟨.node .linked (parts ++ [value]), []⟩
  | .node .sorted parts => .ok ⟨.node .sorted (parts ++ [value]), []⟩
  | .atom (.text text) =>
    match value with
    | .atom (.text more) => .ok ⟨.text (text ++ more), []⟩
    | _ => .error .badInput
  | .node form parts =>
    let new := (store.key value, value)
    if !(store.fixedKey value).isOrdered then .error .wrongType
    else
      match form with
      | .priorityQueue =>
        let queue := PriorityQueue.push (store.keyed parts).toArray new
        .ok (ofCollection form (queue.toList, []))
      | .hashSet => .ok (ofCollection form (Keyed.insert Value.absorb new (store.keyed parts)))
      | .treeSet => .ok (ofCollection form (Keyed.insertSorted Value.absorb new (store.keyed parts)))
      | _ => .error .wrongType
  | _ => .error .wrongType

def insert (store : Store) (target key value : Value) : Except Refusal Change :=
  let new := (store.key key, .node .entry [key, value])
  if !(store.fixedKey key).isOrdered then .error .badInput
  else
    match target with
    | .node .hashMap parts => .ok (ofCollection .hashMap (Keyed.insert Value.absorb new (store.keyed parts)))
    | .node .treeMap parts =>
      .ok (ofCollection .treeMap (Keyed.insertSorted Value.absorb new (store.keyed parts)))
    | _ => .error .wrongType

/-- Takes the last part of a sequence away, or the greatest part of a queue. -/
def pop (store : Store) (target : Value) : Except Refusal Change :=
  match target with
  | .node .vector parts => withoutLast .vector parts
  | .node .deque parts => withoutLast .deque parts
  | .node .linked parts => withoutLast .linked parts
  | .node .priorityQueue parts =>
    match PriorityQueue.pop? (store.keyed parts).toArray with
    | some (greatest, queue) => .ok (ofCollection .priorityQueue (queue.toList, [greatest.2]))
    | none => .error .empty
  | _ => .error .wrongType

def popFront (target : Value) : Except Refusal Change :=
  match target with
  | .node .deque parts => withoutFirst .deque parts
  | .node .linked parts => withoutFirst .linked parts
  | _ => .error .wrongType

/-- Changes that need the value to be owned. What an action has no use for is dropped. -/
def changeOwned (store : Store) (action : Action) (target : Value) (value key : Option Value) :
    Except Refusal Change :=
  let unused (values : List (Option Value)) (change : Change) : Change :=
    { change with dropped := change.dropped ++ values.filterMap id }
  match action, value, key with
  | .set, some value, _ => .ok (unused [key] ⟨value, [target]⟩)
  | .push, some value, _ => (store.push target value).map (unused [key])
  | .insert, some value, some key => store.insert target key value
  | .pop, _, _ => (store.pop target).map (unused [value, key])
  | .popFront, _, _ => (popFront target).map (unused [value, key])
  | _, _, _ => .error .badInput

/-- The change that an action makes. Cells and locks change whoever reaches them. -/
def change (store : Store) (action : Action) (access : Access) (target : Value)
    (value key : Option Value) : Except Refusal Change :=
  let unused := [value, key].filterMap id
  match action, target with
  | .cellSet, .node (.cell _) parts =>
    match value with
    | some (.atom (.integer .i64 number)) => .ok ⟨.node (.cell number) parts, unused⟩
    | _ => .error .badInput
  | .onceSet, .node .onceCell parts | .onceSet, .node .onceLock parts =>
    let form := match target with
      | .node form _ => form
      | _ => .onceCell
    match value, parts with
    | none, _ => .error .badInput
    | some _, _ :: _ => .error .occupied
    | some value, [] => .ok ⟨.node form [value], key.toList⟩
  | .poison, .node (.mutex _) parts => .ok ⟨.node (.mutex true) parts, unused⟩
  | .poison, .node (.rwLock _) parts => .ok ⟨.node (.rwLock true) parts, unused⟩
  | .cellSet, _ | .onceSet, _ | .poison, _ => .error .wrongType
  | action, target =>
    match access with
    | .shared => .error .immutable
    | .owned => store.changeOwned action target value key

end Store

end Replica
