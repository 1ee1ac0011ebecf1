import Replica.Memory.PriorityQueue

/-!
How collections are put together from their parts. A collection that finds two parts by equal
keys keeps one of them, and what it does not keep is dropped.
-/

namespace Replica

/-- What a collection keeps, and what it drops. -/
structure Gathered (α : Type) where
  kept : List α
  dropped : List α

namespace Keyed

variable {α : Type}

def label (key : α → Key) (parts : List α) : List (Keyed α) :=
  parts.map fun part => (key part, part)

/-- From the least key to the greatest. Items with equal keys stay in their order. -/
def sort (items : List (Keyed α)) : List (Keyed α) :=
  items.mergeSort fun a b => a.1.le b.1

/-- Of neighbours with equal keys the last is kept. -/
def lastOfRuns : List (Keyed α) → List (Keyed α) × List α
  | [] => ([], [])
  | [item] => ([item], [])
  | item :: next :: items =>
    let (kept, dropped) := lastOfRuns (next :: items)
    if item.1.compare next.1 = .eq then (kept, item.2 :: dropped) else (item :: kept, dropped)

/-- Puts a part into a collection that has no order. What becomes of a part that meets an equal
one is up to `absorb`. -/
def insert (absorb : (old new : α) → α × List α) (new : Keyed α) :
    List (Keyed α) → List (Keyed α) × List α
  | [] => ([new], [])
  | item :: items =>
    if item.1.compare new.1 = .eq then
      let (part, dropped) := absorb item.2 new.2
      ((item.1, part) :: items, dropped)
    else
      let (items, dropped) := insert absorb new items
      (item :: items, dropped)

/-- Puts a part in front of the first greater one. -/
def insertSorted (absorb : (old new : α) → α × List α) (new : Keyed α) :
    List (Keyed α) → List (Keyed α) × List α
  | [] => ([new], [])
  | item :: items =>
    match new.1.compare item.1 with
    | .lt => (new :: item :: items, [])
    | .eq =>
      let (part, dropped) := absorb item.2 new.2
      ((item.1, part) :: items, dropped)
    | .gt =>
      let (items, dropped) := insertSorted absorb new items
      (item :: items, dropped)

def insertNext (absorb : (old new : α) → α × List α) :
    List (Keyed α) × List α → Keyed α → List (Keyed α) × List α
  | (kept, dropped), item =>
    let (kept, more) := insert absorb item kept
    (kept, dropped ++ more)

def insertAll (absorb : (old new : α) → α × List α) (items : List (Keyed α)) :
    List (Keyed α) × List α :=
  items.foldl (insertNext absorb) ([], [])

def gathered (result : List (Keyed α) × List α) : Gathered α :=
  ⟨result.1.map (·.2), result.2⟩

end Keyed

namespace Form

open Keyed

/-- What a node of the form keeps of the parts that it is put together from at once. -/
def gather {α : Type} (form : Form) (key : α → Key) (absorb : (old new : α) → α × List α)
    (parts : List α) : Gathered α :=
  match form with
  | .sorted => gathered (sort (label key parts), [])
  | .treeSet | .treeMap => gathered (lastOfRuns (sort (label key parts)))
  | .hashSet | .hashMap => gathered (insertAll absorb (label key parts))
  | .priorityQueue =>
    gathered ((PriorityQueue.arrange (label key parts).toArray).toList, [])
  | _ => ⟨parts, []⟩

end Form

namespace Value

/-- A part that meets an equal one stays. An entry takes over the other's value. -/
def absorb : (old new : Value) → Value × List Value
  | .node .entry [key, value], .node .entry [otherKey, newValue] =>
    (.node .entry [key, newValue], [otherKey, value])
  | old, new => (old, [new])

end Value

namespace Store

def keyed (store : Store) (parts : List Value) : List (Keyed Value) :=
  Keyed.label store.partKey parts

def gather (store : Store) (form : Form) (parts : List Value) : Gathered Value :=
  form.gather store.partKey Value.absorb parts

/-- A node of the given parts. The handles in what it drops are given up. -/
def assemble (form : Form) (parts : List Value) (store : Store) : Value × Store :=
  let gathered := store.gather form parts
  (.node form gathered.kept, store.release (Value.addressesOfAll gathered.dropped))

end Store

end Replica
