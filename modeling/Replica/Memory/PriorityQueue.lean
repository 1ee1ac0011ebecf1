import Replica.Memory.Key

/-!
Queues that answer their greatest item first. The items stand in an array in which none is
greater than the one at its parent's place.
-/

namespace Replica

/-- Something with the key that it is found by. -/
abbrev Keyed (α : Type) := Key × α

namespace PriorityQueue

variable {α : Type}

def parent (place : Nat) : Nat := (place - 1) / 2

/-- Whether the item at the first place is at most the one at the second. -/
def atMost (items : Array (Keyed α)) (place other : Nat) : Bool :=
  match items[place]?, items[other]? with
  | some a, some b => a.1.le b.1
  | _, _ => true

/-- Moves an item up until it is at most its parent. -/
def siftUp (items : Array (Keyed α)) (place : Nat) : Array (Keyed α) :=
  if 0 < place then
    if atMost items place (parent place) then items
    else siftUp (items.swapIfInBounds place (parent place)) (parent place)
  else items
termination_by place
decreasing_by
  unfold parent
  omega

/-- The place of the greater child, the second one if they are equal. -/
def greaterChild (items : Array (Keyed α)) (place : Nat) : Nat :=
  if 2 * place + 2 < items.size && atMost items (2 * place + 1) (2 * place + 2) then
    2 * place + 2
  else 2 * place + 1

theorem lt_greaterChild (items : Array (Keyed α)) (place : Nat) :
    place < greaterChild items place := by
  unfold greaterChild
  split <;> omega

/-- Moves an item down until it is at least its children. -/
def siftDown (items : Array (Keyed α)) (place : Nat) : Array (Keyed α) :=
  if 2 * place + 1 < items.size then
    let child := greaterChild items place
    if atMost items child place then items
    else siftDown (items.swapIfInBounds place child) child
  else items
termination_by items.size - place
decreasing_by
  rw [Array.size_swapIfInBounds]
  have further := lt_greaterChild items place
  omega

/-- Moves an item down as far as there are children, and then up again. -/
def settle (items : Array (Keyed α)) (place : Nat) : Array (Keyed α) :=
  if 2 * place + 1 < items.size then
    let child := greaterChild items place
    settle (items.swapIfInBounds place child) child
  else siftUp items place
termination_by items.size - place
decreasing_by
  rw [Array.size_swapIfInBounds]
  have further := lt_greaterChild items place
  omega

def push (items : Array (Keyed α)) (item : Keyed α) : Array (Keyed α) :=
  siftUp (items.push item) items.size

def pop? (items : Array (Keyed α)) : Option (Keyed α × Array (Keyed α)) :=
  match items.back?, items[0]? with
  | some last, some first =>
    let rest := items.pop
    some (first, if rest.isEmpty then rest else settle (rest.setIfInBounds 0 last) 0)
  | _, _ => none

def arrange (items : Array (Keyed α)) : Array (Keyed α) :=
  (List.range (items.size / 2)).reverse.foldl siftDown items

end PriorityQueue

end Replica
