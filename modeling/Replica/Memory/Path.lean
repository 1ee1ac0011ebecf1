import Replica.Memory.Copy

/-!
Paths: how a user names a part of a value, and what may be done with it. A part that is reached
through something shared cannot be changed, unless a cell or a lock lies in between.
-/

namespace Replica

inductive Access where
  | owned
  | shared
deriving DecidableEq, Repr

/-- What lies between a value and a part of it. -/
inductive Passage where
  | plain
  | shared
  | cell
  /-- A lock, or a cell that belongs to a struct. -/
  | lock
deriving DecidableEq, Repr

namespace Passage

def access : Passage → Access → Access
  | .plain, access => access
  | .shared, _ => .shared
  | .cell, _ => .owned
  | .lock, _ => .owned

end Passage

/-- Where a path leads: the trail there, the value that it ends at, and the access to it. -/
structure Place where
  trail : Trail
  value : Value
  access : Access

namespace Value

/-- The trail from a struct's handle to what its cell holds. -/
def shelf (part : Nat) : Trail := [part, 0, 0]

/-- The trail to a part, by the number that paths give it, and what is passed on the way. -/
def passage? : Value → Nat → Option (Trail × Passage)
  | .handle .rc _, 0 | .handle .arc _, 0 => some ([0], .shared)
  | .handle .rcSlice _, part | .handle .arcSlice _, part => some ([part], .shared)
  | .node form parts, part =>
    match form, part with
    | .wrapping, _ | .present, _ | .success, _ | .failure, _ | .box, _ | .pair, _ | .array, _
    | .vector, _ | .deque, _ | .linked, _ | .boxedSlice, _ | .sorted, _ => some ([part], .plain)
    | .tuple, _ => some ([part], if parts.length ≤ 3 then .plain else .shared)
    | .treeSet, _ | .onceCell, _ | .onceLock, _ => some ([part], .shared)
    | .treeMap, _ => some ([part / 2, part % 2], .shared)
    | .refCell _, _ => some ([part], .cell)
    | .mutex _, _ | .rwLock _, _ => some ([part], .lock)
    | .strategies _, 0 => some (shelf 0, .lock)
    | .strategies _, 3 => some (shelf 2, .lock)
    | .library _, 1 => some (shelf 0, .lock)
    | _, _ => none
  | _, _ => none

end Value

namespace Store

/-- Walks a path. Only what `admits` allows is passed. -/
def walk? (store : Store) (admits : Passage → Bool) : List Nat → Value → Access → Option Place
  | [], value, access => some ⟨[], value, access⟩
  | part :: path, value, access => do
    let (trail, passage) ← value.passage? part
    if !admits passage then none
    let next ← store.follow? trail value
    let place ← store.walk? admits path next (passage.access access)
    some { place with trail := trail ++ place.trail }

end Store

end Replica
