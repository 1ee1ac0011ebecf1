import Replica.Memory.Value

/-!
The store of shared allocations. Each counts the handles that lead to it, and goes away together
with the last of them.
-/

namespace Replica

structure Allocation where
  count : Nat
  contents : List Value

/-- Addresses are places in the list of slots. A slot whose allocation has gone stays empty, so
that no address is used twice. -/
structure Store where
  slots : Array (Option Allocation)
  /-- How many texts were made that are never freed. -/
  labels : Nat

/-- What a write changes: the value that its trail starts from, or what the last allocation on its way
holds. -/
inductive Rewriting where
  | own (value : Value)
  | behind (address : Address) (contents : List Value)

/-- The same write, seen from something that holds the value as `outer` says. -/
def Rewriting.within (outer : Value → Rewriting) : Rewriting → Rewriting
  | .own value => outer value
  | .behind address contents => .behind address contents

namespace Store

def empty : Store := ⟨#[], 0⟩

def get? (store : Store) (address : Address) : Option Allocation :=
  store.slots[address]?.join

def contents? (store : Store) (address : Address) : Option (List Value) :=
  (store.get? address).map (·.contents)

def count (store : Store) (address : Address) : Nat :=
  ((store.get? address).map (·.count)).getD 0

def allocate (contents : List Value) (store : Store) : Address × Store :=
  (store.slots.size, { store with slots := store.slots.push (some ⟨1, contents⟩) })

/-- A new text that is never freed. -/
def static (text : String) (store : Store) : Value × Store :=
  (.static store.labels text, { store with labels := store.labels + 1 })

def put (address : Address) (allocation : Option Allocation) (store : Store) : Store :=
  { store with slots := store.slots.setIfInBounds address allocation }

def setContents (address : Address) (contents : List Value) (store : Store) : Store :=
  match store.get? address with
  | none => store
  | some allocation => store.put address (some { allocation with contents })

def retain (address : Address) (store : Store) : Store :=
  match store.get? address with
  | none => store
  | some allocation => store.put address (some { allocation with count := allocation.count + 1 })

def retainAll (addresses : List Address) (store : Store) : Store :=
  addresses.foldl (fun store address => store.retain address) store

def live (store : Store) : Nat :=
  store.slots.toList.countP Option.isSome

theorem slot_of_get? {store : Store} {address : Address} {allocation : Allocation}
    (found : store.get? address = some allocation) :
    ∃ inside : address < store.slots.toList.length,
      store.slots.toList[address] = some allocation := by
  unfold get? at found
  by_cases bound : address < store.slots.size
  · rw [Array.getElem?_eq_getElem bound] at found
    exact ⟨by simpa using bound, by simpa using found⟩
  · simp [Array.getElem?_eq_none (Nat.le_of_not_lt bound)] at found

theorem live_put {store : Store} {address : Address} {allocation : Allocation}
    (found : store.get? address = some allocation) (changed : Option Allocation) :
    (store.put address changed).live + 1 = store.live + if changed.isSome then 1 else 0 := by
  obtain ⟨inside, slot⟩ := slot_of_get? found
  have positive : 0 < store.slots.toList.countP Option.isSome :=
    List.countP_pos_iff.mpr ⟨_, List.getElem_mem inside, by simp [slot]⟩
  unfold live put
  rw [Array.toList_setIfInBounds, List.countP_set inside, slot]
  simp only [Option.isSome_some, if_true]
  omega

/-- Gives up one handle to each of the addresses. With its last handle an allocation goes, and
its contents give up their handles as well. -/
def release : List Address → Store → Store
  | [], store => store
  | address :: rest, store =>
    match _ : store.get? address with
    | none => release rest store
    | some allocation =>
      if allocation.count ≤ 1 then
        release (Value.addressesOfAll allocation.contents ++ rest) (store.put address none)
      else
        release rest (store.put address (some { allocation with count := allocation.count - 1 }))
termination_by addresses store => (store.live, addresses.length)
decreasing_by
  · exact Prod.Lex.right _ (by simp)
  · have fewer := live_put ‹store.get? address = some allocation› none
    simp only [Option.isSome_none] at fewer
    exact Prod.Lex.left _ _ (by simp at fewer; omega)
  · have same := live_put ‹store.get? address = some allocation›
      (some { allocation with count := allocation.count - 1 })
    simp only [Option.isSome_some, if_true] at same
    have equal : (store.put address
        (some { allocation with count := allocation.count - 1 })).live = store.live := by omega
    rw [equal]
    exact Prod.Lex.right _ (by simp)

def child? (store : Store) (value : Value) (step : Nat) : Option Value :=
  match value with
  | .handle _ address => (store.contents? address).bind (·[step]?)
  | .node _ parts => parts[step]?
  | _ => none

def follow? (store : Store) : Trail → Value → Option Value
  | [], value => some value
  | step :: trail, value => (store.child? value step).bind (store.follow? trail)

/-- Puts a value to the end of a trail. -/
def rewrite? (store : Store) (new : Value) : Trail → Value → Option Rewriting
  | [], _ => some (.own new)
  | step :: trail, .node form parts => do
    let rewriting ← store.rewrite? new trail (← parts[step]?)
    return rewriting.within fun part => .own (.node form (parts.set step part))
  | step :: trail, .handle _ address => do
    let contents ← store.contents? address
    let rewriting ← store.rewrite? new trail (← contents[step]?)
    return rewriting.within fun part => .behind address (contents.set step part)
  | _ :: _, _ => none

/-- Changes the value at the end of a trail by `change`, and the forms of the nodes on the way
by `passing`. -/
def alter (passing : Form → Form) (change : Value → Value) :
    Trail → Value → Store → Value × Store
  | [], value, store => (change value, store)
  | step :: trail, .node form parts, store =>
    match parts[step]? with
    | none => (.node form parts, store)
    | some part =>
      let (part, store) := alter passing change trail part store
      (.node (passing form) (parts.set step part), store)
  | step :: trail, .handle sharing address, store =>
    match store.contents? address with
    | none => (.handle sharing address, store)
    | some contents =>
      match contents[step]? with
      | none => (.handle sharing address, store)
      | some part =>
        let (part, store) := alter passing change trail part store
        (.handle sharing address, store.setContents address (contents.set step part))
  | _ :: _, value, store => (value, store)

end Store

end Replica
