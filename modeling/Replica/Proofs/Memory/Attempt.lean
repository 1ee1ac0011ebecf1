import Replica.Proofs.Memory.Conservation
import Replica.Proofs.Memory.Soiling
import Replica.Proofs.Memory.Stopping

/-!
Copies into variables that are not in use, and the memories that they lead to. What was there before counts
the new handles, and mutexes in it are poisoned on the way to a cell that stopped the copy.
-/

namespace Replica

open Store

theorem Value.poisonAlong_nil (value : Value) : value.poisonAlong [] = value := by
  cases value <;> rfl

theorem Store.soil_nil (store : Store) (value : Value) (address : Address) : store.soil [] value address = id :=
  soil_of_unentered (by rintro rest ⟨⟩)

namespace Memory

variable {memory after : Memory}

/-- A copy of what one variable holds, to be put into another that is not in use. It comes to an end. -/
structure Attempt (memory : Memory) where
  name : String
  source : String
  value : Value
  result : Except Halt Value
  later : Store
  found : memory.lookup source = some value
  unused : memory.lookup name = none
  made : value.copy.run memory.store = (result, later)
  ends : result ≠ .error .depth

theorem alter_eq {name : String} {value : Value} (found : memory.lookup name = some value) (trail : Trail)
    (passing : Form → Form) (change : Value → Value) :
    memory.alter name trail passing change =
      ⟨insert name (Store.alter passing change trail value memory.store).1 memory.bindings,
        (Store.alter passing change trail value memory.store).2⟩ := by
  rw [alter, found]

namespace Attempt

variable (attempt : Attempt memory)

def refusal : Option Refusal :=
  match attempt.result with
  | .ok _ => none
  | .error _ => some .panic

def handles : List Address :=
  attempt.result.toOption.elim [] Value.addresses

/-- Leads to the cell that stopped the copy, or nowhere if none did. -/
def trail : Trail :=
  match attempt.result with
  | .error (.held trail) => trail
  | _ => []

/-- What becomes of the value of a variable. -/
def spoil (name : String) (value : Value) : Value :=
  if name = attempt.source then value.poisonAlong attempt.trail else value

/-- What becomes of the contents of an allocation. -/
noncomputable def touch (address : Address) : List Value → List Value :=
  memory.store.soil attempt.trail attempt.value address

/-- How many handles to an allocation there are more. -/
def raise (address : Address) : Nat :=
  (attempt.handles ++ attempt.later.handlesFrom memory.store.slots.size).count address

/-- The memory that an attempt leads to. -/
structure Leads (attempt : Attempt memory) (after : Memory) : Prop where
  sorted : after.bindings.Pairwise fun first second => first.1 < second.1
  lookup_eq : ∀ name, after.lookup name =
    if name = attempt.name then attempt.result.toOption else (memory.lookup name).map (attempt.spoil name)
  size_eq : after.store.slots.size = attempt.later.slots.size
  labels_eq : after.store.labels = memory.store.labels
  get?_eq : ∀ address, after.store.get? address = (attempt.later.get? address).map fun allocation =>
    { allocation with contents := attempt.touch address allocation.contents }

theorem name_ne_of_found {name : String} {value : Value} (found : memory.lookup name = some value) :
    attempt.name ≠ name := by
  intro same
  have unused := attempt.unused
  rw [same, found] at unused
  cases unused

theorem source_ne_name (attempt other : Attempt memory) : other.source ≠ attempt.name :=
  (attempt.name_ne_of_found other.found).symm

theorem spoil_of_ne {name : String} (isOther : name ≠ attempt.source) : attempt.spoil name = id :=
  funext fun _ => if_neg isOther

theorem spoil_of_nil (nowhere : attempt.trail = []) (name : String) : attempt.spoil name = id := by
  funext value
  rw [spoil, nowhere, Value.poisonAlong_nil, ite_self, id]

theorem touch_of_nil (nowhere : attempt.trail = []) (address : Address) : attempt.touch address = id := by
  rw [touch, nowhere, soil_nil]

@[simp]
theorem addresses_spoil (name : String) (value : Value) : (attempt.spoil name value).addresses = value.addresses := by
  unfold spoil
  split
  · exact value.addresses_poisonAlong attempt.trail
  · rfl

@[simp]
theorem addressesOfAll_touch (address : Address) (contents : List Value) :
    Value.addressesOfAll (attempt.touch address contents) = Value.addressesOfAll contents :=
  addressesOfAll_soil memory.store attempt.trail attempt.value address contents

theorem spoil_comm (first second : Attempt memory) (name : String) (value : Value) :
    first.spoil name (second.spoil name value) = second.spoil name (first.spoil name value) := by
  unfold spoil
  split <;> split
  · exact Value.poisonAlong_comm first.trail second.trail value
  · rfl
  · rfl
  · rfl

theorem touch_comm (first second : Attempt memory) (address : Address) (contents : List Value) :
    first.touch address (second.touch address contents) = second.touch address (first.touch address contents) :=
  soilSome_comm _ _ contents

section Sound

variable (sound : memory.Sound)
include sound

theorem growth : Growth memory.store attempt.handles attempt.later := by
  have left := Value.copy_leaves sound.store (sound.live attempt.found)
  rw [attempt.made] at left
  unfold handles
  generalize attempt.result = result at left
  cases result <;> exact left

theorem touch_of_size_le {address : Address} (beyond : memory.store.slots.size ≤ address) :
    attempt.touch address = id := by
  apply soil_of_unentered
  intro rest enters
  exact absurd (enters.lt_size sound.store (sound.live attempt.found)) (Nat.not_lt.mpr beyond)

theorem heldAt : attempt.trail = [] ∨
    memory.store.HeldAt attempt.trail attempt.value ∧ memory.store.Once attempt.trail attempt.value := by
  have live := sound.live attempt.found
  have made := attempt.made
  unfold trail
  generalize attempt.result = result at made
  rcases result with (trail | _) | copy
  · exact .inr (Value.heldAt_of_copy sound.store live made)
  · exact .inl rfl
  · exact .inl rfl

theorem leads_of_held {trail : Trail} (stopped : attempt.result = .error (.held trail)) :
    attempt.Leads (memory.copy attempt.name attempt.source none).2 := by
  have growth := attempt.growth sound
  have made := attempt.made
  simp only [handles, stopped] at growth made
  have isTrail : attempt.trail = trail := by simp [Attempt.trail, stopped]
  -- A copy that is stopped leaves nothing behind, so all that changes is the poison along its trail.
  obtain ⟨_, once⟩ := Value.heldAt_of_copy sound.store (sound.live attempt.found) made
  obtain ⟨lookups, stores⟩ := alter_poisoned growth.get?_eq attempt.found once
  obtain ⟨_, outlines⟩ := sameHandles_alter attempt.later Form.poisoned
    (fun value => (rfl : (id value).addresses = _)) trail attempt.value
  rw [copy_eq attempt.found, made]
  have foundLater : ({ memory with store := attempt.later } : Memory).lookup attempt.source = some attempt.value :=
    attempt.found
  have isAltered := alter_eq foundLater trail Form.poisoned id
  dsimp only at lookups stores isAltered ⊢
  generalize ({ memory with store := attempt.later } : Memory).alter attempt.source trail Form.poisoned id = after
    at lookups stores isAltered ⊢
  constructor
  · rw [isAltered]
    exact pairwise_insert _ _ sound.sorted
  · intro name
    rw [lookups]
    by_cases isName : name = attempt.name
    · rw [if_pos isName, if_neg (isName ▸ attempt.name_ne_of_found attempt.found), stopped, isName, attempt.unused]
      rfl
    · rw [if_neg isName]
      split
      · rename_i isSource
        rw [isSource, attempt.found, Option.map_some, spoil, if_pos rfl, isTrail]
      · rename_i isOther
        rw [spoil_of_ne attempt isOther, Option.map_id]
        rfl
  · rw [isAltered]
    exact outlines.size_eq
  · rw [isAltered]
    exact outlines.labels_eq.trans growth.labels_eq
  · intro address
    rw [stores.get?_eq, growth.get?_eq, touch, isTrail]

theorem leads_of_ok {copy : Value} (succeeds : attempt.result = .ok copy) :
    attempt.Leads (memory.copy attempt.name attempt.source none).2 := by
  have growth := attempt.growth sound
  have made := attempt.made
  rw [succeeds] at made
  have nowhere : attempt.trail = [] := by simp [Attempt.trail, succeeds]
  rw [copy_eq_withCopy attempt.found made]
  constructor
  · exact pairwise_insert _ _ sound.sorted
  · intro name
    rw [withCopy, lookup_assign, succeeds]
    split
    · rfl
    · rw [attempt.spoil_of_nil nowhere, Option.map_id]
      rfl
  · rw [store_withCopy attempt.unused]
  · rw [store_withCopy attempt.unused]
    exact growth.labels_eq
  · intro address
    rw [store_withCopy attempt.unused, attempt.touch_of_nil nowhere]
    simp

theorem leads : attempt.Leads (memory.copy attempt.name attempt.source none).2 := by
  cases ended : attempt.result with
  | ok copy => exact attempt.leads_of_ok sound ended
  | error halt =>
      cases halt with
      | held trail => exact attempt.leads_of_held sound ended
      | depth => exact absurd ended attempt.ends

/-- How many slots the copy has taken. -/
def room : Nat :=
  attempt.later.slots.size - memory.store.slots.size

theorem size_later : attempt.later.slots.size = memory.store.slots.size + attempt.room := by
  have grown := (attempt.growth sound).size_le
  rw [room]
  omega

theorem soothe_spoil {name : String} {value : Value} (found : memory.lookup name = some value) :
    (attempt.spoil name value).soothe = value.soothe := by
  rcases attempt.heldAt sound with nowhere | ⟨held, _⟩
  · rw [attempt.spoil_of_nil nowhere, id]
  · unfold spoil
    split
    · rename_i isSource
      rw [isSource, attempt.found, Option.some.injEq] at found
      exact found ▸ held.soothe_poisonAlong
    · rfl

theorem soothe_touch {address : Address} {contents : List Value}
    (found : memory.store.contents? address = some contents) :
    (attempt.touch address contents).map Value.soothe = contents.map Value.soothe := by
  rcases attempt.heldAt sound with nowhere | ⟨held, _⟩
  · rw [attempt.touch_of_nil nowhere, id]
  · exact held.soothe_soil found

end Sound

namespace Leads

variable {attempt}

theorem contents?_eq (leads : attempt.Leads after) (address : Address) :
    after.store.contents? address = (attempt.later.contents? address).map (attempt.touch address) := by
  rw [contents?, leads.get?_eq, contents?, Option.map_map, Option.map_map]
  rfl

theorem widened (leads : attempt.Leads after) (sound : memory.Sound) :
    memory.store.Widened after.store attempt.room where
  size_eq := leads.size_eq.trans (attempt.size_later sound)
  contents_eq address bound := by
    rw [leads.contents?_eq, (attempt.growth sound).former_contents bound]
    cases found : memory.store.contents? address with
    | none => rfl
    | some contents => exact congrArg some (attempt.soothe_touch sound found)

end Leads

end Attempt

theorem Sound.copy (sound : memory.Sound) (name source : String) (hold : Option Hold) :
    (memory.copy name source hold).2.Sound := by
  obtain ⟨lost, counts⟩ := sound.exists_exact
  rw [List.nil_append, ← Value.addressesOfAll_map_handle lost] at counts
  exact .of_exact (Exact.invariant.copy counts name source hold)

end Memory

end Replica
