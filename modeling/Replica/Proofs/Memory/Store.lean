import Replica.Memory.Copy

/-!
What each operation of the store leaves at each address.
-/

namespace Replica

namespace Store

variable {store : Store} {address other : Address} {allocation : Allocation} {contents : List Value}

theorem lt_size_of_get? (found : store.get? address = some allocation) :
    address < store.slots.size := by
  obtain ⟨inside, _⟩ := slot_of_get? found
  simpa using inside

theorem get?_eq_none_of_size_le (beyond : store.slots.size ≤ address) : store.get? address = none := by
  simp [get?, Array.getElem?_eq_none beyond]

theorem contents?_eq_some_iff :
    store.contents? address = some contents ↔
      ∃ allocation, store.get? address = some allocation ∧ allocation.contents = contents := by
  simp [contents?]

theorem isSome_contents? : (store.contents? address).isSome = (store.get? address).isSome := by
  simp [contents?]

theorem exists_contents (live : (store.get? address).isSome) :
    ∃ contents, store.contents? address = some contents := by
  rwa [← isSome_contents?, Option.isSome_iff_exists] at live

theorem isSome_of_contents (found : store.contents? address = some contents) : (store.get? address).isSome := by
  rw [← isSome_contents?, found]
  rfl

theorem lt_size_of_isSome (live : (store.get? address).isSome) : address < store.slots.size := by
  obtain ⟨allocation, found⟩ := Option.isSome_iff_exists.mp live
  exact lt_size_of_get? found

theorem count_of_get? (found : store.get? address = some allocation) :
    store.count address = allocation.count := by
  simp [count, found]

theorem count_of_none (dead : store.get? address = none) : store.count address = 0 := by
  simp [count, dead]

@[simp]
theorem allocate_fst (contents : List Value) (store : Store) :
    (allocate contents store).1 = store.slots.size := rfl

@[simp]
theorem size_allocate (contents : List Value) (store : Store) :
    (allocate contents store).2.slots.size = store.slots.size + 1 := by
  simp [allocate]

@[simp]
theorem labels_allocate (contents : List Value) (store : Store) :
    (allocate contents store).2.labels = store.labels := rfl

theorem get?_allocate (contents : List Value) (store : Store) (address : Address) :
    (allocate contents store).2.get? address =
      if address = store.slots.size then some ⟨1, contents⟩ else store.get? address := by
  simp only [allocate, get?, Array.getElem?_push]
  split
  · rfl
  · rfl

@[simp]
theorem size_put (address : Address) (changed : Option Allocation) (store : Store) :
    (store.put address changed).slots.size = store.slots.size := by
  simp [put]

@[simp]
theorem labels_put (address : Address) (changed : Option Allocation) (store : Store) :
    (store.put address changed).labels = store.labels := rfl

theorem get?_put (found : store.get? address = some allocation) (changed : Option Allocation) :
    (store.put address changed).get? other = if other = address then changed else store.get? other := by
  have bound := lt_size_of_get? found
  simp only [put, get?, Array.getElem?_setIfInBounds]
  by_cases same : other = address
  · subst same
    simp [bound]
  · simp [same, Ne.symm same]

theorem retain_of_get? (found : store.get? address = some allocation) :
    store.retain address =
      store.put address (some { allocation with count := allocation.count + 1 }) := by
  simp [retain, found]

theorem setContents_of_get? (found : store.get? address = some allocation) (changed : List Value) :
    store.setContents address changed =
      store.put address (some { allocation with contents := changed }) := by
  simp [setContents, found]

@[simp]
theorem size_setContents (address : Address) (changed : List Value) (store : Store) :
    (store.setContents address changed).slots.size = store.slots.size := by
  unfold setContents
  split <;> simp

@[simp]
theorem labels_setContents (address : Address) (changed : List Value) (store : Store) :
    (store.setContents address changed).labels = store.labels := by
  unfold setContents
  split <;> simp

theorem get?_setContents (address : Address) (changed : List Value) (store : Store)
    (other : Address) :
    (store.setContents address changed).get? other =
      if other = address then (store.get? other).map ({ · with contents := changed })
      else store.get? other := by
  unfold setContents
  cases found : store.get? address with
  | none =>
      by_cases same : other = address
      · simp [same, found]
      · simp [same]
  | some allocation =>
      simp only [get?_put found]
      by_cases same : other = address
      · simp [same, found]
      · simp [same]

end Store

end Replica
