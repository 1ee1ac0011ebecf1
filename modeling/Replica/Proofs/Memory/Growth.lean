import Replica.Proofs.Memory.Unfolding

/-!
How a store grows while something is built in it. `Growth old held store` says that `store` came from
`old` by new allocations and new handles, of which those in `held` are not yet in any allocation. Once
all of them are given up, the store is what it was.
-/

namespace Replica

theorem List.count_flatMap_set {α β : Type} [BEq β] (f : α → List β) (one : β) {items : List α}
    {index : Nat} {former : α} (found : items[index]? = some former) (changed : α) :
    ((items.set index changed).flatMap f).count one + (f former).count one =
      (items.flatMap f).count one + (f changed).count one := by
  induction items generalizing index with
  | nil => simp at found
  | cons item items ih =>
      cases index with
      | zero =>
          obtain rfl : item = former := by simpa using found
          simp only [List.set_cons_zero, List.flatMap_cons, List.count_append]
          omega
      | succ index =>
          have later : items[index]? = some former := by simpa using found
          have rest := ih later
          simp only [List.set_cons_succ, List.flatMap_cons, List.count_append]
          omega

theorem List.map_set_of_eq {α β : Type} {f : α → β} {items : List α} {index : Nat} {former new : α}
    (found : items[index]? = some former) (same : f new = f former) :
    (items.set index new).map f = items.map f := by
  obtain ⟨inside, _⟩ := List.getElem?_eq_some_iff.mp found
  apply List.ext_getElem?
  intro place
  rw [List.map_set, same, List.getElem?_set, List.getElem?_map]
  split
  · rename_i isIndex
    rw [← isIndex, found, List.length_map, if_pos inside]
    rfl
  · rfl

namespace Store

variable {old store : Store} {held addresses : List Address} {address other first : Address}
  {allocation : Allocation} {contents : List Value}

def slotHandles : Option Allocation → List Address
  | none => []
  | some allocation => Value.addressesOfAll allocation.contents

/-- The handles in what the allocations from an address on hold. -/
def handlesFrom (first : Address) (store : Store) : List Address :=
  (store.slots.toList.drop first).flatMap slotHandles

theorem get?_eq_some_iff :
    store.get? address = some allocation ↔ store.slots.toList[address]? = some (some allocation) := by
  simp [get?, Option.join_eq_some_iff]

theorem mem_handlesFrom :
    other ∈ store.handlesFrom first ↔ ∃ address allocation, first ≤ address ∧
      store.get? address = some allocation ∧ other ∈ Value.addressesOfAll allocation.contents := by
  rw [handlesFrom, List.mem_flatMap]
  constructor
  · rintro ⟨slot, present, member⟩
    obtain ⟨index, found⟩ := List.mem_iff_getElem?.mp present
    rw [List.getElem?_drop] at found
    cases slot with
    | none => simp [slotHandles] at member
    | some allocation =>
        exact ⟨first + index, allocation, Nat.le_add_right _ _, get?_eq_some_iff.mpr found, member⟩
  · rintro ⟨address, allocation, lower, found, member⟩
    refine ⟨some allocation, List.mem_iff_getElem?.mpr ⟨address - first, ?_⟩, member⟩
    rw [List.getElem?_drop, Nat.add_sub_cancel' lower]
    exact get?_eq_some_iff.mp found

theorem handlesFrom_eq (first : Nat) (store : Store) :
    store.handlesFrom first = (List.range (store.slots.size - first)).flatMap fun step =>
      slotHandles (store.get? (first + step)) := by
  rw [handlesFrom, List.flatMap_def, List.flatMap_def]
  congr 1
  apply List.ext_getElem
  · simp
  · intro index inside _
    have isSlot : first + index < store.slots.size := by
      simp only [List.length_map, List.length_drop, Array.length_toList] at inside
      omega
    simp [get?, isSlot]

theorem handlesFrom_size (store : Store) : store.handlesFrom store.slots.size = [] := by
  have beyond : store.slots.toList.drop store.slots.size = [] := by
    rw [List.drop_eq_nil_iff, Array.length_toList]
  rw [handlesFrom, beyond, List.flatMap_nil]

theorem handlesFrom_allocate (lower : first ≤ store.slots.size) :
    (allocate contents store).2.handlesFrom first =
      store.handlesFrom first ++ Value.addressesOfAll contents := by
  simp [handlesFrom, allocate, List.drop_append_of_le_length, lower, slotHandles]

theorem handlesFrom_put_of_lt (before : address < first) (changed : Option Allocation) :
    (store.put address changed).handlesFrom first = store.handlesFrom first := by
  simp [handlesFrom, put, List.drop_set, before]

theorem count_handlesFrom_put (lower : first ≤ address) (found : store.get? address = some allocation)
    (changed : Option Allocation) (other : Address) :
    ((store.put address changed).handlesFrom first).count other +
        (Value.addressesOfAll allocation.contents).count other =
      (store.handlesFrom first).count other + (slotHandles changed).count other := by
  have place : (store.slots.toList.drop first)[address - first]? = some (some allocation) := by
    rw [List.getElem?_drop, Nat.add_sub_cancel' lower]
    exact get?_eq_some_iff.mp found
  have counted := List.count_flatMap_set slotHandles other place changed
  simpa [handlesFrom, put, List.drop_set, Nat.not_lt.mpr lower, slotHandles] using counted

/-- A new allocation takes over the handles in its contents, and one handle leads to it. -/
theorem count_allocated (lower : first ≤ store.slots.size) (held : List Address) (other : Nat) :
    (store.slots.size :: held ++ (allocate contents store).2.handlesFrom first).count other =
      (if other = store.slots.size then 1 else 0) +
        (Value.addressesOfAll contents ++ held ++ store.handlesFrom first).count other := by
  simp only [handlesFrom_allocate lower, List.cons_append, List.count_cons, List.count_append, beq_iff_eq]
  split <;> split <;> omega

/-- Where an allocation is given up, what it held is held, but for the handle to it. -/
theorem count_freed (lower : first ≤ address) (found : store.get? address = some allocation) (held : List Address)
    (other : Address) :
    (Value.addressesOfAll allocation.contents ++ held ++ (store.put address none).handlesFrom first).count other +
        (if other = address then 1 else 0) =
      (address :: held ++ store.handlesFrom first).count other := by
  have counted := count_handlesFrom_put lower found none other
  simp only [slotHandles, List.count_nil, Nat.add_zero] at counted
  simp only [List.cons_append, List.count_cons, List.count_append, beq_iff_eq]
  split <;> split <;> first | omega | simp_all

structure Growth (old : Store) (held : List Address) (store : Store) : Prop where
  labels_eq : store.labels = old.labels
  size_le : old.slots.size ≤ store.slots.size
  /-- What was there before counts the new handles as well. -/
  former : ∀ address, address < old.slots.size →
    store.get? address = (old.get? address).map fun allocation =>
      { allocation with
        count := allocation.count + (held ++ store.handlesFrom old.slots.size).count address }
  /-- What is new counts nothing but new handles. -/
  fresh : ∀ address, old.slots.size ≤ address →
    store.count address = (held ++ store.handlesFrom old.slots.size).count address
  single : ∀ address allocation, old.slots.size ≤ address → store.get? address = some allocation →
    allocation.count = 1
  descends : ∀ address allocation, old.slots.size ≤ address → store.get? address = some allocation →
    ∀ other ∈ Value.addressesOfAll allocation.contents, other < address
  live : ∀ address ∈ held ++ store.handlesFrom old.slots.size, address < old.slots.size →
    (old.get? address).isSome

namespace Growth

theorem refl (old : Store) : Growth old [] old where
  labels_eq := rfl
  size_le := Nat.le_refl _
  former address _ := by simp [handlesFrom_size]
  fresh address beyond := by
    simp [handlesFrom_size, count_of_none (get?_eq_none_of_size_le beyond)]
  single address allocation beyond found := by
    simp [get?_eq_none_of_size_le beyond] at found
  descends address allocation beyond found := by
    simp [get?_eq_none_of_size_le beyond] at found
  live := by simp [handlesFrom_size]

theorem of_perm (growth : Growth old held store) (perm : held.Perm addresses) :
    Growth old addresses store where
  labels_eq := growth.labels_eq
  size_le := growth.size_le
  former address bound := by
    rw [← (perm.append_right _).count_eq]
    exact growth.former address bound
  fresh address beyond := by
    rw [← (perm.append_right _).count_eq]
    exact growth.fresh address beyond
  single := growth.single
  descends := growth.descends
  live address member := growth.live address ((perm.append_right _).mem_iff.mpr member)

theorem isSome_of_mem (growth : Growth old held store)
    (member : address ∈ held ++ store.handlesFrom old.slots.size) : (store.get? address).isSome := by
  by_cases bound : address < old.slots.size
  · rw [growth.former address bound, Option.isSome_map]
    exact growth.live address member bound
  · have counted := growth.fresh address (Nat.le_of_not_lt bound)
    have positive := List.count_pos_iff.mpr member
    cases found : store.get? address with
    | none =>
        rw [count_of_none found] at counted
        omega
    | some allocation => rfl

theorem former_contents (growth : Growth old held store) (bound : address < old.slots.size) :
    store.contents? address = old.contents? address := by
  simp [contents?, growth.former address bound, Function.comp_def]

theorem follows (growth : Growth old held store) : store.Follows old where
  size_le := growth.size_le
  contents address contents bound found := by rwa [growth.former_contents bound] at found

theorem pointsTo_cases (growth : Growth old held store) (points : store.PointsTo address other) :
    old.PointsTo address other ∨
      (old.slots.size ≤ address ∧ other < address ∧ other ∈ store.handlesFrom old.slots.size) := by
  obtain ⟨contents, found, member⟩ := points
  by_cases bound : address < old.slots.size
  · rw [growth.former_contents bound] at found
    exact Or.inl ⟨contents, found, member⟩
  · obtain ⟨allocation, here, rfl⟩ := contents?_eq_some_iff.mp found
    have beyond := Nat.le_of_not_lt bound
    exact Or.inr ⟨beyond, growth.descends address allocation beyond here other member,
      mem_handlesFrom.mpr ⟨address, allocation, beyond, here, member⟩⟩

theorem closed (growth : Growth old held store) (sound : old.Sound) (address other : Address)
    (points : store.PointsTo address other) : (store.get? other).isSome := by
  rcases growth.pointsTo_cases points with before | ⟨_, _, inside⟩
  · have live := sound.closed address other before
    rw [growth.former other (lt_size_of_isSome live), Option.isSome_map]
    exact live
  · exact growth.isSome_of_mem (List.mem_append_right _ inside)

theorem lt_size_of_pointsTo (growth : Growth old held store) (sound : old.Sound)
    (bound : address < old.slots.size) (points : store.PointsTo address other) :
    other < old.slots.size := by
  obtain ⟨contents, here, inside⟩ := points
  rw [growth.former_contents bound] at here
  exact lt_size_of_isSome (sound.closed address other ⟨contents, here, inside⟩)

theorem bounded (growth : Growth old held store) (sound : old.Sound) (address other : Address)
    (points : store.PointsTo address other) : other < store.slots.size :=
  lt_size_of_isSome (growth.closed sound address other points)

theorem acyclic (growth : Growth old held store) (sound : old.Sound) (acyclic : old.Acyclic) :
    store.Acyclic := by
  obtain ⟨rank, bounded, falls⟩ := acyclic.exists_rank
  apply acyclic_of_rank fun address =>
    if address < old.slots.size then rank address else old.slots.size + address + 1
  intro address other points
  rcases growth.pointsTo_cases points with before | ⟨beyond, less, _⟩
  · have otherBound := lt_size_of_isSome (sound.closed address other before)
    have below := falls address other before
    simp only [before.lt_size, otherBound, if_true]
    exact below
  · have otherRank := bounded other
    simp only [Nat.not_lt.mpr beyond, if_false]
    split
    · omega
    · exact Nat.succ_lt_succ (Nat.add_lt_add_left less _)

theorem sound (growth : Growth old held store) (sound : old.Sound) : store.Sound where
  closed := growth.closed sound
  counted address allocation found := by
    by_cases bound : address < old.slots.size
    · obtain ⟨former, before, rfl⟩ := Option.map_eq_some_iff.mp
        ((growth.former address bound).symm.trans found)
      exact Nat.lt_of_lt_of_le (sound.counted address former before) (Nat.le_add_right _ _)
    · rw [growth.single address allocation (Nat.le_of_not_lt bound) found]
      exact Nat.one_pos

/-- What was there before is counted anew when only the handles to it that are held change. -/
theorem recount (growth : Growth old held store) (addresses : List Address)
    (before : old.get? address = some allocation)
    (others : ∀ other, other ≠ address → addresses.count other = held.count other) :
    Growth old addresses (store.put address (some { allocation with
      count := allocation.count +
        (addresses ++ store.handlesFrom old.slots.size).count address })) := by
  have bound := lt_size_of_get? before
  have found := growth.former address bound
  rw [before, Option.map_some] at found
  have apart : ∀ other, old.slots.size ≤ other → other ≠ address := fun other beyond =>
    Nat.ne_of_gt (Nat.lt_of_lt_of_le bound beyond)
  have same : ∀ changed, (store.put address changed).handlesFrom old.slots.size =
      store.handlesFrom old.slots.size := handlesFrom_put_of_lt bound
  exact {
    labels_eq := by simpa using growth.labels_eq
    size_le := by simpa using growth.size_le
    former := by
      intro other otherBound
      rw [get?_put found, same]
      by_cases isAddress : other = address
      · subst isAddress
        simp [before]
      · rw [if_neg isAddress, growth.former other otherBound, List.count_append, List.count_append,
          others other isAddress]
    fresh := by
      intro other beyond
      rw [count, get?_put found, if_neg (apart other beyond), ← count, growth.fresh other beyond, same,
        List.count_append, List.count_append, others other (apart other beyond)]
    single := by
      intro other allocation beyond here
      rw [get?_put found, if_neg (apart other beyond)] at here
      exact growth.single other allocation beyond here
    descends := by
      intro other allocation beyond here
      rw [get?_put found, if_neg (apart other beyond)] at here
      exact growth.descends other allocation beyond here
    live := by
      intro other member otherBound
      by_cases isAddress : other = address
      · simp [isAddress, before]
      · apply growth.live other _ otherBound
        rw [same, ← List.count_pos_iff, List.count_append, others other isAddress] at member
        rwa [← List.count_pos_iff, List.count_append]
  }

theorem retain (growth : Growth old held store) (live : (old.get? address).isSome) :
    Growth old (address :: held) (store.retain address) := by
  obtain ⟨allocation, before⟩ := Option.isSome_iff_exists.mp live
  have found := growth.former address (lt_size_of_isSome live)
  rw [before, Option.map_some] at found
  have recounted := growth.recount (address :: held) before
    (fun other isOther => List.count_cons_of_ne (Ne.symm isOther))
  rwa [List.cons_append, List.count_cons_self, ← Nat.add_assoc, ← retain_of_get? found] at recounted

theorem retainAll (growth : Growth old held store)
    (live : ∀ address ∈ addresses, (old.get? address).isSome) :
    Growth old (addresses ++ held) (store.retainAll addresses) := by
  induction addresses generalizing held store with
  | nil => exact growth
  | cons address addresses ih =>
      have first := growth.retain (live address (by simp))
      have rest := ih first (fun other member => live other (by simp [member]))
      exact rest.of_perm List.perm_middle

theorem allocate (growth : Growth old (Value.addressesOfAll contents ++ held) store) :
    Growth old (store.slots.size :: held) (Store.allocate contents store).2 where
  labels_eq := by simpa using growth.labels_eq
  size_le := by simpa using Nat.le_succ_of_le growth.size_le
  former other bound := by
    have isOther : other ≠ store.slots.size := Nat.ne_of_lt (Nat.lt_of_lt_of_le bound growth.size_le)
    rw [get?_allocate, if_neg isOther, count_allocated growth.size_le, if_neg isOther, growth.former other bound,
      Nat.zero_add]
  fresh other beyond := by
    have dead : store.get? store.slots.size = none := get?_eq_none_of_size_le (Nat.le_refl _)
    rw [count_allocated growth.size_le, ← growth.fresh other beyond, count, get?_allocate]
    split
    · rename_i isNew
      rw [isNew, count_of_none dead]
      rfl
    · rw [Nat.zero_add, count]
  single other allocation beyond found := by
    rw [get?_allocate] at found
    split at found
    · cases found
      rfl
    · exact growth.single other allocation beyond found
  descends other allocation beyond found inside member := by
    rw [get?_allocate] at found
    split at found
    · rename_i isNew
      cases found
      rw [isNew]
      exact lt_size_of_isSome (growth.isSome_of_mem (by simp [member]))
    · exact growth.descends other allocation beyond found inside member
  live other member bound := by
    have isOther : other ≠ store.slots.size := Nat.ne_of_lt (Nat.lt_of_lt_of_le bound growth.size_le)
    apply growth.live other _ bound
    rwa [← List.count_pos_iff, count_allocated growth.size_le, if_neg isOther, Nat.zero_add, List.count_pos_iff]
      at member

theorem free (growth : Growth old (address :: held) store) (beyond : old.slots.size ≤ address)
    (found : store.get? address = some allocation) :
    Growth old (Value.addressesOfAll allocation.contents ++ held) (store.put address none) where
  labels_eq := by simpa using growth.labels_eq
  size_le := by simpa using growth.size_le
  former other bound := by
    have isOther : other ≠ address := Nat.ne_of_lt (Nat.lt_of_lt_of_le bound beyond)
    have counted := count_freed beyond found held other
    rw [if_neg isOther, Nat.add_zero] at counted
    rw [get?_put found, if_neg isOther, counted, growth.former other bound]
  fresh other otherBeyond := by
    have counted := count_freed beyond found held other
    rw [← growth.fresh other otherBeyond] at counted
    rw [count, get?_put found]
    split
    · rename_i isAddress
      rw [isAddress, if_pos rfl, count_of_get? found, growth.single address allocation beyond found]
        at counted
      rw [isAddress]
      simp only [Option.map_none, Option.getD_none]
      omega
    · rename_i isOther
      rw [if_neg isOther] at counted
      rw [← count]
      omega
  single other changed otherBeyond here := by
    rw [get?_put found] at here
    split at here
    · cases here
    · exact growth.single other changed otherBeyond here
  descends other changed otherBeyond here := by
    rw [get?_put found] at here
    split at here
    · cases here
    · exact growth.descends other changed otherBeyond here
  live other member bound := by
    have counted := count_freed beyond found held other
    apply growth.live other _ bound
    rw [← List.count_pos_iff] at member ⊢
    omega

/-- What is counted once is new, since what was there before counts its former handles as well. -/
theorem size_le_of_count_le_one (growth : Growth old (address :: held) store) (sound : old.Sound)
    (found : store.get? address = some allocation) (last : allocation.count ≤ 1) :
    old.slots.size ≤ address := by
  apply Nat.le_of_not_lt
  intro bound
  obtain ⟨former, before⟩ := Option.isSome_iff_exists.mp (growth.live address (by simp) bound)
  have counted := growth.former address bound
  rw [found, before, Option.map_some, Option.some.injEq] at counted
  have positive := sound.counted address former before
  rw [counted] at last
  simp only [List.cons_append, List.count_cons_self] at last
  omega

theorem release_former (growth : Growth old (address :: held) store)
    (found : store.get? address = some allocation) (more : ¬ allocation.count ≤ 1) :
    Growth old held
      (store.put address (some { allocation with count := allocation.count - 1 })) := by
  have bound : address < old.slots.size := by
    apply Nat.lt_of_not_le
    intro beyond
    have once := growth.single address allocation beyond found
    omega
  obtain ⟨former, before⟩ := Option.isSome_iff_exists.mp (growth.live address (by simp) bound)
  have counted := growth.former address bound
  rw [found, before, Option.map_some, Option.some.injEq] at counted
  have recounted := growth.recount held before
    (fun other isOther => (List.count_cons_of_ne (Ne.symm isOther)).symm)
  rw [counted]
  simpa only [List.cons_append, List.count_cons_self, ← Nat.add_assoc, Nat.add_sub_cancel] using recounted

theorem release (growth : Growth old (addresses ++ held) store) (sound : old.Sound) :
    Growth old held (store.release addresses) := by
  fun_induction Store.release addresses store with
  | case1 store => exact growth
  | case2 address rest store dead ih =>
      have live : (store.get? address).isSome := growth.isSome_of_mem (by simp)
      simp [dead] at live
  | case3 address rest store allocation found last ih =>
      have beyond := growth.size_le_of_count_le_one sound found last
      apply ih
      rw [List.append_assoc]
      exact growth.free beyond found
  | case4 address rest store allocation found more ih =>
      -- What is new is counted once, so that a handle of several leads to what was there before.
      exact ih (growth.release_former found more)

theorem get?_eq_none (growth : Growth old [] store) (beyond : old.slots.size ≤ address) :
    store.get? address = none := by
  generalize left : store.slots.size - address = distance
  -- From the end of the store downward: the one handle to a new allocation is in one that is newer still.
  induction distance using Nat.strongRecOn generalizing address with
  | ind distance ih =>
      cases found : store.get? address with
      | none => rfl
      | some allocation =>
          have bound := lt_size_of_get? found
          have counted := growth.fresh address beyond
          rw [count_of_get? found, growth.single address allocation beyond found, List.nil_append] at counted
          have inside : address ∈ store.handlesFrom old.slots.size := by
            rw [← List.count_pos_iff, ← counted]
            exact Nat.one_pos
          obtain ⟨holder, holding, holderBeyond, here, member⟩ := mem_handlesFrom.mp inside
          have above : Nat.lt address holder :=
            growth.descends holder holding holderBeyond here address member
          have holderBound := lt_size_of_get? here
          have gone := ih (store.slots.size - holder) (left ▸ Nat.sub_lt_sub_left bound above)
            holderBeyond rfl
          simp [gone] at here

theorem get?_eq (growth : Growth old [] store) (address : Address) :
    store.get? address = old.get? address := by
  by_cases bound : address < old.slots.size
  · have nothing : store.handlesFrom old.slots.size = [] := by
      rw [List.eq_nil_iff_forall_not_mem]
      intro other member
      obtain ⟨holder, holding, beyond, found, _⟩ := mem_handlesFrom.mp member
      simp [growth.get?_eq_none beyond] at found
    simp [growth.former address bound, nothing]
  · have beyond := Nat.le_of_not_lt bound
    rw [growth.get?_eq_none beyond, get?_eq_none_of_size_le beyond]

end Growth

theorem follows_put (found : store.get? address = some allocation) (changed : Option Allocation)
    (same : ∀ other ∈ changed, other.contents = allocation.contents) :
    (store.put address changed).Follows store where
  size_le := by simp
  contents other contents bound held := by
    rw [contents?_eq_some_iff] at held ⊢
    obtain ⟨here, holds, rfl⟩ := held
    rw [get?_put found] at holds
    split at holds
    · rename_i isAddress
      exact ⟨allocation, isAddress ▸ found, (same here holds).symm⟩
    · exact ⟨here, holds, rfl⟩

theorem follows_release (addresses : List Address) (store : Store) :
    (store.release addresses).Follows store := by
  fun_induction Store.release addresses store with
  | case1 store => exact .refl store
  | case2 address rest store dead ih => exact ih
  | case3 address rest store allocation found last ih =>
      exact ih.trans (follows_put found none (by simp))
  | case4 address rest store allocation found more ih =>
      exact ih.trans (follows_put found _ (by simp))

@[simp]
theorem release_nil (store : Store) : store.release [] = store := by
  rw [Store.release]

@[simp]
theorem size_release (addresses : List Address) (store : Store) :
    (store.release addresses).slots.size = store.slots.size := by
  fun_induction Store.release addresses store with
  | case1 store => rfl
  | case2 address rest store dead ih => exact ih
  | case3 address rest store allocation found last ih => rw [ih, size_put]
  | case4 address rest store allocation found more ih => rw [ih, size_put]

theorem release_contents {addresses : List Address}
    (held : (store.release addresses).contents? address = some contents) :
    store.contents? address = some contents := by
  have live : ((store.release addresses).get? address).isSome := isSome_of_contents held
  have bound := lt_size_of_isSome live
  rw [size_release] at bound
  exact (follows_release addresses store).contents address contents bound held

theorem Acyclic.release (acyclic : store.Acyclic) (addresses : List Address) :
    (store.release addresses).Acyclic := by
  apply acyclic.of_pointsTo
  rintro address other ⟨contents, held, inside⟩
  exact ⟨contents, release_contents held, inside⟩

theorem follows_retain (address : Address) (store : Store) : (store.retain address).Follows store := by
  cases found : store.get? address with
  | none => simpa [retain, found] using Follows.refl store
  | some allocation =>
      rw [retain_of_get? found]
      exact follows_put found _ (by simp)

theorem follows_retainAll (addresses : List Address) (store : Store) :
    (store.retainAll addresses).Follows store := by
  induction addresses generalizing store with
  | nil => exact .refl store
  | cons address addresses ih => exact (ih _).trans (follows_retain address store)

theorem follows_allocate (contents : List Value) (store : Store) :
    (allocate contents store).2.Follows store where
  size_le := by simp
  contents other changed bound held := by
    rw [contents?_eq_some_iff] at held ⊢
    obtain ⟨here, holds, same⟩ := held
    rw [get?_allocate, if_neg (Nat.ne_of_lt bound)] at holds
    exact ⟨here, holds, same⟩

end Store

end Replica
