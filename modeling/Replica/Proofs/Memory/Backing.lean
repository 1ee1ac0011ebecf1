import Replica.Proofs.Memory.Growth
import Replica.Proofs.Memory.Building

/-!
Stores that count all handles. Whatever is built, copied or given up, each allocation counts the handles to
it, no more and no less. Where a store counts handles besides that are lost, no handle is left without its
allocation still.
-/

namespace Replica

theorem List.count_flatMap_replicate (times : Nat → Nat) (bound one : Nat) :
    ((List.range bound).flatMap fun number => List.replicate (times number) number).count one =
      if one < bound then times one else 0 := by
  induction bound with
  | zero => rfl
  | succ bound ih =>
      rw [List.range_succ, List.flatMap_append, List.count_append, ih, List.flatMap_singleton,
        List.count_replicate]
      simp only [beq_iff_eq]
      split <;> split <;> split <;> first | omega | simp_all

namespace Store

/-- Each allocation counts the handles to it, those that are held as well as those in allocations. -/
structure Exact (held : List Address) (store : Store) : Prop where
  counted : ∀ address, store.count address = (held ++ store.handlesFrom 0).count address
  positive : ∀ address allocation, store.get? address = some allocation → 0 < allocation.count

/-- Each allocation counts at least the handles to it. -/
structure Backed (held : List Address) (store : Store) : Prop where
  counted : ∀ address, (held ++ store.handlesFrom 0).count address ≤ store.count address
  positive : ∀ address allocation, store.get? address = some allocation → 0 < allocation.count

variable {store later : Store} {held fewer more addresses : List Address} {address : Address}
  {allocation : Allocation} {contents changed : List Value}

theorem count_put (found : store.get? address = some allocation) (changed : Option Allocation)
    (other : Address) :
    (store.put address changed).count other =
      if other = address then (changed.map (·.count)).getD 0 else store.count other := by
  rw [count, get?_put found]
  split <;> rfl

theorem handlesFrom_zero {first : Nat} (bound : first ≤ store.slots.size) :
    store.handlesFrom 0 =
      (List.range first).flatMap (fun address => slotHandles (store.get? address)) ++
        store.handlesFrom first := by
  have split : store.slots.size - 0 = first + (store.slots.size - first) := by omega
  rw [handlesFrom_eq, handlesFrom_eq first, split, List.range_add, List.flatMap_append, List.flatMap_map]
  simp only [Nat.zero_add]

namespace Exact

theorem isSome_iff (counts : Exact held store) :
    (store.get? address).isSome ↔ 0 < store.count address := by
  cases found : store.get? address with
  | none => simp [count_of_none found]
  | some allocation => simpa [count_of_get? found] using counts.positive address allocation found

theorem isSome_of_mem (counts : Exact held store) (member : address ∈ held ++ store.handlesFrom 0) :
    (store.get? address).isSome := by
  rw [counts.isSome_iff, counts.counted]
  exact List.count_pos_iff.mpr member

theorem live {value : Value} (counts : Exact held store)
    (isHeld : ∀ address ∈ value.addresses, address ∈ held) : store.Live value :=
  fun address member => counts.isSome_of_mem (List.mem_append_left _ (isHeld address member))

theorem sound (counts : Exact held store) : store.Sound where
  closed address other points := by
    obtain ⟨contents, found, inside⟩ := points
    obtain ⟨allocation, holds, rfl⟩ := contents?_eq_some_iff.mp found
    apply counts.isSome_of_mem
    apply List.mem_append_right
    exact mem_handlesFrom.mpr ⟨address, allocation, Nat.zero_le _, holds, inside⟩
  counted := counts.positive

theorem of_count_eq (counts : Exact held store) (same : ∀ address, fewer.count address = held.count address) :
    Exact fewer store where
  counted address := by
    rw [counts.counted, List.count_append, List.count_append, same]
  positive := counts.positive

theorem of_perm (counts : Exact held store) (same : held.Perm fewer) : Exact fewer store :=
  counts.of_count_eq fun address => (same.count_eq address).symm

theorem allocate (counts : Exact (Value.addressesOfAll contents ++ held) store) :
    Exact (store.slots.size :: held) (Store.allocate contents store).2 := by
  have dead : store.get? store.slots.size = none := get?_eq_none_of_size_le (Nat.le_refl _)
  constructor
  · intro other
    have before := counts.counted other
    rw [handlesFrom_allocate (Nat.zero_le _), count, get?_allocate]
    simp only [List.cons_append, List.count_cons, List.count_append, beq_iff_eq] at before ⊢
    by_cases isNew : other = store.slots.size
    · subst isNew
      rw [count_of_none dead] at before
      rw [if_pos rfl, if_pos rfl]
      simp only [Option.map_some, Option.getD_some]
      omega
    · rw [if_neg (Ne.symm isNew), if_neg isNew, ← count]
      omega
  · intro other allocation found
    rw [get?_allocate] at found
    split at found
    · cases found
      exact Nat.one_pos
    · exact counts.positive other allocation found

theorem put (counts : Exact held store) (found : store.get? address = some allocation)
    (changed : Allocation) (positive : 0 < changed.count)
    (exchanged : ∀ other, fewer.count other + (Value.addressesOfAll changed.contents).count other +
      (if other = address then allocation.count else 0) =
        held.count other + (Value.addressesOfAll allocation.contents).count other +
          if other = address then changed.count else 0) :
    Exact fewer (store.put address (some changed)) := by
  constructor
  · intro other
    have before := counts.counted other
    have moved := count_handlesFrom_put (Nat.zero_le address) found (some changed) other
    have given := exchanged other
    rw [count_put found]
    simp only [List.count_append, slotHandles] at before moved ⊢
    by_cases isAddress : other = address
    · subst isAddress
      simp only [if_true] at given ⊢
      rw [count_of_get? found] at before
      simp only [Option.map_some, Option.getD_some]
      omega
    · simp only [if_neg isAddress] at given ⊢
      omega
  · intro other other' here
    rw [get?_put found] at here
    split at here
    · cases here
      exact positive
    · exact counts.positive other other' here

theorem retain (counts : Exact held store) (live : (store.get? address).isSome) :
    Exact (address :: held) (store.retain address) := by
  obtain ⟨allocation, found⟩ := Option.isSome_iff_exists.mp live
  rw [retain_of_get? found]
  apply counts.put found _ (Nat.succ_pos _)
  intro other
  simp only [List.count_cons, beq_iff_eq]
  split <;> split <;> first | omega | simp_all

theorem setContents (counts : Exact held store) (found : store.contents? address = some contents)
    (exchanged : ∀ other, fewer.count other + (Value.addressesOfAll changed).count other =
      held.count other + (Value.addressesOfAll contents).count other) :
    Exact fewer (store.setContents address changed) := by
  obtain ⟨allocation, holds, rfl⟩ := contents?_eq_some_iff.mp found
  rw [setContents_of_get? holds]
  refine counts.put holds _ (counts.positive address allocation holds) fun other => ?_
  have given := exchanged other
  dsimp only
  split <;> omega

theorem free (counts : Exact (address :: held) store) (found : store.get? address = some allocation)
    (last : allocation.count ≤ 1) :
    Exact (Value.addressesOfAll allocation.contents ++ held) (store.put address none) := by
  constructor
  · intro other
    have before := counts.counted other
    have moved := count_handlesFrom_put (Nat.zero_le address) found none other
    rw [count_put found]
    simp only [List.cons_append, List.count_cons, List.count_append, slotHandles, List.count_nil,
      beq_iff_eq] at before moved ⊢
    by_cases isAddress : other = address
    · subst isAddress
      rw [if_pos rfl, count_of_get? found] at before
      simp only [if_true, Option.map_none, Option.getD_none]
      omega
    · rw [if_neg (Ne.symm isAddress)] at before
      rw [if_neg isAddress]
      omega
  · intro other changed here
    rw [get?_put found] at here
    split at here
    · cases here
    · exact counts.positive other changed here

theorem release (counts : Exact (addresses ++ held) store) : Exact held (store.release addresses) := by
  fun_induction Store.release addresses store with
  | case1 store => exact counts
  | case2 address rest store dead ih =>
      have live : (store.get? address).isSome := counts.isSome_of_mem (by simp)
      simp [dead] at live
  | case3 address rest store allocation found last ih =>
      apply ih
      rw [List.append_assoc]
      exact counts.free found last
  | case4 address rest store allocation found more ih =>
      apply ih
      apply counts.put found _ (Nat.sub_pos_of_lt (Nat.lt_of_not_le more))
      intro other
      simp only [List.cons_append, List.count_cons, beq_iff_eq]
      split <;> split <;> first | omega | simp_all

/-- What grew from a store that counts all handles counts the new ones as well. -/
theorem growth (counts : Exact held store) (growth : Growth store more later) :
    Exact (more ++ held) later := by
  have former : (List.range store.slots.size).flatMap (fun address => slotHandles (later.get? address)) =
      store.handlesFrom 0 := by
    rw [handlesFrom_zero (Nat.le_refl _), handlesFrom_size, List.append_nil]
    apply List.flatMap_congr
    intro address member
    rw [growth.former address (List.mem_range.mp member)]
    cases store.get? address <;> rfl
  constructor
  · intro address
    have before := counts.counted address
    rw [handlesFrom_zero growth.size_le, former]
    simp only [List.count_append] at before ⊢
    -- What was there before is counted once more for each new handle to it, and what is new has no other handles.
    by_cases bound : address < store.slots.size
    · have now := growth.former address bound
      cases found : store.get? address with
      | none =>
          have unheld : (more ++ later.handlesFrom store.slots.size).count address = 0 := by
            rw [List.count_eq_zero]
            intro member
            have live := growth.live address member bound
            simp [found] at live
          rw [found, Option.map_none] at now
          rw [count_of_none found] at before
          rw [count_of_none now]
          rw [List.count_append] at unheld
          omega
      | some allocation =>
          rw [found, Option.map_some] at now
          rw [count_of_get? found] at before
          rw [count_of_get? now]
          simp only [List.count_append]
          omega
    · have beyond := Nat.le_of_not_lt bound
      rw [count_of_none (get?_eq_none_of_size_le beyond)] at before
      rw [growth.fresh address beyond, List.count_append]
      omega
  · exact (growth.sound counts.sound).counted

theorem backed (counts : Exact (held ++ more) store) : Backed held store where
  counted address := by
    simp only [counts.counted, List.count_append]
    omega
  positive := counts.positive

end Exact

namespace Backed

/-- What is counted too much counts handles that are lost. -/
theorem exists_exact (backed : Backed held store) : ∃ lost, Exact (held ++ lost) store := by
  let surplus (address : Address) : Nat :=
    store.count address - (held ++ store.handlesFrom 0).count address
  let lost := (List.range store.slots.size).flatMap fun address => List.replicate (surplus address) address
  refine ⟨lost, ?_, backed.positive⟩
  intro address
  have least := backed.counted address
  have times := List.count_flatMap_replicate surplus store.slots.size address
  simp only [List.count_append] at least ⊢
  rw [times]
  dsimp only [surplus]
  rw [List.count_append]
  by_cases bound : address < store.slots.size
  · rw [if_pos bound]
    omega
  · have dead := count_of_none (get?_eq_none_of_size_le (Nat.le_of_not_lt bound))
    rw [if_neg bound]
    omega

theorem sound (backed : Backed held store) : store.Sound := by
  obtain ⟨lost, counts⟩ := backed.exists_exact
  exact counts.sound

theorem live {value : Value} (backed : Backed held store)
    (isHeld : ∀ address ∈ value.addresses, address ∈ held) : store.Live value := by
  obtain ⟨lost, counts⟩ := backed.exists_exact
  exact counts.live fun address member => List.mem_append_left _ (isHeld address member)

end Backed

end Store

end Replica
