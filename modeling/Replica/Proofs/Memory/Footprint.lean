import Replica.Proofs.Memory.Likeness
import Mathlib.Data.Set.Card

/-!
The new allocations that handles lead to. Each is met once on the way through all that is held, so that
nothing new is shared, and a copy of what was copied has the same shape.
-/

namespace Replica

namespace Store

variable {old store later : Store} {held : List Address} {address : Address}

/-- All that is met behind a handle, the allocation that it leads to first. -/
def reached (store : Store) (address : Address) : List Address :=
  address :: (store.unfoldAddress store.depth address).flatMap Tree.identities

theorem identities_unfold (store : Store) (value : Value) :
    (store.unfold value).identities = value.addresses.flatMap store.reached := by
  exact Value.identities_unfoldWith _ value

theorem Acyclic.reached_eq (acyclic : store.Acyclic) {contents : List Value}
    (found : store.contents? address = some contents) :
    store.reached address = address :: (Value.addressesOfAll contents).flatMap store.reached := by
  rw [reached, acyclic.unfoldAddress_depth, found, Option.getD_some, List.flatMap_map,
    Value.addressesOfAll_eq_flatMap, List.flatMap_assoc]
  simp only [identities_unfold]

theorem mem_reached_self (store : Store) (address : Address) : address ∈ store.reached address :=
  List.mem_cons_self

/-- What is met holds no handle to anything that is not met as well. -/
theorem Acyclic.mem_reached_of_pointsTo (acyclic : store.Acyclic) {first other : Address}
    (member : address ∈ store.reached first) (points : store.PointsTo address other) :
    other ∈ store.reached first := by
  obtain ⟨rank, _, falls⟩ := acyclic.exists_rank
  generalize height : rank first = level
  induction level using Nat.strongRecOn generalizing first with
  | ind level ih =>
      cases found : store.contents? first with
      | none =>
          rw [reached, acyclic.unfoldAddress_depth, found] at member
          obtain rfl : address = first := by simpa using member
          obtain ⟨contents, held, _⟩ := points
          rw [found] at held
          cases held
      | some contents =>
          rw [acyclic.reached_eq found] at member ⊢
          apply List.mem_cons_of_mem
          rw [List.mem_flatMap]
          rcases List.mem_cons.mp member with rfl | further
          · obtain ⟨held, here, inside⟩ := points
            obtain rfl : contents = held := Option.some.inj (found.symm.trans here)
            exact ⟨other, inside, store.mem_reached_self other⟩
          · obtain ⟨next, inside, there⟩ := List.mem_flatMap.mp further
            have lower := falls first next ⟨contents, found, inside⟩
            exact ⟨next, inside, ih (rank next) (height ▸ lower) there rfl⟩

theorem Acyclic.mem_identities_of_pointsTo (acyclic : store.Acyclic) {value : Value} {other : Address}
    (member : address ∈ (store.unfold value).identities) (points : store.PointsTo address other) :
    other ∈ (store.unfold value).identities := by
  rw [identities_unfold, List.mem_flatMap] at member ⊢
  obtain ⟨first, held, there⟩ := member
  exact ⟨first, held, acyclic.mem_reached_of_pointsTo there points⟩

theorem mem_identities_of_mem_addresses {value : Value} (held : address ∈ value.addresses) :
    address ∈ (store.unfold value).identities := by
  rw [identities_unfold, List.mem_flatMap]
  exact ⟨address, held, store.mem_reached_self address⟩

theorem Follows.reached_eq (follows : later.Follows store) (acyclic : store.Acyclic)
    (closed : ∀ address other, later.PointsTo address other → (later.get? other).isSome)
    (bounded : ∀ address other, store.PointsTo address other → other < store.slots.size)
    (bound : address < store.slots.size) (live : (later.get? address).isSome) :
    later.reached address = store.reached address := by
  have enough : store.depth ≤ later.depth := Nat.succ_le_succ follows.size_le
  rw [reached, reached, follows.unfoldAddress_eq closed bounded later.depth bound live,
    acyclic.unfoldAddress_eq enough]

theorem Growth.count_reached_former (growth : Growth old held store) (sound : old.Sound)
    (acyclic : old.Acyclic) {first : Address} (live : (old.get? first).isSome)
    (beyond : old.slots.size ≤ address) : (store.reached first).count address = 0 := by
  have liveNow : (store.get? first).isSome := by
    rw [growth.former first (lt_size_of_isSome live), Option.isSome_map]
    exact live
  rw [growth.follows.reached_eq acyclic (growth.closed sound) ((refl old).bounded sound)
    (lt_size_of_isSome live) liveNow, List.count_eq_zero]
  intro member
  rcases List.mem_cons.mp member with rfl | further
  · exact Nat.not_lt.mpr beyond (lt_size_of_isSome live)
  · have inside := sound.isSome_of_mem_identities old.depth first live address further
    exact Nat.not_lt.mpr beyond (lt_size_of_isSome inside)

/-- What is held is met on the same ways as before if it is still there. -/
theorem Growth.flatMap_reached_eq {before : List Address} (growth : Growth old before store)
    (sound : old.Sound) (acyclic : old.Acyclic) (laterGrowth : Growth old held later)
    (follows : later.Follows store) (sameSize : later.slots.size = store.slots.size) :
    held.flatMap later.reached = held.flatMap store.reached := by
  apply List.flatMap_congr
  intro address member
  have live := laterGrowth.isSome_of_mem (List.mem_append_left _ member)
  exact follows.reached_eq (growth.acyclic sound acyclic) (laterGrowth.closed sound)
    (growth.bounded sound) (sameSize ▸ lt_size_of_isSome live) live

theorem Growth.count_reached (growth : Growth old held store) (sound : old.Sound)
    (acyclic : old.Acyclic) (beyond : old.slots.size ≤ address) :
    (held.flatMap store.reached).count address = store.count address := by
  -- Along the release of all that is held, behind which nothing new is left to be met or counted.
  fun_induction Store.release held store with
  | case1 store => rw [List.flatMap_nil, List.count_nil, count_of_none (growth.get?_eq_none beyond)]
  | case2 first rest store dead ih =>
      have live : (store.get? first).isSome := growth.isSome_of_mem (by simp)
      simp [dead] at live
  | case3 first rest store allocation found last ih =>
      have isNew := growth.size_le_of_count_le_one sound found last
      have freed := growth.free isNew found
      have counted := ih freed
      have contents : store.contents? first = some allocation.contents := by simp [contents?, found]
      rw [growth.flatMap_reached_eq sound acyclic freed (follows_put found none (by simp)) (by simp)]
        at counted
      rw [List.flatMap_cons, (growth.acyclic sound acyclic).reached_eq contents, List.cons_append,
        ← List.flatMap_append, List.count_cons, counted, count, count, get?_put found]
      by_cases isFirst : address = first
      · simp [isFirst, found, growth.single first allocation isNew found]
      · simp [isFirst, Ne.symm isFirst]
  | case4 first rest store allocation found more ih =>
      have released := growth.release_former found more
      have counted := ih released
      have bound : first < old.slots.size := by
        apply Nat.lt_of_not_le
        intro isNew
        exact more (Nat.le_of_eq (growth.single first allocation isNew found))
      have live := growth.live first (by simp) bound
      have isOther : address ≠ first := Nat.ne_of_gt (Nat.lt_of_lt_of_le bound beyond)
      rw [growth.flatMap_reached_eq sound acyclic released (follows_put found _ (by simp)) (by simp)]
        at counted
      rw [List.flatMap_cons, List.count_append, growth.count_reached_former sound acyclic live beyond,
        Nat.zero_add, counted, count, count, get?_put found, if_neg isOther]

/-- The allocations that are there later, and were not before. -/
def newIn (old later : Store) : Set Address :=
  {address | old.get? address = none ∧ (later.get? address).isSome}

theorem Growth.mem_newIn_iff (growth : Growth old held later) :
    address ∈ old.newIn later ↔ old.slots.size ≤ address ∧ (later.get? address).isSome := by
  constructor
  · rintro ⟨absent, present⟩
    refine ⟨Nat.le_of_not_lt fun bound => ?_, present⟩
    rw [growth.former address bound, absent] at present
    cases present
  · rintro ⟨beyond, present⟩
    exact ⟨get?_eq_none_of_size_le beyond, present⟩

theorem Growth.live_of_addresses {value : Value} (growth : Growth old value.addresses later) :
    later.Live value := by
  intro address member
  exact growth.isSome_of_mem (List.mem_append_left _ member)

section Copies

variable {value copy : Value} (sound : old.Sound) (acyclic : old.Acyclic) (live : old.Live value)
  (made : value.copy.run old = (.ok copy, later))
include sound acyclic live made

theorem size_le_of_mem_copy (owning : (old.unfold value).Everywhere fun form _ => Tree.Owning form)
    (member : address ∈ (later.unfold copy).identities) : old.slots.size ≤ address := by
  obtain ⟨tree, growth⟩ := Value.tree_of_copy_ok sound acyclic live made
  apply Nat.le_of_not_lt
  intro bound
  have seen : old.former? address ∈ (old.view later copy).identities := by
    rw [view, Tree.identities_map]
    exact List.mem_map_of_mem member
  have unknown := Tree.eq_none_of_mem_identities_copy owning tree seen
  simp [former?, bound] at unknown

theorem nodup_identities_copy (owning : (old.unfold value).Everywhere fun form _ => Tree.Owning form) :
    (later.unfold copy).identities.Nodup := by
  obtain ⟨tree, growth⟩ := Value.tree_of_copy_ok sound acyclic live made
  rw [List.nodup_iff_count_le_one]
  intro address
  by_cases beyond : old.slots.size ≤ address
  · rw [identities_unfold, growth.count_reached sound acyclic beyond]
    cases found : later.get? address with
    | none => simp [count_of_none found]
    | some allocation => rw [count_of_get? found, growth.single address allocation beyond found]
  · have absent : address ∉ (later.unfold copy).identities := fun member =>
      beyond (size_le_of_mem_copy sound acyclic live made owning member)
    rw [List.count_eq_zero.mpr absent]
    exact Nat.zero_le 1

/-- All that is new is reached from the copy, and nothing else is. -/
theorem mem_identities_copy_iff
    (owning : (old.unfold value).Everywhere fun form _ => Tree.Owning form) (address : Address) :
    address ∈ (later.unfold copy).identities ↔ address ∈ old.newIn later := by
  obtain ⟨tree, growth⟩ := Value.tree_of_copy_ok sound acyclic live made
  rw [growth.mem_newIn_iff]
  constructor
  · intro member
    exact ⟨size_le_of_mem_copy sound acyclic live made owning member,
      (growth.sound sound).isSome_of_mem_unfold growth.live_of_addresses member⟩
  · rintro ⟨beyond, present⟩
    obtain ⟨allocation, found⟩ := Option.isSome_iff_exists.mp present
    rw [← List.count_pos_iff, identities_unfold, growth.count_reached sound acyclic beyond,
      count_of_get? found, growth.single address allocation beyond found]
    exact Nat.one_pos

end Copies

end Store

namespace Tree

theorem Everywhere.owning {ι : Type} {tree : Tree ι} (orderly : tree.Everywhere Orderly) :
    tree.Everywhere fun form _ => Owning form :=
  orderly.imp fun _ _ orderly => orderly.owning

end Tree

namespace Value

open Store

/-- The copy of a value is a tree: what the value leads to on several ways, the copy has several times,
and each allocation in it is met once. A copy of the copy differs from it in nothing but names. -/
theorem copy_unshares {store later : Store} {value copy : Value} (sound : store.Sound)
    (acyclic : store.Acyclic) (live : store.Live value)
    (orderly : (store.unfold value).Everywhere Tree.Orderly)
    (made : value.copy.run store = (.ok copy, later)) :
    (store.newIn later).ncard = (store.unfold value).identities.length ∧
      (∀ address ∈ store.newIn later, later.count address = 1) ∧
      (∀ address, address ∈ (later.unfold copy).identities ↔ address ∈ store.newIn later) ∧
      (later.unfold copy).identities.Nodup ∧
      ∃ second last rename, copy.copy.run later = (.ok second, last) ∧
        last.unfold second = (later.unfold copy).map rename ∧
        Set.InjOn rename {address | address ∈ (later.unfold copy).identities} := by
  obtain ⟨tree, growth⟩ := tree_of_copy_ok sound acyclic live made
  have distinct := nodup_identities_copy sound acyclic live made orderly.owning
  have reaches := mem_identities_copy_iff sound acyclic live made orderly.owning
  refine ⟨?_, ?_, reaches, distinct, ?_⟩
  · have same : store.newIn later = (later.unfold copy).identities.toFinset := by
      ext address
      simp [← reaches address]
    rw [same, Set.ncard_coe_finset, List.toFinset_card_of_nodup distinct]
    have lengths := Tree.length_identities_copy orderly tree
    rwa [view, Tree.identities_map, List.length_map] at lengths
  · intro address isNew
    obtain ⟨beyond, present⟩ := growth.mem_newIn_iff.mp isNew
    obtain ⟨allocation, found⟩ := Option.isSome_iff_exists.mp present
    rw [count_of_get? found, growth.single address allocation beyond found]
  · have laterSound := growth.sound sound
    have laterAcyclic := growth.acyclic sound acyclic
    have laterLive := growth.live_of_addresses
    -- The copy shares nothing, so it is copied once more to a tree of the same shape.
    have settled := Tree.settled_copy orderly.owning tree
    obtain ⟨again, againMade, sameShape⟩ := Tree.exists_copy_of_settled_map settled
    obtain ⟨second, last, secondMade, _, seen⟩ :=
      copy_of_tree_ok laterSound laterAcyclic laterLive againMade
    have same : (later.unfold copy).forget = (last.unfold second).forget := by
      rw [← sameShape, ← seen, view, Tree.forget_map]
    obtain ⟨rename, renamed⟩ := Tree.exists_map_eq same distinct
    have owning : (later.unfold copy).Everywhere fun form _ => Tree.Owning form :=
      settled.of_map fun _ _ settled => settled.owning
    have secondDistinct := nodup_identities_copy laterSound laterAcyclic laterLive secondMade owning
    rw [← renamed, Tree.identities_map] at secondDistinct
    refine ⟨second, last, rename, secondMade, renamed.symm, ?_⟩
    intro one member other otherMember same
    exact List.inj_on_of_nodup_map secondDistinct member otherMember same

theorem copy_unshares_locked :
    (nested false).Sound ∧ (nested false).Acyclic ∧ (nested false).Live (locked true) ∧
      ((nested false).unfold (locked true)).Everywhere Tree.Orderly ∧
      ∃ copy later, (locked true).copy.run (nested false) = (.ok copy, later) ∧
        ((nested false).newIn later).ncard = 3 ∧
        (∀ address ∈ (nested false).newIn later, later.count address = 1) ∧
        (later.unfold copy).identities.Nodup := by
  have sound := sound_nested false
  have acyclic := acyclic_nested false
  have live := live_locked false true
  have memberwise := Tree.memberwise_locked true
  have orderly := memberwise.imp fun _ _ memberwise => memberwise.orderly
  obtain ⟨tree, made, _⟩ := Tree.exists_alike_copy memberwise
  obtain ⟨copy, later, copied, _⟩ := copy_of_tree_ok sound acyclic live made
  obtain ⟨number, single, _, distinct, _⟩ := copy_unshares sound acyclic live orderly copied
  exact ⟨sound, acyclic, live, orderly, copy, later, copied, number, single, distinct⟩

end Value

end Replica
