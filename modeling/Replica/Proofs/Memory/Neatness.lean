import Replica.Proofs.Memory.Reachable
import Replica.Proofs.Memory.Tidiness

/-!
Stores in which everything is neat, and what building keeps of that. The keys of what is found by them need no cell,
so that they stay the same as long as the values are there.
-/

namespace Replica

open Store

namespace Store

variable {store later : Store} {held fewer : List Value} {value : Value} {contents parts : List Value} {form : Form}
  {address : Address}

/-- Whether a struct may have an allocation as its own cell. -/
def Shelf (store : Store) (address : Address) : Prop :=
  ∃ held content, store.contents? address = some [.node (.refCell held) [content]]

abbrev Neat (store : Store) (value : Value) : Prop :=
  value.Neat store.fixed store.Shelf

/-- Everything in a store is neat, and so are the values that are held. Each allocation counts the handles to it. -/
structure Tended (held : List Value) (store : Store) : Prop where
  exact : Exact (Value.addressesOfAll held) store
  stored : ∀ address contents, store.contents? address = some contents → ∀ content ∈ contents, store.Neat content
  each : ∀ value ∈ held, store.Neat value

/-- A key without cells stays what it is as long as the allocation is there. -/
theorem Follows.fixed_eq (follows : later.Follows store) (sound : store.Sound) (laterSound : later.Sound)
    (wasLive : (store.get? address).isSome) (isLive : (later.get? address).isSome)
    (ordered : (store.fixed address).isOrdered) : later.fixed address = store.fixed address := by
  have same : Key.ofAddress false later store.depth address = store.fixed address :=
    follows.keyOfAddress_eq laterSound.closed
      (fun address other points => lt_size_of_isSome (sound.closed address other points)) false store.depth
      (lt_size_of_isSome wasLive) isLive
  rw [← same] at ordered ⊢
  exact keyOfAddress_of_isOrdered (Nat.succ_le_succ follows.size_le) ordered

theorem Shelf.of_follows (shelf : store.Shelf address) (follows : later.Follows store)
    (isLive : (later.get? address).isSome) : later.Shelf address := by
  obtain ⟨isHeld, content, found⟩ := shelf
  exact ⟨isHeld, content, follows.contents_of_live found isLive⟩

theorem Neat.of_follows (neat : store.Neat value) (follows : later.Follows store) (sound : store.Sound)
    (laterSound : later.Sound) (wasLive : store.Live value) (isLive : later.Live value) : later.Neat value := by
  apply Value.Neat.imp _ _ neat
  · exact fun address member ordered =>
      follows.fixed_eq sound laterSound (wasLive address member) (isLive address member) ordered
  · exact fun address member shelf => Shelf.of_follows shelf follows (isLive address member)

namespace Tended

theorem live (tended : Tended held store) (member : value ∈ held) : store.Live value := by
  apply tended.exact.live
  exact fun address inside => Value.mem_addressesOfAll.mpr ⟨value, member, inside⟩

theorem neat_later (tended : Tended held store) (follows : later.Follows store) (laterSound : later.Sound)
    (member : value ∈ held) (isLive : later.Live value) : later.Neat value :=
  (tended.each value member).of_follows follows tended.exact.sound laterSound (tended.live member) isLive

/-- What follows a tended store is tended if what is new in it is neat. -/
theorem follow (tended : Tended held store) (follows : later.Follows store)
    (exact : Exact (Value.addressesOfAll fewer) later) (given : ∀ value ∈ fewer, value ∈ held ∨ later.Neat value)
    (fresh : ∀ address contents, store.slots.size ≤ address → later.contents? address = some contents →
      ∀ content ∈ contents, later.Neat content) : Tended fewer later where
  exact := exact
  stored address contents found content member := by
    by_cases bound : address < store.slots.size
    · have before := follows.contents address contents bound found
      apply (tended.stored address contents before content member).of_follows follows tended.exact.sound exact.sound
      · exact tended.exact.sound.live_of_contents before member
      · exact exact.sound.live_of_contents found member
    · exact fresh address contents (Nat.le_of_not_lt bound) found content member
  each value member := by
    rcases given value member with former | neat
    · apply tended.neat_later follows exact.sound former
      exact exact.live fun address inside => Value.mem_addressesOfAll.mpr ⟨value, member, inside⟩
    · exact neat

theorem follow_same (tended : Tended held store) (follows : later.Follows store)
    (size_le : later.slots.size ≤ store.slots.size) (exact : Exact (Value.addressesOfAll fewer) later)
    (given : ∀ value ∈ fewer, value ∈ held ∨ later.Neat value) : Tended fewer later := by
  apply tended.follow follows exact given
  intro address contents beyond found
  rw [contents?, get?_eq_none_of_size_le (Nat.le_trans size_le beyond)] at found
  cases found

theorem of_perm (tended : Tended held store) (same : held.Perm fewer) : Tended fewer store where
  exact := by
    refine tended.exact.of_perm ?_
    rw [Value.addressesOfAll_eq_flatMap, Value.addressesOfAll_eq_flatMap]
    exact same.flatMap_right Value.addresses
  stored := tended.stored
  each value member := tended.each value (same.mem_iff.mpr member)

theorem remake (tended : Tended (contents ++ held) store) (neat : store.Neat value)
    (same : (Value.addressesOfAll contents).Perm value.addresses) : Tended (value :: held) store := by
  have exact := tended.exact
  rw [Value.addressesOfAll_append] at exact
  apply tended.follow_same (.refl store) (Nat.le_refl _) (exact.of_perm (same.append_right _))
  exact List.forall_mem_cons.mpr ⟨.inr neat, fun _ member => .inl (List.mem_append_right _ member)⟩

theorem release (tended : Tended (fewer ++ held) store) :
    Tended held (store.release (Value.addressesOfAll fewer)) := by
  have exact := tended.exact
  rw [Value.addressesOfAll_append] at exact
  apply tended.follow_same (follows_release _ store) (Nat.le_of_eq (size_release _ store)) exact.release
  exact fun value member => .inl (List.mem_append_right _ member)

theorem allocate (tended : Tended (contents ++ held) store) (sharing : Sharing) :
    Tended (.handle sharing store.slots.size :: held) (Store.allocate contents store).2 := by
  have exact := tended.exact
  rw [Value.addressesOfAll_append] at exact
  have grown : Exact (Value.addressesOfAll (.handle sharing store.slots.size :: held)) (Store.allocate contents store).2 :=
    exact.allocate
  apply tended.follow (follows_allocate contents store) grown
  · intro value member
    rcases List.mem_cons.mp member with rfl | former
    · exact .inr (.handle sharing _)
    · exact .inl (List.mem_append_right _ former)
  · intro address others beyond found content member
    have bound : address < store.slots.size + 1 := by
      rw [← size_allocate contents store]
      exact lt_size_of_isSome (isSome_of_contents found)
    obtain rfl : address = store.slots.size := by omega
    have here : others = contents := by
      simpa [contents?, get?_allocate] using found.symm
    subst here
    apply tended.neat_later (follows_allocate others store) grown.sound (List.mem_append_left _ member)
    exact grown.sound.live_of_contents found member

end Tended

theorem shelf_allocate (held : Bool) (value : Value) (store : Store) :
    (Store.allocate [.node (.refCell held) [value]] store).2.Shelf store.slots.size :=
  ⟨held, value, by simp [contents?, get?_allocate]⟩

theorem fits_of_admits {part : Value} (composed : form.Composed) (admitted : store.admits form part) :
    Value.Fits store.fixed form part := by
  cases form with
  | hashSet | priorityQueue => exact admitted
  | hashMap => exact absurd rfl composed.ne_hashMap
  | treeMap => exact absurd rfl composed.ne_treeMap
  | _ => exact trivial

/-- A collection is neat if its parts are, and if they stand as their keys in the store ask for. -/
theorem neat_of_good (unshelved : ∀ step, ¬ form.Shelved step)
    (good : ∀ part ∈ parts, store.Neat part ∧ Value.Fits store.fixed form part)
    (hashed : form.Hashed (parts.map store.partKey)) (queued : form.Queued (parts.map store.partKey)) :
    store.Neat (.node form parts) := by
  refine .node ?_ (fun step isShelved => absurd isShelved (unshelved step)) fun part member => (good part member).1
  by_cases hidden : form.HidesOrder
  · have keys := Value.partKeys_eq_of_fits hidden fun part member => (good part member).2
    exact ⟨fun part member => (good part member).2, keys ▸ hashed, keys ▸ queued⟩
  · exact Value.tidy_of_shown hidden fun part member => (good part member).2

theorem neat_gather (unshelved : ∀ step, ¬ form.Shelved step)
    (good : ∀ part ∈ parts, store.Neat part ∧ Value.Fits store.fixed form part) :
    store.Neat (.node form (store.gather form parts).kept) := by
  apply neat_of_good unshelved
  · exact Form.forall_gather (fun _ _ => Value.good_absorb) form good
  · exact (Form.gather_in_order (Value.partKey_absorb store) form parts).2
  · cases form with
    | priorityQueue =>
        have labelled := (Keyed.labelled_label store.partKey parts).of_perm
          (PriorityQueue.arrange_perm (Keyed.label store.partKey parts).toArray).toList
        rw [Form.queued_iff, gather, Form.gather, Keyed.gathered, labelled.label_map_snd, Array.toArray_toList]
        exact PriorityQueue.arrange_arrangedFrom _
    | _ => exact trivial

theorem Tended.assemble_of_neat (tended : Tended (parts ++ held) store)
    (neat : store.Neat (.node form (store.gather form parts).kept)) :
    Tended ((store.assemble form parts).1 :: held) (store.assemble form parts).2 := by
  have exact := tended.exact
  rw [Value.addressesOfAll_append] at exact
  have split := exact.of_perm ((Value.gather_addresses_perm store form parts).symm.append_right _)
  rw [List.append_assoc] at split
  have released : Exact (Value.addressesOfAll ((store.assemble form parts).1 :: held)) (store.assemble form parts).2 :=
    split.release
  have follows := follows_release (Value.addressesOfAll (store.gather form parts).dropped) store
  apply tended.follow_same follows (Nat.le_of_eq (size_release _ store)) released
  refine List.forall_mem_cons.mpr ⟨.inr ?_, fun _ member => .inl (List.mem_append_right _ member)⟩
  apply neat.of_follows follows tended.exact.sound released.sound
  · exact split.live fun address member => List.mem_append_right _ (List.mem_append_left _ member)
  · exact released.live fun address member => List.mem_append_left _ member

theorem Tended.assemble (tended : Tended (parts ++ held) store) (unshelved : ∀ step, ¬ form.Shelved step)
    (fits : ∀ part ∈ parts, Value.Fits store.fixed form part) :
    Tended ((store.assemble form parts).1 :: held) (store.assemble form parts).2 := by
  apply tended.assemble_of_neat
  exact neat_gather unshelved fun part member => ⟨tended.each part (List.mem_append_left _ member), fits part member⟩

theorem neat_library (name : String) (shelf : store.Shelf address) :
    store.Neat (.node (.library name) [.handle .rc address]) := by
  refine .node (Value.tidy_of_shown (by simp [Form.HidesOrder]) (by exact fun _ _ => trivial)) ?_ ?_
  · intro step isShelved
    cases step with
    | zero => exact ⟨address, rfl, shelf⟩
    | succ step => exact isShelved.elim
  · exact List.forall_mem_singleton.mpr (.handle _ _)

theorem neat_strategies {name other : String} {shared owned : Value} {cached : List Value} (counter : UInt32)
    (sharedNeat : store.Neat (.node (.library name) [shared])) (cachedNeat : store.Neat (.node .vector cached))
    (ownedNeat : store.Neat (.node (.library other) [owned])) :
    store.Neat (.node (.strategies counter) [shared, .node .vector cached, owned]) := by
  obtain ⟨sharedAddress, isShared, sharedShelf⟩ :=
    sharedNeat.exists_shelf (show (Form.library name).Shelved 0 from trivial)
  obtain ⟨ownedAddress, isOwned, ownedShelf⟩ :=
    ownedNeat.exists_shelf (show (Form.library other).Shelved 0 from trivial)
  refine .node (Value.tidy_of_shown (by simp [Form.HidesOrder]) (by exact fun _ _ => trivial)) ?_ ?_
  · intro step isShelved
    rcases step with _ | _ | _ | step
    · exact ⟨sharedAddress, isShared, sharedShelf⟩
    · exact isShelved.elim
    · exact ⟨ownedAddress, isOwned, ownedShelf⟩
    · exact isShelved.elim
  · exact List.forall_mem_cons.mpr ⟨sharedNeat.inside shared List.mem_cons_self,
      List.forall_mem_cons.mpr ⟨cachedNeat, ownedNeat.inside⟩⟩

/-- A key that may stand alone in the set of keys may stand with a value in the map. -/
theorem neat_single_entry {key : Value} (map : form = .hashMap ∨ form = .treeMap)
    (keyNeat : store.Neat (.node form.ofKeys [key])) (valueNeat : store.Neat value) :
    store.Neat (.node form [.node .entry [key, value]]) := by
  have entry := Value.neat_entry (keyNeat.inside key List.mem_cons_self) valueNeat
  rcases map with rfl | rfl
  · have fits := keyNeat.tidy.fits key List.mem_cons_self
    exact Value.neat_single (by exact fun _ => not_false) ⟨key, value, rfl, fits⟩ entry
  · exact Value.neat_single (by exact fun _ => not_false) ⟨key, value, rfl⟩ entry

/-- Parts that are held each in a node of its own are held themselves. -/
theorem Tended.of_singles (tended : Tended (parts.map (fun part => .node form [part]) ++ held) store) :
    Tended (parts ++ held) store := by
  refine tended.follow_same (.refl store) (Nat.le_refl _) ?_ ?_
  · have same : Value.addressesOfAll (parts.map fun part => .node form [part]) = Value.addressesOfAll parts := by
      simp [Value.addressesOfAll_eq_flatMap, Value.addresses, List.flatMap_map]
    simpa only [Value.addressesOfAll_append, same] using tended.exact
  · intro value member
    rcases List.mem_append.mp member with isPart | isHeld
    · have single := tended.each _ (List.mem_append_left _ (List.mem_map_of_mem isPart))
      exact .inr (single.inside value List.mem_cons_self)
    · exact .inl (List.mem_append_right _ isHeld)

theorem tended_upkeep (base : List Value) :
    Building.Upkeep (· ∈ Value.addressesOfAll base) fun held store => Tended (held ++ base) store where
  of_perm same tended := tended.of_perm (same.append_right base)
  atom tended := by
    have given : Tended ([] ++ _) _ := tended
    exact given.remake (.atom _) (.refl _)
  static tended := by
    have given : Tended ([] ++ _) _ := tended
    exact given.remake (.static _ _) (.refl _)
  labels tended := by
    refine tended.follow_same ⟨Nat.le_refl _, fun _ _ _ found => found⟩ (Nat.le_refl _) ?_ fun _ member => .inl member
    exact ⟨tended.exact.counted, tended.exact.positive⟩
  childless unshelved tended := by
    have given : Tended ([] ++ _) _ := tended
    exact given.remake (Value.neat_childless unshelved) (.refl _)
  retain := by
    intro sharing address held store isKnown tended
    have live : (store.get? address).isSome := by
      apply tended.exact.isSome_of_mem
      rw [Value.addressesOfAll_append]
      exact List.mem_append_left _ (List.mem_append_right _ isKnown)
    have exact : Exact (Value.addressesOfAll (.handle sharing address :: (held ++ base))) (store.retain address) :=
      tended.exact.retain live
    apply tended.follow_same (follows_retain address store) (Nat.le_of_eq (size_retain address store)) exact
    exact List.forall_mem_cons.mpr ⟨.inr (.handle _ _), fun _ member => .inl member⟩
  share tended := by
    rw [List.append_assoc] at tended
    exact tended.allocate _
  -- The value moves into a cell, the cell into an allocation, and the handle to that into the struct.
  shelve := by
    intro name value held store tended
    have given : Tended ([value] ++ (held ++ base)) store := tended
    have cell : store.Neat (.node (.refCell false) [value]) :=
      Value.neat_single (by exact fun _ => not_false) trivial (tended.each value (by simp))
    have celled : Tended ([.node (.refCell false) [value]] ++ (held ++ base)) store := given.remake cell (.refl _)
    have shelved : Tended ([.handle .rc store.slots.size] ++ (held ++ base)) _ := celled.allocate .rc
    exact shelved.remake (neat_library name (shelf_allocate false value store)) (.refl _)
  strategies := by
    intro counter name other shared cached owned held store tended
    have given : Tended ([.node (.library name) [shared], .node .vector cached, .node (.library other) [owned]] ++
        (held ++ base)) store := tended
    have neat := neat_strategies counter (tended.each (.node (.library name) [shared]) (by simp))
      (tended.each (.node .vector cached) (by simp)) (tended.each (.node (.library other) [owned]) (by simp))
    exact given.remake neat (.of_eq (by simp [Value.addressesOfAll, Value.addresses]))
  single := by
    intro form part held store composed admitted tended
    have given : Tended ([part] ++ (held ++ base)) store := tended
    have neat : store.Neat (.node form [part]) :=
      Value.neat_single composed.unshelved (fits_of_admits composed admitted) (tended.each part (by simp))
    exact given.remake neat (.refl _)
  entry := by
    intro form key value held store map tended
    have given : Tended ([.node form.ofKeys [key], value] ++ (held ++ base)) store := tended
    have neat := neat_single_entry map (tended.each (.node form.ofKeys [key]) (by simp)) (tended.each value (by simp))
    exact given.remake neat (.of_eq (by simp [Value.addressesOfAll, Value.addresses]))
  assemble := by
    intro form parts held store unshelved tended
    rw [List.append_assoc] at tended
    refine tended.of_singles.assemble unshelved fun part member => ?_
    have single := tended.each _ (List.mem_append_left _ (List.mem_map_of_mem member))
    exact single.tidy.fits part List.mem_cons_self

end Store

end Replica
