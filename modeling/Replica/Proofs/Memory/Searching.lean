import Replica.Proofs.Memory.Rebuilding
import Replica.Proofs.Memory.Tidiness

/-!
What is found in copies. Keys compare as their originals do, so that a set or a map without an order has all its
entries in the copy, and a queue yields the copies in the order in which it yields the originals.
-/

namespace Replica

namespace Keyed

variable {α : Type} {key other : α → Key} {parts copies : List α} {part : α}

theorem find?_of_distinct (distinct : Key.Distinct (parts.map key)) (member : part ∈ parts) :
    parts.find? (hasKey key (key part)) = some part := by
  induction parts with
  | nil => cases member
  | cons first rest ih =>
      obtain ⟨apart, distinctRest⟩ := List.pairwise_cons.mp distinct
      rcases List.mem_cons.mp member with rfl | further
      · exact List.find?_cons_of_pos (hasKey_iff.mpr Std.ReflCmp.compare_self)
      · have different : ¬ hasKey key (key part) first := by
          rw [hasKey_iff]
          exact apart (key part) (List.mem_map_of_mem further)
        rw [List.find?_cons_of_neg different]
        exact ih distinctRest further

theorem find?_of_key {place : Nat} (keys : copies.map other = parts.map key) (distinct : Key.Distinct (copies.map other))
    (found : parts[place]? = some part) : copies.find? (hasKey other (key part)) = copies[place]? := by
  have there := congrArg (·[place]?) keys
  simp only [List.getElem?_map, found, Option.map_some, Option.map_eq_some_iff] at there
  obtain ⟨copy, copyFound, same⟩ := there
  rw [copyFound, ← same]
  exact find?_of_distinct distinct (List.mem_of_getElem? copyFound)

theorem key_eq_of_mem_zip {pair : α × α} (keys : copies.map other = parts.map key) (member : pair ∈ parts.zip copies) :
    key pair.1 = other pair.2 := by
  obtain ⟨place, inside, rfl⟩ := List.mem_iff_getElem.mp member
  rw [List.length_zip] at inside
  have there := congrArg (·[place]?) keys
  simp only [List.getElem?_map, List.getElem?_eq_getElem (show place < copies.length by omega),
    List.getElem?_eq_getElem (show place < parts.length by omega), Option.map_some, Option.some.injEq] at there
  simpa using there.symm

end Keyed

namespace Store

/-- The parts of a queue in the order in which it yields them. -/
def drained (store : Store) (parts : List Value) : List Value :=
  (PriorityQueue.drain (store.keyed parts).toArray).map (·.2)

variable {store later : Store} {parts copies : List Value}

theorem drained_descending
    (queued : Form.priorityQueue.Queued (parts.map store.partKey)) :
    (store.drained parts).Pairwise fun earlier next => (store.partKey next).le (store.partKey earlier) := by
  have labelled := (Keyed.labelled_label store.partKey parts).of_perm
    (PriorityQueue.drain_perm (Keyed.label store.partKey parts).toArray)
  have descending := PriorityQueue.drain_descending ((Form.queued_iff _ _).mp queued)
  refine List.pairwise_map.mpr (List.Pairwise.imp_of_mem ?_ descending)
  intro earlier next earlierIn nextIn atMost
  rwa [labelled earlier earlierIn, labelled next nextIn] at atMost

/-- Queues with the same keys yield what stands at the same places. -/
theorem exists_order (keys : copies.map later.partKey = parts.map store.partKey) :
    ∃ order : List (Value × Value), order.Perm (parts.zip copies) ∧ order.map (·.1) = store.drained parts ∧
      order.map (·.2) = later.drained copies := by
  have lengths : copies.length = parts.length := by simpa using congrArg List.length keys
  let pairs := Keyed.label (fun pair : Value × Value => store.partKey pair.1) (parts.zip copies)
  have firsts : (pairs.toArray.map (Prod.map id (·.1))) = (store.keyed parts).toArray := by
    have zipped : (parts.zip copies).map (·.1) = parts := List.map_fst_zip (Nat.le_of_eq lengths.symm)
    conv_rhs => rw [← zipped]
    simp [pairs, Keyed.label, keyed]
  have seconds : (pairs.toArray.map (Prod.map id (·.2))) = (later.keyed copies).toArray := by
    have zipped : (parts.zip copies).map (·.2) = copies := List.map_snd_zip (Nat.le_of_eq lengths)
    conv_rhs => rw [← zipped]
    have sameKey : ∀ pair ∈ parts.zip copies, store.partKey pair.1 = later.partKey pair.2 := fun pair =>
      Keyed.key_eq_of_mem_zip keys
    simpa [pairs, Keyed.label, keyed] using sameKey
  refine ⟨(PriorityQueue.drain pairs.toArray).map (·.2), ?_, ?_, ?_⟩
  · have yielded := (PriorityQueue.drain_perm pairs.toArray).map (·.2)
    rwa [Keyed.map_snd_label] at yielded
  · rw [drained, ← firsts, PriorityQueue.drain_map, List.map_map, List.map_map]
    rfl
  · rw [drained, ← seconds, PriorityQueue.drain_map, List.map_map, List.map_map]
    rfl

end Store

namespace Value

open Store Keyed

variable {old store later : Store} {held : List Address} {depth : Nat} {values copies parts : List Value}
  {form : Form} {copy : Value}

/-- The copy of a set holds as much as the set, and finds the copy of each part by the key of its original. -/
structure FoundAlike (old later : Store) (parts copies : List Value) : Prop where
  length_eq : copies.length = parts.length
  find : ∀ (place : Nat) (part : Value), parts[place]? = some part →
    copies.find? (hasKey later.partKey (old.partKey part)) = copies[place]?

/-- The copy of a map holds as much as the map. For each entry the key is copied behind the entries in front of it,
and then the value, and the copy of the key leads to the copy of the value. -/
structure MappedAlike (old later : Store) (parts copies : List Value) : Prop where
  length_eq : copies.length = parts.length
  find : ∀ (place : Nat) (part : Value), parts[place]? = some part →
    ∃ key value keyCopy valueCopy before between after, part = .node .entry [key, value] ∧
      InTurn Value.copy old (parts.take place) (copies.take place) before ∧
      key.copy.run before = (.ok keyCopy, between) ∧ value.copy.run between = (.ok valueCopy, after) ∧
      InTurn Value.copy after (parts.drop (place + 1)) (copies.drop (place + 1)) later ∧
      later.key keyCopy = old.key key ∧
      copies.find? (hasKey later.partKey (later.key keyCopy)) = some (.node .entry [keyCopy, valueCopy])

/-- The copy of a queue yields the copies in the order in which the queue yields their originals, from the greatest to
the least. -/
structure YieldedAlike (old later : Store) (parts copies : List Value) : Prop where
  order : ∃ order : List (Value × Value), order.Perm (parts.zip copies) ∧ order.map (·.1) = old.drained parts ∧
    order.map (·.2) = later.drained copies
  descending : (old.drained parts).Pairwise fun earlier next => (old.partKey next).le (old.partKey earlier)
  keys_eq : (later.drained copies).map later.partKey = (old.drained parts).map old.partKey

/-- Of copies that are made one after another, each is made where those in front of it have been. -/
theorem InTurn.exists_at {copying : Value → Copying Value} {place : Nat} {value : Value}
    (made : InTurn copying store values copies later) (found : values[place]? = some value) :
    ∃ copy before after, copies[place]? = some copy ∧
      InTurn copying store (values.take place) (copies.take place) before ∧
      (copying value).run before = (.ok copy, after) ∧
      InTurn copying after (values.drop (place + 1)) (copies.drop (place + 1)) later := by
  induction made generalizing place with
  | nil => cases found
  | @cons store middle later first copy values copies copied rest ih =>
      cases place with
      | zero =>
          cases found
          exact ⟨copy, store, middle, rfl, .nil, copied, rest⟩
      | succ place =>
          obtain ⟨other, before, after, here, front, otherMade, back⟩ := ih found
          exact ⟨other, before, after, here, .cons copied front, otherMade, back⟩

section Sound

variable (sound : old.Sound)
include sound

/-- The copies of two keys compare as the keys do, and both are made. -/
theorem exists_copies_of_keys {first second : Value} (firstLive : old.Live first) (secondLive : old.Live second)
    (firstKey : old.KeyLike first) (secondKey : old.KeyLike second) :
    ∃ one middle two later, first.copy.run old = (.ok one, middle) ∧ second.copy.run middle = (.ok two, later) ∧
      (later.key one).compare (later.key two) = (old.key first).compare (old.key second) := by
  obtain ⟨one, middle, made⟩ := exists_copy_of_ends sound firstKey.ends firstLive
  have grown := copyTo_grown sound firstLive (.refl old _) made
  obtain ⟨two, later, madeTo⟩ :=
    exists_copyTo_of_ends sound secondKey.ends (Nat.le_refl _) secondLive grown.offshoot.growth
  have grownFurther := copyTo_grown sound secondLive grown.offshoot madeTo
  have deeper : old.depth ≤ middle.depth := Nat.succ_le_succ grown.follows.size_le
  refine ⟨one, middle, two, later, made, copyTo_extends deeper second middle _ _ madeTo (by simp), ?_⟩
  have wasLive : middle.Live one := grown.offshoot.growth.live_of_held (by simp +contextual)
  have isLive : later.Live one := grownFurther.offshoot.growth.live_of_held (by simp +contextual)
  have stays : later.key one = middle.key one :=
    key_eq_of_follows sound grown.offshoot grownFurther.offshoot grownFurther.follows grown.isNew wasLive isLive true
      (Nat.le_succ _) (Nat.le_succ_of_le grownFurther.follows.size_le)
  rw [stays, (key_copyTo sound (Nat.le_refl _) firstLive (.refl old _) made).1,
    (key_copyTo sound (Nat.le_refl _) secondLive grown.offshoot madeTo).1]

theorem exists_copy_of_entry {key value : Value} (live : old.Live (.node .entry [key, value]))
    (enough : depth ≤ store.depth) (offshoot : Offshoot old (fun _ => True) held store)
    (made : copyTo depth (.node .entry [key, value]) store = (.ok copy, later)) :
    ∃ keyCopy valueCopy between, copy = .node .entry [keyCopy, valueCopy] ∧
      key.copy.run store = (.ok keyCopy, between) ∧ value.copy.run between = (.ok valueCopy, later) := by
  have liveParts : ∀ part ∈ [key, value], old.Live part := live_of_part live
  obtain ⟨_, copies, middle, inTurn, assembled⟩ := (copyTo_node_eq_ok_iff (by simp [Tree.Owning])).mp made
  have copied := inTurn.of_copyTo sound enough liveParts offshoot
  cases copied with
  | cons keyMade rest =>
      cases rest with
      | cons valueMade nothing =>
          cases nothing
          have stays : middle.release (addressesOfAll []) = middle := release_nil middle
          simp only [Store.assemble, Store.gather, Form.copied, Form.gather, stays, Prod.mk.injEq] at assembled
          obtain ⟨rfl, rfl⟩ := assembled
          exact ⟨_, _, _, rfl, keyMade, valueMade⟩

/-- Collections that are found in by fixed keys lose nothing: the copy holds the copies of all parts in their
places, each of them found by the key of its original. -/
theorem copies_of_tidy (hidden : form.HidesOrder) (live : old.Live (.node form parts))
    (tidy : Tidy old.fixed form parts) (made : (node form parts).copy.run old = (.ok copy, later)) :
    ∃ copies, copy = .node form copies ∧ InTurn (copyTo old.depth) old parts copies later ∧
      copies.map later.partKey = parts.map old.partKey := by
  have liveParts : ∀ part ∈ parts, old.Live part := live_of_part live
  have owning : Tree.Owning form := by
    rcases hidden with rfl | rfl | rfl <;> simp [Tree.Owning]
  have same : form.copied = form := by
    rcases hidden with rfl | rfl | rfl <;> rfl
  obtain ⟨_, copies, middle, inTurn, assembled⟩ := (copyTo_node_eq_ok_iff owning).mp made
  have keys := inTurn.partKeys_eq sound (Nat.le_refl _) liveParts (.refl old _)
  have whole : middle.gather form copies = ⟨copies, []⟩ :=
    Form.gather_of_tidy hidden (keys ▸ tidy.hashed_partKeys) (keys ▸ tidy.queued_partKeys)
  have stays : middle.release (addressesOfAll []) = middle := release_nil middle
  rw [same, Store.assemble, whole, stays, Prod.mk.injEq] at assembled
  obtain ⟨rfl, rfl⟩ := assembled
  exact ⟨copies, rfl, inTurn, keys⟩

/-- What a set or a queue finds by its key is a key, and so there is a copy of the whole. -/
theorem exists_copy_of_tidy (plain : form = .hashSet ∨ form = .priorityQueue) (live : old.Live (.node form parts))
    (tidy : Tidy old.fixed form parts) : ∃ copy later, (node form parts).copy.run old = (.ok copy, later) := by
  apply exists_copy_of_ends sound _ live
  apply ends_node
  · rcases plain with rfl | rfl <;> simp
  · intro part member
    have fits := tidy.fits part member
    apply KeyLike.ends
    rcases plain with rfl | rfl <;> exact keyLike_of_fixedKey fits

theorem copy_of_hashSet (live : old.Live (.node .hashSet parts)) (tidy : Tidy old.fixed .hashSet parts) :
    ∃ copies later, (node .hashSet parts).copy.run old = (.ok (.node .hashSet copies), later) ∧
      InTurn Value.copy old parts copies later ∧ FoundAlike old later parts copies := by
  have liveParts : ∀ part ∈ parts, old.Live part := live_of_part live
  obtain ⟨copy, later, made⟩ := exists_copy_of_tidy sound (.inl rfl) live tidy
  obtain ⟨copies, rfl, inTurn, keys⟩ := copies_of_tidy sound (.inl rfl) live tidy made
  have distinct : Key.Distinct (copies.map later.partKey) := by
    rw [keys]
    exact tidy.hashed_partKeys
  refine ⟨copies, later, made, inTurn.of_copyTo sound (Nat.le_refl _) liveParts (.refl old _), inTurn.length_eq, ?_⟩
  intro place part found
  exact find?_of_key keys distinct found

theorem copy_of_hashMap (live : old.Live (.node .hashMap parts)) (tidy : Tidy old.fixed .hashMap parts)
    (made : (node .hashMap parts).copy.run old = (.ok copy, later)) :
    ∃ copies, copy = .node .hashMap copies ∧ MappedAlike old later parts copies := by
  have liveParts : ∀ part ∈ parts, old.Live part := live_of_part live
  obtain ⟨copies, rfl, inTurn, keys⟩ := copies_of_tidy sound (.inr (.inl rfl)) live tidy made
  have distinct : Key.Distinct (copies.map later.partKey) := by
    rw [keys]
    exact tidy.hashed_partKeys
  refine ⟨copies, rfl, inTurn.length_eq, fun place part found => ?_⟩
  have member := List.mem_of_getElem? found
  obtain ⟨key, value, rfl, _⟩ := tidy.fits part member
  -- The copy of the entry splits the run: what was copied in front of it, and what behind.
  obtain ⟨entryCopy, before, after, copyFound, front, entryMade, back⟩ := inTurn.exists_at found
  have liveFront : ∀ part ∈ parts.take place, old.Live part := fun part inside =>
    liveParts part (List.mem_of_mem_take inside)
  have liveBack : ∀ part ∈ parts.drop (place + 1), old.Live part := fun part inside =>
    liveParts part (List.mem_of_mem_drop inside)
  obtain ⟨offshoot, _, follows⟩ := front.grown sound liveFront (.refl old _)
  have grown := copyTo_grown sound (liveParts _ member) offshoot entryMade
  have enough : old.depth ≤ before.depth := Nat.succ_le_succ follows.size_le
  obtain ⟨keyCopy, valueCopy, between, rfl, keyMade, valueMade⟩ :=
    exists_copy_of_entry sound (liveParts _ member) enough offshoot entryMade
  have sameKey : later.key keyCopy = old.key key := by
    have there := congrArg (·[place]?) keys
    simpa [found, copyFound, Store.partKey] using there
  refine ⟨key, value, keyCopy, valueCopy, before, between, after, rfl, ?_, keyMade, valueMade, ?_, sameKey, ?_⟩
  · exact front.of_copyTo sound (Nat.le_refl _) liveFront (.refl old _)
  · exact back.of_copyTo sound (Nat.le_trans enough (Nat.succ_le_succ grown.follows.size_le)) liveBack grown.offshoot
  · rw [sameKey]
    exact (find?_of_key keys distinct found).trans copyFound

theorem copy_of_queue (live : old.Live (.node .priorityQueue parts)) (tidy : Tidy old.fixed .priorityQueue parts) :
    ∃ copies later, (node .priorityQueue parts).copy.run old = (.ok (.node .priorityQueue copies), later) ∧
      InTurn Value.copy old parts copies later ∧ YieldedAlike old later parts copies := by
  have liveParts : ∀ part ∈ parts, old.Live part := live_of_part live
  obtain ⟨copy, later, made⟩ := exists_copy_of_tidy sound (.inr rfl) live tidy
  obtain ⟨copies, rfl, inTurn, keys⟩ := copies_of_tidy sound (.inr (.inr rfl)) live tidy made
  obtain ⟨order, inPairs, firsts, seconds⟩ := exists_order keys
  have queued : Form.priorityQueue.Queued (parts.map old.partKey) := tidy.queued_partKeys
  refine ⟨copies, later, made, inTurn.of_copyTo sound (Nat.le_refl _) liveParts (.refl old _),
    ⟨order, inPairs, firsts, seconds⟩, drained_descending queued, ?_⟩
  rw [← firsts, ← seconds, List.map_map, List.map_map]
  apply List.map_congr_left
  intro pair member
  exact (key_eq_of_mem_zip keys (inPairs.subset member)).symm

end Sound

end Value

end Replica
