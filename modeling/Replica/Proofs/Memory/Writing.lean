import Replica.Proofs.Memory.Building
import Replica.Proofs.Memory.Editing
import Replica.Proofs.Memory.Region
import Replica.Proofs.Memory.Stepping

/-!
Writing through variables. Writes that name only variables of one side, and the data of which refers only
to these, leave alone all that the variables of the other side reach.
-/

namespace Replica

open Store

namespace Change

def addresses (change : Change) : List Address :=
  change.value.addresses ++ Value.addressesOfAll change.dropped

theorem addresses_ofCollection (form : Form) (result : List (Keyed Value) × List Value) :
    (ofCollection form result).addresses =
      result.1.flatMap (Value.addresses ·.2) ++ result.2.flatMap Value.addresses := by
  simp [addresses, ofCollection, Value.addresses, Value.addressesOfAll_eq_flatMap, List.flatMap_map]

end Change

namespace Store

variable {store : Store} {target : Value} {change : Change} {access : Access}

theorem flatMap_keyed (store : Store) (parts : List Value) :
    (store.keyed parts).flatMap (Value.addresses ·.2) = Value.addressesOfAll parts := by
  simp [keyed, Keyed.label, List.flatMap_map, Value.addressesOfAll_eq_flatMap]

theorem addresses_append (form : Form) (parts : List Value) (value : Value) :
    (Change.mk (.node form (parts ++ [value])) []).addresses =
      (Value.node form parts).addresses ++ value.addresses := by
  simp [Change.addresses, Value.addresses, Value.addressesOfAll_eq_flatMap]

theorem addresses_insert (form : Form) (new : Keyed Value) (parts : List Value) :
    (Change.ofCollection form (Keyed.insert Value.absorb new (store.keyed parts))).addresses.Perm
      (new.2.addresses ++ Value.addressesOfAll parts) := by
  rw [Change.addresses_ofCollection, ← flatMap_keyed store]
  exact Keyed.insert_flatMap_perm _ Value.absorb_addresses_perm new _

theorem addresses_insertSorted (form : Form) (new : Keyed Value) (parts : List Value) :
    (Change.ofCollection form (Keyed.insertSorted Value.absorb new (store.keyed parts))).addresses.Perm
      (new.2.addresses ++ Value.addressesOfAll parts) := by
  rw [Change.addresses_ofCollection, ← flatMap_keyed store]
  exact Keyed.insertSorted_flatMap_perm _ Value.absorb_addresses_perm new _

theorem addresses_enqueue (new : Keyed Value) (parts : List Value) :
    (Change.ofCollection .priorityQueue
        ((PriorityQueue.push (store.keyed parts).toArray new).toList, [])).addresses.Perm
      (Value.addressesOfAll parts ++ new.2.addresses) := by
  have pushed := (PriorityQueue.push_perm (store.keyed parts).toArray new).toList
  rw [Change.addresses_ofCollection, ← flatMap_keyed store]
  simpa using pushed.flatMap_right (Value.addresses ·.2)

/-- An edit keeps or drops what it finds and what it takes in. -/
theorem Edits.addresses_perm {taken : List Value} (edits : Edits store access target taken change) :
    change.addresses.Perm (target.addresses ++ Value.addressesOfAll taken) := by
  have entry (key value : Value) : (Value.node .entry [key, value]).addresses = Value.addressesOfAll [key, value] := rfl
  have alone (value : Value) : value.addresses = Value.addressesOfAll [value] := by
    simp [Value.addressesOfAll]
  cases edits with
  | setCell | fill | poisonMutex | poisonLock | extend =>
      simp [Change.addresses, Value.text, Value.addresses, Value.addressesOfAll]
  | set _ value =>
      rw [← alone]
      simpa [Change.addresses, Value.addressesOfAll] using List.perm_append_comm
  | append _ parts value => rw [← alone, addresses_append]
  | enqueue parts _ =>
      rw [← alone]
      exact addresses_enqueue _ _
  | addHashed parts _ =>
      rw [← alone]
      exact (addresses_insert _ _ _).trans List.perm_append_comm
  | addSorted parts value =>
      rw [← alone]
      exact (addresses_insertSorted _ _ _).trans List.perm_append_comm
  | putHashed parts value _ =>
      rw [← entry]
      exact (addresses_insert _ _ _).trans List.perm_append_comm
  | putSorted parts key value =>
      rw [← entry]
      exact (addresses_insertSorted _ _ _).trans List.perm_append_comm
  | takeLast _ parts last => simp [Change.addresses, Value.addresses, Value.addressesOfAll_eq_flatMap]
  | takeFirst _ first parts =>
      simpa [Change.addresses, Value.addresses, Value.addressesOfAll] using List.perm_append_comm
  | takeGreatest popped =>
      have perm := (PriorityQueue.pop?_perm popped).flatMap_right (Value.addresses ·.2)
      rw [Change.addresses_ofCollection, Value.addresses, ← flatMap_keyed store]
      apply List.perm_append_comm.trans
      simpa [Value.addressesOfAll] using perm

def given (values : List (Option Value)) : List Address :=
  Value.addressesOfAll (values.filterMap id)

theorem mem_given {values : List (Option Value)} {address : Address} :
    address ∈ given values ↔ ∃ value, some value ∈ values ∧ address ∈ value.addresses := by
  simp [given, Value.mem_addressesOfAll]

/-- All that a change keeps or drops was there before or is given for it. -/
theorem addresses_change {action : Action} {access : Access} {value key : Option Value}
    (changed : store.change action access target value key = .ok change) :
    change.addresses.Perm (target.addresses ++ given [value, key]) := by
  obtain ⟨taken, unused, edit, edits, all, rfl⟩ := comes_of_change changed
  have dropped : ({ edit with dropped := edit.dropped ++ unused } : Change).addresses =
      edit.addresses ++ Value.addressesOfAll unused := by
    simp [Change.addresses, Value.addressesOfAll_eq_flatMap]
  have given : (Value.addressesOfAll (taken ++ unused)).Perm (given [value, key]) := by
    simpa only [given, Value.addressesOfAll_eq_flatMap] using all.flatMap_right Value.addresses
  rw [dropped]
  apply (edits.addresses_perm.append_right _).trans
  rw [List.append_assoc, ← Value.addressesOfAll_append]
  exact given.append_left _

end Store

namespace Memory

/-- A memory that came from `base` by changes to one side. The other side has its variables still, and
the handles of the one lead into its own region. -/
structure Sided (inside : String → Prop) (region : Address → Prop) (base memory : Memory) : Prop where
  confined : Confined region base.store memory.store
  known : Value.Known region memory.lookup inside
  others : ∀ name, ¬ inside name → memory.lookup name = base.lookup name

variable {inside : String → Prop} {region : Address → Prop} {base memory later : Memory}

theorem confined_invariant : Building.Invariant region fun held store =>
    Confined region base.store store ∧ ∀ address ∈ held, region address where
  of_perm same kept := ⟨kept.1, fun address member => kept.2 address (same.mem_iff.mpr member)⟩
  allocate kept := by
    obtain ⟨confined, inside⟩ := kept
    have contentsInside := Value.forall_mem_addressesOfAll.mp
      fun address member => inside address (List.mem_append_left _ member)
    refine ⟨confined.allocate contentsInside, ?_⟩
    intro address member
    rcases List.mem_cons.mp member with rfl | other
    · exact confined.fresh _ (Nat.le_refl _)
    · exact inside address (List.mem_append_right _ other)
  retain isKnown kept := ⟨kept.1.retain isKnown, by simpa using ⟨isKnown, kept.2⟩⟩
  release kept := ⟨kept.1.release fun address member => kept.2 address (List.mem_append_left _ member),
    fun address member => kept.2 address (List.mem_append_right _ member)⟩
  static kept := ⟨kept.1.static _, kept.2⟩

theorem Sided.build (sided : Sided inside region base memory) {data : Datum} {value : Value}
    (named : ∀ name ∈ data.names, inside name) (built : memory.build data = .ok (value, later)) :
    value.Inside region ∧ Sided inside region base later ∧ later.bindings = memory.bindings := by
  obtain ⟨⟨result, store⟩, resultBuilt, same⟩ := Except.bind_eq_ok_iff.mp built
  cases same
  have kept := Value.build_keeps confined_invariant sided.known data named [] memory.store _ _
    ⟨sided.confined, by simp⟩ resultBuilt
  rw [List.append_nil] at kept
  exact ⟨kept.2, ⟨kept.1, sided.known, sided.others⟩, rfl⟩

theorem Sided.buildOptional (sided : Sided inside region base memory) {data : Option Datum}
    {value : Option Value} (named : ∀ datum ∈ data, ∀ name ∈ datum.names, inside name)
    (built : buildOptional data memory = .ok (value, later)) :
    (∀ given ∈ value, given.Inside region) ∧ Sided inside region base later := by
  rcases buildOptional_cases built with ⟨_, rfl, rfl⟩ | ⟨datum, new, rfl, rfl, newBuilt⟩
  · exact ⟨by simp, sided⟩
  · obtain ⟨newInside, later, _⟩ := sided.build (named datum rfl) newBuilt
    exact ⟨by simpa using newInside, later⟩

theorem Sided.insert (sided : Sided inside region base memory) {name : String} (own : inside name)
    {value : Value} (valueInside : value.Inside region) {store : Store}
    (confined : Confined region base.store store) :
    Sided inside region base ⟨Memory.insert name value memory.bindings, store⟩ where
  confined := confined
  known other otherOwn otherValue found := by
    rw [lookup, lookup_insert] at found
    split at found
    · cases found
      exact valueInside
    · exact sided.known other otherOwn otherValue found
  others other away := by
    have isOther : other ≠ name := by
      rintro rfl
      exact away own
    rw [lookup, lookup_insert, if_neg isOther]
    exact sided.others other away

theorem Sided.write (sided : Sided inside region base memory) {name : String} (own : inside name)
    {value : Value} (valueInside : value.Inside region) (trail : Trail) :
    Sided inside region base (memory.write name trail value) := by
  unfold Memory.write
  split
  · rename_i altered rewritten
    obtain ⟨root, found, rewritten⟩ := Option.bind_eq_some_iff.mp rewritten
    have alteredInside := sided.confined.rewrite? valueInside (sided.known name own root found) rewritten
    exact sided.insert own alteredInside sided.confined
  · rename_i address contents rewritten
    obtain ⟨root, found, rewritten⟩ := Option.bind_eq_some_iff.mp rewritten
    obtain ⟨here, contentsInside⟩ :=
      sided.confined.rewrite? valueInside (sided.known name own root found) rewritten
    exact ⟨sided.confined.setContents here contentsInside, sided.known, sided.others⟩
  · exact sided

theorem Sided.release (sided : Sided inside region base memory) {addresses : List Address}
    (given : ∀ address ∈ addresses, region address) :
    Sided inside region base { memory with store := memory.store.release addresses } :=
  ⟨sided.confined.release given, sided.known, sided.others⟩

theorem Sided.act (sided : Sided inside region base memory) {name : String} (own : inside name)
    {path : List Nat} {action : Action} {value key : Option Datum}
    (valueNamed : ∀ datum ∈ value, ∀ name ∈ datum.names, inside name)
    (keyNamed : ∀ datum ∈ key, ∀ name ∈ datum.names, inside name)
    (acted : memory.act name path action value key = .ok later) :
    Sided inside region base later := by
  obtain ⟨newValue, first, newKey, second, root, place, change, valueBuilt, keyBuilt, found, walked,
    changed, rfl⟩ := act_cases acted
  obtain ⟨valueInside, firstSided⟩ := sided.buildOptional valueNamed valueBuilt
  obtain ⟨keyInside, secondSided⟩ := firstSided.buildOptional keyNamed keyBuilt
  have rootInside := secondSided.known name own root found
  have placeInside := secondSided.confined.follow? rootInside (follow?_of_walk? walked)
  have changeInside : ∀ address ∈ change.addresses, region address := by
    intro address member
    rcases List.mem_append.mp ((addresses_change changed).subset member) with there | given
    · exact placeInside address there
    · obtain ⟨value, inGiven, here⟩ := mem_given.mp given
      rcases List.mem_cons.mp inGiven with isValue | rest
      · exact valueInside value isValue.symm address here
      · exact keyInside value (List.mem_singleton.mp rest).symm address here
  have written := secondSided.write own
    (fun address member => changeInside address (List.mem_append_left _ member)) place.trail
  exact written.release fun address member => changeInside address (List.mem_append_right _ member)

end Memory

/-- A write through a variable of one side, with data that refers only to variables of that side. -/
def Step.Writes (inside : String → Prop) : Step → Prop
  | .act name _ _ value key =>
    inside name ∧ (∀ datum ∈ value, ∀ name ∈ datum.names, inside name) ∧
      ∀ datum ∈ key, ∀ name ∈ datum.names, inside name
  | _ => False

namespace Memory

variable {inside : String → Prop} {region : Address → Prop} {base memory : Memory}

theorem Sided.step (sided : Sided inside region base memory) {step : Step} (writes : step.Writes inside) :
    Sided inside region base (memory.step step).2 := by
  cases step with
  | act name path action value key =>
      obtain ⟨own, valueNamed, keyNamed⟩ := writes
      rw [Memory.step]
      cases acted : memory.act name path action value key with
      | error refusal => exact sided
      | ok later => exact sided.act own valueNamed keyNamed acted
  | _ => exact writes.elim

theorem Sided.after (sided : Sided inside region base memory) {steps : List Step}
    (writes : ∀ step ∈ steps, step.Writes inside) : Sided inside region base (memory.after steps) := by
  induction steps generalizing memory with
  | nil => exact sided
  | cons step steps ih =>
      have first := sided.step (writes step (by simp))
      exact ih first fun next member => writes next (by simp [member])

end Memory

end Replica
