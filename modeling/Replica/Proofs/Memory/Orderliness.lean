import Replica.Proofs.Memory.Height
import Replica.Proofs.Memory.Propagation
import Replica.Proofs.Memory.Replacing

/-!
Memories that steps lead to are tended: all collections that a variable leads to are found in by keys without cells,
and stand as these keys ask for, whatever has been written, marked or copied before.
-/

namespace Replica

open Store

namespace Memory

variable {memory later : Memory} {held fewer : List Value} {name : String} {value root former : Value} {trail : Trail}
  {bindings : List (String × Value)} {newValue newKey : Option Value}

def values (memory : Memory) : List Value :=
  memory.bindings.map (·.2)

theorem handlesOf_eq (bindings : List (String × Value)) :
    handlesOf bindings = Value.addressesOfAll (bindings.map (·.2)) := by
  simp [handlesOf, Value.addressesOfAll_eq_flatMap, List.flatMap_map]

theorem mem_values_of_lookup (found : memory.lookup name = some value) : value ∈ memory.values :=
  List.mem_map.mpr ⟨(name, value), mem_of_lookup found, rfl⟩

theorem mem_values_insert {other : Value} (member : other ∈ (insert name value bindings).map (·.2)) :
    other = value ∨ other ∈ bindings.map (·.2) := by
  obtain ⟨binding, inside, rfl⟩ := List.mem_map.mp member
  rcases mem_insert inside with rfl | before
  · exact .inl rfl
  · exact .inr (List.mem_map_of_mem before)

/-- A memory in which everything is neat that is in a variable, in an allocation, or held besides. -/
structure Tended (held : List Value) (memory : Memory) : Prop where
  exact : Memory.Exact (Value.addressesOfAll held) memory
  stored : memory.store.StoredNeat memory.store
  each : ∀ value ∈ held ++ memory.values, memory.store.Neat value

namespace Tended

theorem tended (tended : Tended held memory) : Store.Tended (held ++ memory.values) memory.store where
  exact := by
    have counts := tended.exact.store
    rwa [handlesOf_eq, ← Value.addressesOfAll_append] at counts
  stored := tended.stored
  each := tended.each

theorem of_tended (exact : Memory.Exact (Value.addressesOfAll held) memory)
    (tended : Store.Tended (held ++ memory.values) memory.store) : Tended held memory :=
  ⟨exact, tended.stored, tended.each⟩

theorem neat (tended : Tended held memory) (found : memory.lookup name = some value) : memory.store.Neat value :=
  tended.each value (List.mem_append_right _ (mem_values_of_lookup found))

/-- A memory that has given up handles is tended if no value is in it that was not there. -/
theorem follow (tended : Tended held memory) (exact : Memory.Exact (Value.addressesOfAll fewer) later)
    (follows : later.store.Follows memory.store) (size_le : later.store.slots.size ≤ memory.store.slots.size)
    (given : ∀ value ∈ fewer ++ later.values, value ∈ held ++ memory.values) : Tended fewer later := by
  apply of_tended exact
  apply tended.tended.follow_same follows size_le _ fun value member => .inl (given value member)
  have counts := exact.store
  rwa [handlesOf_eq, ← Value.addressesOfAll_append] at counts

/-- A memory whose allocations resemble what they were is tended if all that is new in it is neat. -/
theorem resemble (tended : Tended held memory) (exact : Memory.Exact (Value.addressesOfAll fewer) later)
    (same : later.store.Resembles memory.store) (stored : memory.store.StoredNeat later.store)
    (given : ∀ value ∈ fewer ++ later.values, value ∈ held ++ memory.values ∨ memory.store.Neat value) :
    Tended fewer later where
  exact := exact
  stored address contents found content member := same.neat (stored address contents found content member)
  each value member := by
    rcases given value member with former | neat
    · exact same.neat (tended.each value former)
    · exact same.neat neat

theorem build (tended : Tended held memory) {data : Datum} (built : memory.build data = .ok (value, later)) :
    Tended (value :: held) later := by
  have exact := tended.exact.build built
  obtain ⟨⟨result, store⟩, resultBuilt, same⟩ := Except.bind_eq_ok_iff.mp built
  cases same
  have known : Value.Known (· ∈ Value.addressesOfAll (held ++ memory.values)) memory.lookup fun _ => True := by
    intro name _ value found address inside
    apply Value.mem_addressesOfAll.mpr
    exact ⟨value, List.mem_append_right _ (mem_values_of_lookup found), inside⟩
  have holds := Value.build_holds (tended_upkeep (held ++ memory.values)) known data (fun _ _ => trivial) []
    memory.store _ _ tended.tended resultBuilt
  exact of_tended exact holds

theorem assign (tended : Tended (value :: held) memory) (name : String) : Tended held (memory.assign name value) := by
  apply tended.follow (tended.exact.assign name) (follows_release _ memory.store)
    (Nat.le_of_eq (size_release _ memory.store))
  intro other member
  rcases List.mem_append.mp member with isHeld | inside
  · exact List.mem_append_left _ (List.mem_cons_of_mem _ isHeld)
  · rcases mem_values_insert inside with rfl | before
    · exact List.mem_append_left _ List.mem_cons_self
    · exact List.mem_append_right _ before

theorem drop (tended : Tended held memory) (dropped : memory.drop name = .ok later) : Tended held later := by
  have exact := tended.exact.drop dropped
  obtain ⟨value, found, rfl⟩ := drop_cases dropped
  apply tended.follow exact (follows_release _ memory.store) (Nat.le_of_eq (size_release _ memory.store))
  intro other member
  rcases List.mem_append.mp member with isHeld | inside
  · exact List.mem_append_left _ isHeld
  · obtain ⟨binding, kept, rfl⟩ := List.mem_map.mp inside
    exact List.mem_append_right _ (List.mem_map_of_mem (List.mem_of_mem_filter kept))

theorem alter (tended : Tended held memory) {passing : Form → Form} {change : Value → Value}
    (passed : ∀ form, (passing form).Akin form) (sameHandles : ∀ value, (change value).addresses = value.addresses)
    (changes : ∀ value, (change value).Resembles value)
    (neatly : ∀ value, memory.store.Neat value → memory.store.Neat (change value)) (name : String) (trail : Trail) :
    Tended held (memory.alter name trail passing change) := by
  have exact := tended.exact.alter_same passing sameHandles name trail
  unfold Memory.alter at exact ⊢
  split at exact
  · exact tended
  · rename_i value found
    obtain ⟨_, neat, same, stored⟩ := alter_resembles tended.stored passed changes neatly trail (tended.neat found)
    apply tended.resemble exact same stored
    intro other member
    rcases List.mem_append.mp member with isHeld | inside
    · exact .inl (List.mem_append_left _ isHeld)
    · rcases mem_values_insert inside with rfl | before
      · exact .inr neat
      · exact .inl (List.mem_append_right _ before)

theorem mark (tended : Tended held memory) (isHeld : Bool) (cell : Option (String × Trail)) :
    Tended held (memory.mark isHeld cell) := by
  cases cell with
  | none => exact tended
  | some cell =>
      exact tended.alter .refl (addresses_mark isHeld) (Value.mark_resembles isHeld) (fun _ neat => neat.mark isHeld) _ _

/-- What a path leads to may be replaced by something neat. -/
theorem write (tended : Tended held memory) {path : List Nat} {place : Place} (exact :
      Memory.Exact (Value.addressesOfAll fewer) (memory.write name place.trail value))
    (found : memory.lookup name = some root)
    (walked : memory.store.walk? (fun _ => true) path root .owned = some place) (neat : memory.store.Neat value)
    (same : place.access = .shared → value.Resembles place.value)
    (given : ∀ value ∈ fewer, value ∈ held ++ memory.values ∨ memory.store.Neat value) :
    Tended fewer (memory.write name place.trail value) := by
  have others : ∀ other ∈ fewer ++ memory.values, other ∈ held ++ memory.values ∨ memory.store.Neat other := by
    intro other member
    rcases List.mem_append.mp member with kept | inside
    · exact given other kept
    · exact .inl (List.mem_append_right _ inside)
  -- The write ends in the variable itself, in an allocation, or nowhere.
  unfold Memory.write at exact ⊢
  split at exact
  · rename_i altered rewritten
    rw [found, Option.bind_some] at rewritten
    obtain ⟨alteredNeat, _⟩ := rewrite?_mends tended.stored (tended.neat found) walked neat same rewritten
    apply tended.resemble exact (.refl _) tended.stored
    intro other member
    rcases List.mem_append.mp member with kept | inside
    · exact given other kept
    · rcases mem_values_insert inside with rfl | before
      · exact .inr alteredNeat
      · exact .inl (List.mem_append_right _ before)
  · rename_i address contents rewritten
    rw [found, Option.bind_some] at rewritten
    obtain ⟨former, holds, resembling, contentsNeat⟩ :=
      rewrite?_mends tended.stored (tended.neat found) walked neat same rewritten
    apply tended.resemble exact ((Resembles.refl _).setContents holds resembling)
    · exact tended.stored.setContents contentsNeat
    · exact others
  · exact tended.resemble exact (.refl _) tended.stored others

theorem release {fewer : List Value} (tended : Tended (fewer ++ held) memory) :
    Tended held { memory with store := memory.store.release (Value.addressesOfAll fewer) } := by
  have counts := tended.exact
  rw [Value.addressesOfAll_append] at counts
  apply tended.follow counts.release (follows_release _ memory.store) (Nat.le_of_eq (size_release _ memory.store))
  intro other member
  rw [List.append_assoc]
  exact List.mem_append_right _ member

theorem change (tended : Tended (newKey.toList ++ (newValue.toList ++ held)) memory) {path : List Nat} {place : Place}
    {action : Action} {change : Change} (found : memory.lookup name = some root)
    (walked : memory.store.walk? (fun _ => true) path root .owned = some place)
    (changed : memory.store.change action place.access place.value newValue newKey = .ok change) :
    Tended held { memory.write name place.trail change.value with
      store := (memory.write name place.trail change.value).store.release (Value.addressesOfAll change.dropped) } := by
  have given : ∀ new, some new ∈ [newValue, newKey] → memory.store.Neat new := by
    intro new member
    apply tended.each
    rcases List.mem_cons.mp member with isValue | isKey
    · simp [← isValue]
    · simp [← List.mem_singleton.mp isKey]
  obtain ⟨neat, same⟩ :=
    change_keeps (tended.stored.follow? (follow?_of_walk? walked) (tended.neat found)) given changed
  -- What the change drops is held as handles only, since nothing else is asked of it.
  have dropped : Tended ((Value.addressesOfAll change.dropped).map (.handle .rc) ++ held)
      (memory.write name place.trail change.value) := by
    apply tended.write _ found walked neat same
    · intro other member
      rcases List.mem_append.mp member with isHandle | isHeld
      · obtain ⟨address, _, rfl⟩ := List.mem_map.mp isHandle
        exact .inr (.handle _ _)
      · exact .inl (by simp [isHeld])
    · rw [Value.addressesOfAll_append, Value.addressesOfAll_map_handle]
      exact tended.exact.change found walked changed
  have released := dropped.release
  rwa [Value.addressesOfAll_map_handle] at released

theorem undo (tended : Tended held memory) {store : Store} (growth : Growth memory.store [] store) :
    Tended held { memory with store } := by
  have exact := tended.exact.growth growth
  apply of_tended exact
  apply tended.tended.follow growth.follows
  · have counts := exact.store
    rwa [List.nil_append, handlesOf_eq, ← Value.addressesOfAll_append] at counts
  · exact fun value member => .inl member
  · intro address contents beyond found
    rw [contents?, growth.get?_eq_none beyond] at found
    cases found

theorem copied (tended : Tended held memory) {copy : Value} {store : Store} (found : memory.lookup name = some value)
    (made : value.copy.run memory.store = (.ok copy, store)) : Tended (copy :: held) { memory with store } := by
  have live := tended.exact.live found
  have grown := Value.copyTo_grown tended.exact.store.sound live (.refl memory.store _) made
  have growth := grown.offshoot.growth
  rw [List.append_nil] at growth
  have exact : Memory.Exact (Value.addressesOfAll (copy :: held)) { memory with store } := tended.exact.growth growth
  apply of_tended exact
  exact (Value.copiedNeatly tended.tended (Nat.le_refl _) (tended.neat found) live [] memory.store copy store
    (.refl memory.store _) tended.tended made).1

theorem invariant : Invariant Tended where
  build tended built := tended.build built
  assign name tended := tended.assign name
  drop tended dropped := tended.drop dropped
  change tended found walked changed := tended.change found walked changed
  mark isHeld cell tended := tended.mark isHeld cell
  copied tended found made := tended.copied found made
  undone tended found made := by
    have left := Value.copy_leaves tended.exact.store.sound (tended.exact.live found)
    rw [made] at left
    exact tended.undo left
  poison name trail tended := tended.alter Form.akin_poisoned (fun _ => rfl) .refl (fun _ neat => neat) name trail

theorem after (tended : Tended held memory) (steps : List Step) : Tended held (memory.after steps) :=
  invariant.after tended steps

theorem empty : Tended [] Memory.empty where
  exact := .empty
  stored address contents found := by
    rw [contents?, get?_eq_none_of_size_le (Nat.zero_le _)] at found
    cases found
  each value member := by cases member

end Tended

/-- Whatever the steps are, all sets and maps without an order hold each key once, and all queues stand as heaps. -/
theorem placed_after {steps : List Step} {form : Form} {parts : List Value}
    (led : memory = Memory.empty.after steps) (found : memory.lookup name = some root)
    (reached : memory.store.follow? trail root = some (.node form parts)) :
    form.Hashed (parts.map memory.store.partKey) ∧ form.Queued (parts.map memory.store.partKey) := by
  have tended : Tended [] memory := by
    rw [led]
    exact Tended.empty.after steps
  have neat : memory.store.Neat (.node form parts) := tended.stored.follow? reached (tended.neat found)
  exact ⟨neat.tidy.hashed_partKeys, neat.tidy.queued_partKeys⟩

/-- What a variable leads to is copied part by part, whatever the steps are, if it is free of cells that somebody changes
and of structs that are copied otherwise, and the keys of its ordered sets and maps still ascend. -/
theorem memberwise_after {steps : List Step} (led : memory = Memory.empty.after steps)
    (acyclic : memory.store.Acyclic) (found : memory.lookup name = some root)
    (plain : memory.store.Throughout (fun form parts =>
      form ≠ .refCell true ∧ ¬ form.Custom ∧ form.Ordered (parts.map memory.store.partKey)) root) :
    (memory.store.unfold root).Everywhere Tree.Memberwise := by
  have placed : memory.store.Throughout (fun form parts =>
      (form ≠ .refCell true ∧ ¬ form.Custom ∧ form.Ordered (parts.map memory.store.partKey)) ∧
        form.Hashed (parts.map memory.store.partKey)) root := fun trail form parts reached =>
    ⟨plain trail form parts reached, (placed_after led found reached).1⟩
  refine everywhere_unfold acyclic (fun form parts here => ?_) placed
  have keys : (parts.map memory.store.unfold).map Tree.partKey = parts.map memory.store.partKey := by
    rw [List.map_map]
    exact List.map_congr_left fun part _ => memory.store.partKey_unfold part
  obtain ⟨⟨free, notCustom, ordered⟩, hashed⟩ := here
  exact ⟨free, notCustom, keys ▸ ordered, keys ▸ hashed⟩

end Memory

end Replica
