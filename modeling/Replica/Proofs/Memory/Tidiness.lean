import Replica.Proofs.Memory.Draining
import Replica.Proofs.Memory.Ending
import Replica.Proofs.Memory.Likeness

/-!
Collections without a visible order: hash sets, hash maps and queues. What they find their parts by has an order that
needs no cell, and such a key stays what it is when one looks deeper, or into cells.
-/

namespace Replica

namespace Key

theorem isOrdered_ofParts_iff {keys : List Key} : (ofParts keys).isOrdered ↔ ∀ key ∈ keys, key.isOrdered := by
  rw [ofParts]
  split
  · rename_i all
    exact iff_of_true rfl (List.all_eq_true.mp all)
  · rename_i notAll
    rw [List.all_eq_true] at notAll
    exact iff_of_false (by simp [isOrdered]) notAll

theorem isOrdered_of_alone {keys : List Key} (ordered : (alone keys).isOrdered) : ∀ key ∈ keys, key.isOrdered := by
  unfold alone at ordered
  split at ordered
  · exact List.forall_mem_singleton.mpr ordered
  · cases ordered

theorem ofForm_cases {form : Form} {keys : List Key} (ordered : (ofForm false form keys).isOrdered) :
    (form = .tuple ∨ form = .vector ∨ form = .box) ∧ ∀ key ∈ keys, key.isOrdered := by
  cases form with
  | vector => exact ⟨.inr (.inl rfl), isOrdered_ofParts_iff.mp ordered⟩
  | tuple =>
      rw [ofForm] at ordered
      split at ordered
      · exact ⟨.inl rfl, isOrdered_ofParts_iff.mp ordered⟩
      · cases ordered
  | box => exact ⟨.inr (.inr rfl), isOrdered_of_alone ordered⟩
  | _ => cases ordered

end Key

namespace Value

variable {cells : Bool} {follow other : Address → Key} {value : Value} {form : Form} {parts : List Value}

/-- What a value of several parts must be if its key has an order. -/
theorem key_node_cases (ordered : (Key.ofValue false follow (.node form parts)).isOrdered) :
    (form = .tuple ∨ form = .vector ∨ form = .box) ∧ ∀ part ∈ parts, (Key.ofValue false follow part).isOrdered := by
  rw [key_node] at ordered
  obtain ⟨composite, each⟩ := Key.ofForm_cases ordered
  exact ⟨composite, List.forall_mem_map.mp each⟩

theorem key_eq_of_isOrdered (agree : ∀ address ∈ value.addresses, (follow address).isOrdered →
      other address = follow address)
    (ordered : (Key.ofValue false follow value).isOrdered) :
    Key.ofValue cells other value = Key.ofValue false follow value := by
  induction value using Value.induct with
  | atom content => rfl
  | static label text => rfl
  | handle sharing address =>
      cases sharing with
      | rc => exact agree address (by simp [addresses]) ordered
      | _ => rfl
  | node form parts ih =>
      obtain ⟨composite, each⟩ := key_node_cases ordered
      have same : parts.map (Key.ofValue cells other) = parts.map (Key.ofValue false follow) := by
        apply List.map_congr_left
        intro part member
        apply ih part member _ (each part member)
        exact fun address inside => agree address (mem_addressesOfAll.mpr ⟨part, member, inside⟩)
      -- Forms other than cells treat the keys of their parts alike, whether cells are seen into or not.
      rw [key_node, key_node, same]
      rcases composite with rfl | rfl | rfl <;> rfl

end Value

namespace Store

open Value

variable {store : Store} {value : Value} {address : Address} {depth deeper : Nat}

/-- A key that has an order without cells stays what it is when one looks deeper, or into cells. -/
theorem keyOfAddress_of_isOrdered {cells : Bool} (less : depth ≤ deeper)
    (ordered : (Key.ofAddress false store depth address).isOrdered) :
    Key.ofAddress cells store deeper address = Key.ofAddress false store depth address := by
  induction depth generalizing deeper address with
  | zero => cases ordered
  | succ depth ih =>
      obtain ⟨deeper, rfl⟩ := Nat.exists_eq_succ_of_ne_zero (Nat.ne_zero_of_lt less)
      rw [Key.ofAddress] at ordered
      split at ordered
      next content found =>
        rw [Key.ofAddress, Key.ofAddress, found]
        exact key_eq_of_isOrdered (fun other _ further => ih (Nat.le_of_succ_le_succ less) further) ordered
      next => cases ordered

theorem key_eq_fixedKey (ordered : (store.fixedKey value).isOrdered) : store.key value = store.fixedKey value :=
  key_eq_of_isOrdered (fun _ _ => keyOfAddress_of_isOrdered (Nat.le_refl _)) ordered

theorem keyLike_of_isOrdered (followed : ∀ address, (Key.ofAddress false store depth address).isOrdered →
      store.KeyLike (.handle .rc address))
    (ordered : (Key.ofValue false (Key.ofAddress false store depth) value).isOrdered) : store.KeyLike value := by
  induction value using Value.induct with
  | atom content => exact .atom content
  | static label text => cases ordered
  | handle sharing address =>
      cases sharing with
      | rc => exact followed address ordered
      | _ => cases ordered
  | node form parts ih =>
      obtain ⟨composite, each⟩ := key_node_cases ordered
      refine .node ?_ fun part member => ih part member (each part member)
      rcases composite with rfl | rfl | rfl <;> simp

theorem keyLike_handle_of_isOrdered (ordered : (Key.ofAddress false store depth address).isOrdered) :
    store.KeyLike (.handle .rc address) := by
  induction depth generalizing address with
  | zero => cases ordered
  | succ depth ih =>
      rw [Key.ofAddress] at ordered
      split at ordered
      · rename_i content found
        refine .counted found fun inner member => ?_
        rw [List.mem_singleton.mp member]
        exact keyLike_of_isOrdered (fun _ => ih) ordered
      · cases ordered

theorem keyLike_of_fixedKey (ordered : (store.fixedKey value).isOrdered) : store.KeyLike value :=
  keyLike_of_isOrdered (fun _ => keyLike_handle_of_isOrdered) ordered

end Store

namespace Form

/-- Queues have their parts stand so that none is greater than the one at its parent's place. -/
def Queued : Form → List Key → Prop
  | .priorityQueue, keys => PriorityQueue.ArrangedFrom (Keyed.label id keys).toArray 0
  | _, _ => True

theorem hashed_of_shown {form : Form} (shown : ¬ form.HidesOrder) (keys : List Key) : form.Hashed keys := by
  cases form with
  | hashSet => exact absurd (.inl rfl) shown
  | hashMap => exact absurd (.inr (.inl rfl)) shown
  | _ => trivial

theorem queued_of_shown {form : Form} (shown : ¬ form.HidesOrder) (keys : List Key) : form.Queued keys := by
  cases form with
  | priorityQueue => exact absurd (.inr (.inr rfl)) shown
  | _ => trivial

theorem queued_iff {α : Type} (key : α → Key) (parts : List α) :
    Form.priorityQueue.Queued (parts.map key) ↔
      PriorityQueue.ArrangedFrom (Keyed.label key parts).toArray 0 := by
  have labels : (Keyed.label id (parts.map key)).toArray = (Keyed.label key parts).toArray.map (Prod.map id key) := by
    simp [Keyed.label]
  rw [Queued, labels]
  simp only [PriorityQueue.ArrangedFrom, PriorityQueue.atMost_map]

/-- Forms that take any parts in any order. -/
def Loose : Form → Prop
  | .hashSet | .hashMap | .treeMap | .priorityQueue | .strategies _ | .library _ => False
  | _ => True

/-- A collection that is as it should be stays so when it is put together anew. -/
theorem gather_of_settled {α : Type} {key : α → Key} {absorb : α → α → α × List α} {form : Form} {parts : List α}
    (ordered : form.Ordered (parts.map key)) (hashed : form.Hashed (parts.map key))
    (queued : form.Queued (parts.map key)) (sorted : form = .sorted → Key.Ascending (parts.map key)) :
    form.gather key absorb parts = ⟨parts, []⟩ := by
  have nothing : (form.gather key absorb parts).dropped = [] := (gather_of_ordered ordered hashed).1
  have kept : (form.gather key absorb parts).kept = parts := by
    by_cases queue : form = .priorityQueue
    · subst queue
      simp [gather, Keyed.gathered, PriorityQueue.arrange_of_arrangedFrom ((queued_iff key parts).mp queued)]
    · exact gather_kept_of_ordered ordered hashed queue sorted
  exact congrArg₂ Gathered.mk kept nothing

theorem gather_of_tidy {α : Type} {key : α → Key} {absorb : α → α → α × List α} {form : Form} {parts : List α}
    (hidden : form.HidesOrder) (hashed : form.Hashed (parts.map key)) (queued : form.Queued (parts.map key)) :
    form.gather key absorb parts = ⟨parts, []⟩ := by
  refine gather_of_settled ?_ hashed queued ?_
  · rcases hidden with rfl | rfl | rfl <;> trivial
  · rcases hidden with rfl | rfl | rfl <;> simp

end Form

/-- The keys of what counted handles lead to, as long as no cell is needed for them. -/
def Store.fixed (store : Store) : Address → Key :=
  Key.ofAddress false store store.depth

namespace Value

open Store

/-- What a part has to be: maps have entries, and what is found by its key without an order has a key. -/
def Fits (follow : Address → Key) : Form → Value → Prop
  | .hashSet, part | .priorityQueue, part => (Key.ofValue false follow part).isOrdered
  | .hashMap, part => ∃ sought value, part = .node .entry [sought, value] ∧ (Key.ofValue false follow sought).isOrdered
  | .treeMap, part => ∃ sought value, part = .node .entry [sought, value]
  | _, _ => True

/-- What collections without a visible order keep to. -/
structure Tidy (follow : Address → Key) (form : Form) (parts : List Value) : Prop where
  fits : ∀ part ∈ parts, Fits follow form part
  hashed : form.Hashed (parts.map fun part => Key.ofValue false follow part.sought)
  queued : form.Queued (parts.map fun part => Key.ofValue false follow part.sought)

/-- All collections in a value are tidy, and its structs have their own cells. -/
inductive Neat (follow : Address → Key) (shelf : Address → Prop) : Value → Prop
  | atom (content : Atom) : Neat follow shelf (.atom content)
  | static (label : Nat) (text : String) : Neat follow shelf (.static label text)
  | handle (sharing : Sharing) (address : Address) : Neat follow shelf (.handle sharing address)
  | node {form : Form} {parts : List Value} (tidy : Tidy follow form parts)
      (shelved : ∀ step, form.Shelved step → ∃ address, parts[step]? = some (.handle .rc address) ∧ shelf address)
      (each : ∀ part ∈ parts, Neat follow shelf part) : Neat follow shelf (.node form parts)

variable {follow other : Address → Key} {shelf room : Address → Prop} {form : Form} {part value : Value}
  {parts : List Value}

theorem sought_of_isOrdered (ordered : (Key.ofValue false follow part).isOrdered) : part.sought = part := by
  unfold sought
  split
  · cases ordered
  · rfl

theorem Fits.isOrdered_sought (hidden : form.HidesOrder) (fits : Fits follow form part) :
    (Key.ofValue false follow part.sought).isOrdered := by
  rcases hidden with rfl | rfl | rfl
  · exact (sought_of_isOrdered fits).symm ▸ fits
  · obtain ⟨sought, value, rfl, ordered⟩ := fits
    exact ordered
  · exact (sought_of_isOrdered fits).symm ▸ fits

theorem Fits.imp (agree : ∀ address ∈ part.addresses, (follow address).isOrdered → other address = follow address)
    (fits : Fits follow form part) : Fits other form part := by
  have stays : ∀ value : Value, (∀ address ∈ value.addresses, address ∈ part.addresses) →
      (Key.ofValue false follow value).isOrdered → (Key.ofValue false other value).isOrdered := by
    intro value inside ordered
    rwa [key_eq_of_isOrdered (fun address member => agree address (inside address member)) ordered]
  cases form with
  | hashSet => exact stays part (fun _ member => member) fits
  | priorityQueue => exact stays part (fun _ member => member) fits
  | hashMap =>
      obtain ⟨sought, value, rfl, ordered⟩ := fits
      exact ⟨sought, value, rfl, stays sought (fun _ member => List.mem_append_left _ member) ordered⟩
  | treeMap => exact fits
  | _ => exact trivial

/-- Where the order of parts shows, only the parts themselves matter. -/
theorem tidy_of_shown (shown : ¬ form.HidesOrder) (fits : ∀ part ∈ parts, Fits follow form part) :
    Tidy follow form parts := by
  cases form with
  | hashSet => exact absurd (.inl rfl) shown
  | hashMap => exact absurd (.inr (.inl rfl)) shown
  | priorityQueue => exact absurd (.inr (.inr rfl)) shown
  | _ => exact ⟨fits, trivial, trivial⟩

theorem Tidy.imp (agree : ∀ part ∈ parts, ∀ address ∈ part.addresses, (follow address).isOrdered →
      other address = follow address)
    (tidy : Tidy follow form parts) : Tidy other form parts := by
  by_cases hidden : form.HidesOrder
  · have keys : parts.map (fun part => Key.ofValue false other part.sought) =
        parts.map fun part => Key.ofValue false follow part.sought := by
      apply List.map_congr_left
      intro part member
      apply key_eq_of_isOrdered _ ((tidy.fits part member).isOrdered_sought hidden)
      exact fun address inside => agree part member address (mem_addresses_of_sought inside)
    exact ⟨fun part member => (tidy.fits part member).imp (agree part member), keys ▸ tidy.hashed, keys ▸ tidy.queued⟩
  · exact tidy_of_shown hidden fun part member => (tidy.fits part member).imp (agree part member)

theorem Neat.imp (agree : ∀ address ∈ value.addresses, (follow address).isOrdered → other address = follow address)
    (kept : ∀ address ∈ value.addresses, shelf address → room address) (neat : Neat follow shelf value) :
    Neat other room value := by
  induction neat with
  | atom content => exact .atom content
  | static label text => exact .static label text
  | handle sharing address => exact .handle sharing address
  | @node form parts tidy shelved _ ih =>
      have inside : ∀ part ∈ parts, ∀ address ∈ part.addresses, address ∈ (Value.node form parts).addresses :=
        fun part member address here => mem_addressesOfAll.mpr ⟨part, member, here⟩
      refine .node (tidy.imp fun part member address here => agree address (inside part member address here)) ?_ ?_
      · intro step isShelved
        obtain ⟨address, found, isShelf⟩ := shelved step isShelved
        have here := inside _ (List.mem_of_getElem? found) address (by simp [addresses])
        exact ⟨address, found, kept address here isShelf⟩
      · intro part member
        apply ih part member
        · exact fun address here => agree address (inside part member address here)
        · exact fun address here => kept address (inside part member address here)

theorem Neat.inside (neat : Neat follow shelf (.node form parts)) : ∀ part ∈ parts, Neat follow shelf part := by
  cases neat with
  | node _ _ each => exact each

theorem Neat.tidy (neat : Neat follow shelf (.node form parts)) : Tidy follow form parts := by
  cases neat with
  | node tidy _ _ => exact tidy

theorem Neat.exists_shelf (neat : Neat follow shelf (.node form parts)) {step : Nat} (isShelved : form.Shelved step) :
    ∃ address, parts[step]? = some (.handle .rc address) ∧ shelf address := by
  cases neat with
  | node _ shelved _ => exact shelved step isShelved

theorem Neat.shelved (neat : Neat follow shelf (.node form parts)) {step : Nat} (found : parts[step]? = some part)
    (isShelved : form.Shelved step) : ∃ address, part = .handle .rc address ∧ shelf address := by
  obtain ⟨address, here, isShelf⟩ := neat.exists_shelf isShelved
  exact ⟨address, Option.some.inj (found.symm.trans here), isShelf⟩

theorem neat_of_loose (loose : form.Loose) (each : ∀ part ∈ parts, Neat follow shelf part) :
    Neat follow shelf (.node form parts) := by
  cases form with
  | hashSet | hashMap | treeMap | priorityQueue | strategies | library => exact loose.elim
  | _ => exact .node ⟨fun _ _ => trivial, trivial, trivial⟩ (fun _ isShelved => isShelved.elim) each

theorem hashed_of_length_le_one {keys : List Key} (few : keys.length ≤ 1) : form.Hashed keys := by
  have distinct : Key.Distinct keys := by
    rcases keys with _ | ⟨key, _ | ⟨next, rest⟩⟩
    · exact .nil
    · exact List.pairwise_singleton _ _
    · simp at few
  cases form with
  | hashSet | hashMap => exact distinct
  | _ => exact trivial

theorem queued_of_length_le_one {keys : List Key} (few : keys.length ≤ 1) : form.Queued keys := by
  cases form with
  | priorityQueue =>
      intro place child _ under
      apply PriorityQueue.atMost_of_size_le
      simp only [Keyed.label, List.size_toArray, List.length_map]
      omega
  | _ => exact trivial

theorem neat_childless (unshelved : ∀ step, ¬ form.Shelved step) : Neat follow shelf (.node form []) :=
  .node ⟨by simp, hashed_of_length_le_one (by simp), queued_of_length_le_one (by simp)⟩
    (fun step isShelved => absurd isShelved (unshelved step)) (by simp)

theorem neat_single (unshelved : ∀ step, ¬ form.Shelved step) (fits : Fits follow form part)
    (neat : Neat follow shelf part) : Neat follow shelf (.node form [part]) := by
  refine .node ⟨?_, hashed_of_length_le_one (by simp), queued_of_length_le_one (by simp)⟩ ?_ ?_
  · exact List.forall_mem_singleton.mpr fits
  · exact fun step isShelved => absurd isShelved (unshelved step)
  · exact List.forall_mem_singleton.mpr neat

theorem neat_entry {key value : Value} (keyNeat : Neat follow shelf key) (valueNeat : Neat follow shelf value) :
    Neat follow shelf (.node .entry [key, value]) := by
  refine neat_of_loose trivial ?_
  exact List.forall_mem_cons.mpr ⟨keyNeat, List.forall_mem_singleton.mpr valueNeat⟩

theorem good_absorb {former new : Value} (formerGood : Neat follow shelf former ∧ Fits follow form former)
    (newGood : Neat follow shelf new ∧ Fits follow form new) :
    Neat follow shelf (former.absorb new).1 ∧ Fits follow form (former.absorb new).1 := by
  fun_cases Value.absorb former new with
  | case1 key value otherKey newValue =>
      constructor
      · exact neat_entry (formerGood.1.inside key (by simp)) (newGood.1.inside newValue (by simp))
      · cases form with
        | hashMap =>
            obtain ⟨_, _, same, ordered⟩ := formerGood.2
            cases same
            exact ⟨key, newValue, rfl, ordered⟩
        | treeMap => exact ⟨key, newValue, rfl⟩
        | hashSet | priorityQueue => cases formerGood.2
        | _ => exact trivial
  | case2 => exact formerGood

/-- What is told apart is told apart by fixed keys. -/
theorem partKeys_eq_of_fits {store : Store} (hidden : form.HidesOrder)
    (fits : ∀ part ∈ parts, Fits store.fixed form part) :
    parts.map store.partKey = parts.map fun part => Key.ofValue false store.fixed part.sought := by
  apply List.map_congr_left
  intro part member
  rw [partKey_eq]
  exact key_eq_fixedKey ((fits part member).isOrdered_sought hidden)

/-- Sets and maps without an order hold each key once. -/
theorem Tidy.hashed_partKeys {store : Store} (tidy : Tidy store.fixed form parts) :
    form.Hashed (parts.map store.partKey) := by
  by_cases hidden : form.HidesOrder
  · rw [partKeys_eq_of_fits hidden tidy.fits]
    exact tidy.hashed
  · exact Form.hashed_of_shown hidden _

theorem Tidy.queued_partKeys {store : Store} (tidy : Tidy store.fixed form parts) :
    form.Queued (parts.map store.partKey) := by
  by_cases hidden : form.HidesOrder
  · rw [partKeys_eq_of_fits hidden tidy.fits]
    exact tidy.queued
  · exact Form.queued_of_shown hidden _

end Value

end Replica
