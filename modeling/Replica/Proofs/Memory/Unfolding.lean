import Replica.Proofs.Memory.Store
import Replica.Proofs.Memory.Tree
import Mathlib.Data.Finset.Card
import Mathlib.Logic.Relation

/-!
Stores without circles, and what a value in such a store unfolds to. Any depth that is not less than
the number of slots gives the same tree.
-/

namespace Replica

namespace Value

theorem induct {motive : Value → Prop} (atom : ∀ content, motive (.atom content))
    (static : ∀ label text, motive (.static label text))
    (handle : ∀ sharing address, motive (.handle sharing address))
    (node : ∀ form parts, (∀ part ∈ parts, motive part) → motive (.node form parts)) :
    ∀ value, motive value := by
  intro value
  refine Value.rec (motive_2 := fun values => ∀ value ∈ values, motive value) atom static handle node
    ?_ ?_ value
  · intro value impossible
    cases impossible
  · intro first rest firstHolds restHold value member
    rcases List.mem_cons.mp member with same | later
    · exact same ▸ firstHolds
    · exact restHold value later

theorem mem_addressesOfAll {values : List Value} {address : Address} :
    address ∈ addressesOfAll values ↔ ∃ value ∈ values, address ∈ value.addresses := by
  simp [addressesOfAll_eq_flatMap]

mutual

/-- The tree of a value. `follow` gives what handles lead to. -/
def unfoldWith (follow : Address → List (Tree Address)) : Value → Tree Address
  | .atom content => .atom content
  | .static label text => .static label text
  | .handle sharing address => .shared sharing address (follow address)
  | .node form parts => .node form (unfoldAllWith follow parts)

def unfoldAllWith (follow : Address → List (Tree Address)) : List Value → List (Tree Address)
  | [] => []
  | value :: values => value.unfoldWith follow :: unfoldAllWith follow values

end

@[simp]
theorem unfoldAllWith_eq_map (follow : Address → List (Tree Address)) (values : List Value) :
    unfoldAllWith follow values = values.map (unfoldWith follow) := by
  induction values with
  | nil => rfl
  | cons value values ih => simp [unfoldAllWith, ih]

theorem unfoldWith_congr {follow others : Address → List (Tree Address)} {value : Value}
    (same : ∀ address ∈ value.addresses, follow address = others address) :
    value.unfoldWith follow = value.unfoldWith others := by
  induction value using Value.induct with
  | atom content => rfl
  | static label text => rfl
  | handle sharing address => simp [unfoldWith, same address (by simp [addresses])]
  | node form parts ih =>
      simp only [unfoldWith, unfoldAllWith_eq_map, Tree.node.injEq, true_and]
      apply List.map_congr_left
      intro part member
      apply ih part member
      intro address inside
      exact same address (by simpa [addresses, mem_addressesOfAll] using ⟨part, member, inside⟩)

theorem identities_unfoldWith (follow : Address → List (Tree Address)) (value : Value) :
    (value.unfoldWith follow).identities =
      value.addresses.flatMap fun address => address :: (follow address).flatMap Tree.identities := by
  induction value using Value.induct with
  | atom content => rfl
  | static label text => rfl
  | handle sharing address => simp [unfoldWith, Tree.identities, addresses]
  | node form parts ih =>
      simp only [unfoldWith, unfoldAllWith_eq_map, Tree.identities, Tree.identitiesOfAll_eq_flatMap,
        List.flatMap_map, addresses, addressesOfAll_eq_flatMap, List.flatMap_assoc]
      exact List.flatMap_congr ih

end Value

namespace Store

variable {store later : Store} {value : Value} {address other : Address}

/-- The trees of what an allocation holds, through at the most `depth` handles. -/
def unfoldAddress (store : Store) : (depth : Nat) → Address → List (Tree Address)
  | 0, _ => []
  | depth + 1, address =>
    ((store.contents? address).getD []).map (Value.unfoldWith (store.unfoldAddress depth))

/-- The tree of a value in a store without circles. -/
def unfold (store : Store) (value : Value) : Tree Address :=
  value.unfoldWith (store.unfoldAddress store.depth)

/-- Whether an allocation holds a handle to another. -/
def PointsTo (store : Store) (address other : Address) : Prop :=
  ∃ contents, store.contents? address = some contents ∧ other ∈ Value.addressesOfAll contents

/-- No allocation is reached from what it holds. -/
def Acyclic (store : Store) : Prop :=
  ∀ address, ¬ Relation.TransGen store.PointsTo address address

/-- The handles in a value lead to allocations. -/
def Live (store : Store) (value : Value) : Prop :=
  ∀ address ∈ value.addresses, (store.get? address).isSome

theorem live_of_part {form : Form} {parts : List Value} (live : store.Live (.node form parts)) :
    ∀ part ∈ parts, store.Live part :=
  fun part member address inside => live address (Value.mem_addressesOfAll.mpr ⟨part, member, inside⟩)

/-- What counted handles vouch for: an allocation is there as long as there is a handle to it, and it
goes with the last of them. -/
structure Sound (store : Store) : Prop where
  closed : ∀ address other, store.PointsTo address other → (store.get? other).isSome
  counted : ∀ address allocation, store.get? address = some allocation → 0 < allocation.count

theorem PointsTo.lt_size (points : store.PointsTo address other) : address < store.slots.size := by
  obtain ⟨contents, found, _⟩ := points
  exact lt_size_of_isSome (isSome_of_contents found)

theorem acyclic_of_rank (rank : Address → Nat)
    (falls : ∀ address other, store.PointsTo address other → rank other < rank address) :
    store.Acyclic := by
  intro address circle
  have less : ∀ other, Relation.TransGen store.PointsTo address other → rank other < rank address := by
    intro other path
    induction path with
    | single points => exact falls _ _ points
    | tail _ points ih => exact Nat.lt_trans (falls _ _ points) ih
  exact Nat.lt_irrefl _ (less address circle)

theorem Acyclic.of_pointsTo (acyclic : store.Acyclic)
    (fewer : ∀ address other, later.PointsTo address other → store.PointsTo address other) :
    later.Acyclic :=
  fun address circle => acyclic address (Relation.TransGen.mono fewer _ _ circle)

/-- A relation that leads on from some of the first addresses only, and in no circle, leads downward. The rank of an
address is how many of the first ones there are, without those that lead to it. -/
theorem exists_rank_of_no_circle {leads : Address → Address → Prop} {size : Nat}
    (bounded : ∀ address other, leads address other → address < size)
    (noCircle : ∀ address, ¬ Relation.TransGen leads address address) :
    ∃ rank : Address → Nat, (∀ address, rank address ≤ size) ∧
      ∀ address other, leads address other → rank other < rank address := by
  classical
  let above (address : Address) : Finset Address :=
    (Finset.range size).filter fun source => Relation.TransGen leads source address
  refine ⟨fun address => size - (above address).card, fun address => Nat.sub_le _ _, ?_⟩
  intro address other points
  have proper : above address ⊂ above other := by
    rw [Finset.ssubset_iff_of_subset]
    · refine ⟨address, ?_, ?_⟩
      · simpa [above] using ⟨bounded address other points, Relation.TransGen.single points⟩
      · intro impossible
        exact noCircle address (Finset.mem_filter.mp impossible).2
    · intro source member
      simp only [above, Finset.mem_filter] at member ⊢
      exact ⟨member.1, member.2.tail points⟩
  have fewer := Finset.card_lt_card proper
  have bound : (above other).card ≤ size := by
    simpa using Finset.card_filter_le (Finset.range size) (fun source => Relation.TransGen leads source other)
  simp only
  omega

theorem Acyclic.exists_rank (acyclic : store.Acyclic) :
    ∃ rank : Address → Nat, (∀ address, rank address ≤ store.slots.size) ∧
      ∀ address other, store.PointsTo address other → rank other < rank address :=
  exists_rank_of_no_circle (fun _ _ => PointsTo.lt_size) acyclic

theorem unfoldAddress_succ_of_rank {rank : Address → Nat}
    (falls : ∀ address other, store.PointsTo address other → rank other < rank address)
    {depth : Nat} (enough : rank address < depth) :
    store.unfoldAddress (depth + 1) address = store.unfoldAddress depth address := by
  induction depth generalizing address with
  | zero => omega
  | succ depth ih =>
      simp only [unfoldAddress]
      cases found : store.contents? address with
      | none => rfl
      | some contents =>
          apply List.map_congr_left
          intro value member
          apply Value.unfoldWith_congr
          intro other inside
          have points : store.PointsTo address other :=
            ⟨contents, found, Value.mem_addressesOfAll.mpr ⟨value, member, inside⟩⟩
          -- The rank falls with each handle that is followed, and so does the depth that is enough.
          have below := falls address other points
          exact ih (by omega)

theorem Acyclic.unfoldAddress_eq (acyclic : store.Acyclic) {depth : Nat} (enough : store.depth ≤ depth)
    (address : Address) : store.unfoldAddress depth address = store.unfoldAddress store.depth address := by
  obtain ⟨rank, bounded, falls⟩ := acyclic.exists_rank
  induction depth, enough using Nat.le_induction with
  | base => rfl
  | succ depth enough ih =>
      have below := bounded address
      rw [unfoldAddress_succ_of_rank falls (by unfold Store.depth at enough; omega), ih]

theorem Acyclic.unfoldAddress_depth (acyclic : store.Acyclic) (address : Address) :
    store.unfoldAddress store.depth address =
      ((store.contents? address).getD []).map store.unfold := by
  rw [← acyclic.unfoldAddress_eq (Nat.le_succ store.depth) address]
  rfl

@[simp]
theorem unfold_atom (store : Store) (content : Atom) : store.unfold (.atom content) = .atom content := rfl

@[simp]
theorem unfold_static (store : Store) (label : Nat) (text : String) :
    store.unfold (.static label text) = .static label text := rfl

theorem unfold_handle (store : Store) (sharing : Sharing) (address : Address) :
    store.unfold (.handle sharing address) =
      .shared sharing address (store.unfoldAddress store.depth address) := rfl

@[simp]
theorem unfold_node (store : Store) (form : Form) (parts : List Value) :
    store.unfold (.node form parts) = .node form (parts.map store.unfold) := by
  simp [unfold, Value.unfoldWith]

theorem Sound.isSome_of_mem_identities (sound : store.Sound) (depth : Nat) :
    ∀ address, (store.get? address).isSome →
      ∀ other ∈ (store.unfoldAddress depth address).flatMap Tree.identities, (store.get? other).isSome := by
  induction depth with
  | zero => simp [unfoldAddress]
  | succ depth ih =>
      intro address live other member
      obtain ⟨contents, found⟩ := exists_contents live
      simp only [unfoldAddress, found, Option.getD_some, List.mem_flatMap, List.mem_map,
        exists_exists_and_eq_and] at member
      obtain ⟨value, inside, here⟩ := member
      rw [Value.identities_unfoldWith, List.mem_flatMap] at here
      obtain ⟨next, held, reached⟩ := here
      have nextLive : (store.get? next).isSome :=
        sound.closed address next ⟨contents, found, Value.mem_addressesOfAll.mpr ⟨value, inside, held⟩⟩
      rcases List.mem_cons.mp reached with same | further
      · rw [same]
        exact nextLive
      · exact ih next nextLive other further

theorem Sound.isSome_of_mem_unfold (sound : store.Sound) (live : store.Live value) {address : Address}
    (member : address ∈ (store.unfold value).identities) : (store.get? address).isSome := by
  rw [unfold, Value.identities_unfoldWith, List.mem_flatMap] at member
  obtain ⟨first, held, reached⟩ := member
  rcases List.mem_cons.mp reached with same | further
  · rw [same]
    exact live first held
  · exact sound.isSome_of_mem_identities store.depth first (live first held) address further

/-- Wherever a store that comes later has an allocation that was there before, it holds the same. -/
structure Follows (later store : Store) : Prop where
  size_le : store.slots.size ≤ later.slots.size
  contents : ∀ address contents, address < store.slots.size →
    later.contents? address = some contents → store.contents? address = some contents

theorem Follows.refl (store : Store) : store.Follows store :=
  ⟨Nat.le_refl _, fun _ _ _ found => found⟩

theorem Follows.trans {last : Store} (second : last.Follows later) (first : later.Follows store) :
    last.Follows store where
  size_le := Nat.le_trans first.size_le second.size_le
  contents address contents bound found :=
    first.contents address contents bound
      (second.contents address contents (Nat.lt_of_lt_of_le bound first.size_le) found)

/-- What is still there holds what it held. -/
theorem Follows.contents_of_live (follows : later.Follows store) {contents : List Value}
    (found : store.contents? address = some contents) (isLive : (later.get? address).isSome) :
    later.contents? address = some contents := by
  obtain ⟨same, foundLater⟩ := exists_contents isLive
  have before := follows.contents address same (lt_size_of_isSome (isSome_of_contents found)) foundLater
  rw [foundLater, ← before, found]

theorem Sound.live_of_contents (sound : store.Sound) {contents : List Value}
    (found : store.contents? address = some contents) (member : value ∈ contents) : store.Live value := by
  intro other inside
  exact sound.closed address other ⟨contents, found, Value.mem_addressesOfAll.mpr ⟨value, member, inside⟩⟩

theorem Follows.unfoldAddress_eq (follows : later.Follows store)
    (closed : ∀ address other, later.PointsTo address other → (later.get? other).isSome)
    (bounded : ∀ address other, store.PointsTo address other → other < store.slots.size)
    (depth : Nat) (bound : address < store.slots.size) (live : (later.get? address).isSome) :
    later.unfoldAddress depth address = store.unfoldAddress depth address := by
  induction depth generalizing address with
  | zero => rfl
  | succ depth ih =>
      obtain ⟨contents, found⟩ := exists_contents live
      have before := follows.contents address contents bound found
      simp only [unfoldAddress, found, before, Option.getD_some]
      apply List.map_congr_left
      intro value member
      apply Value.unfoldWith_congr
      intro other inside
      have points : other ∈ Value.addressesOfAll contents :=
        Value.mem_addressesOfAll.mpr ⟨value, member, inside⟩
      exact ih (bounded address other ⟨contents, before, points⟩)
        (closed address other ⟨contents, found, points⟩)

/-- A value that is still alive later unfolds to the same tree as before. -/
theorem Follows.unfold_eq (follows : later.Follows store) (acyclic : store.Acyclic)
    (closed : ∀ address other, later.PointsTo address other → (later.get? other).isSome)
    (bounded : ∀ address other, store.PointsTo address other → other < store.slots.size)
    (inside : ∀ address ∈ value.addresses, address < store.slots.size) (live : later.Live value) :
    later.unfold value = store.unfold value := by
  apply Value.unfoldWith_congr
  intro address member
  rw [follows.unfoldAddress_eq closed bounded later.depth (inside address member) (live address member)]
  exact acyclic.unfoldAddress_eq (Nat.succ_le_succ follows.size_le) address

end Store

namespace Value

theorem keys_eq_map (cells : Bool) (follow : Address → Key) (values : List Value) :
    Key.ofValues cells follow values = values.map (Key.ofValue cells follow) := by
  induction values with
  | nil => rfl
  | cons value values ih => simp [Key.ofValues, ih]

theorem key_node (cells : Bool) (follow : Address → Key) (form : Form) (parts : List Value) :
    Key.ofValue cells follow (.node form parts) = Key.ofForm cells form (parts.map (Key.ofValue cells follow)) := by
  cases form with
  | vector => rw [Key.ofValue, keys_eq_map, Key.ofForm]
  | tuple | box | refCell => cases cells <;> rcases parts with _ | ⟨first, _ | ⟨second, _ | ⟨third, rest⟩⟩⟩ <;> rfl
  | _ => rfl

theorem key_unfoldWith (follow : Address → List (Tree Address)) (keyOf : Address → Key)
    (agree : ∀ address sharing, (Tree.shared .rc sharing (follow address)).key = keyOf address)
    (value : Value) : (value.unfoldWith follow).key = Key.ofValue true keyOf value := by
  induction value using Value.induct with
  | atom content => rfl
  | static label text => rfl
  | handle sharing address =>
      cases sharing with
      | rc => exact agree address address
      | _ => rfl
  | node form parts ih =>
      rw [unfoldWith, unfoldAllWith_eq_map, Tree.key_node, key_node, List.map_map]
      exact congrArg _ (List.map_congr_left ih)

end Value

/-- The key of what a counted handle leads to comes of the keys of the contents there. -/
theorem Key.ofAddress_succ (cells : Bool) (store : Store) (depth : Nat) (address : Address) :
    Key.ofAddress cells store (depth + 1) address =
      Key.alone (((store.contents? address).getD []).map (Key.ofValue cells (Key.ofAddress cells store depth))) := by
  rw [Key.ofAddress]
  rcases store.contents? address with _ | _ | ⟨content, _ | ⟨next, rest⟩⟩ <;> rfl

namespace Store

theorem key_unfoldAddress (store : Store) (depth : Nat) (address identity : Address) :
    (Tree.shared .rc identity (store.unfoldAddress depth address)).key =
      Key.ofAddress true store depth address := by
  induction depth generalizing address identity with
  | zero => rfl
  | succ depth ih =>
      rw [unfoldAddress, Tree.key_counted, Key.ofAddress_succ, List.map_map]
      exact congrArg _ (List.map_congr_left fun content _ => Value.key_unfoldWith _ _ ih content)

@[simp]
theorem key_unfold (store : Store) (value : Value) : (store.unfold value).key = store.key value := by
  exact Value.key_unfoldWith _ _ (fun address identity => store.key_unfoldAddress _ address identity) value

@[simp]
theorem partKey_unfold (store : Store) (value : Value) :
    (store.unfold value).partKey = store.partKey value := by
  rcases value with content | ⟨label, text⟩ | ⟨sharing, address⟩ | ⟨form, parts⟩
  · rfl
  · rfl
  · exact store.key_unfold (.handle sharing address)
  · have whole := store.key_unfold (.node form parts)
    rw [unfold_node] at whole ⊢
    cases form with
    | entry =>
        cases parts with
        | nil => exact whole
        | cons key rest => exact store.key_unfold key
    | _ => exact whole

/-! A small store with what copies come upon. -/

/-- A text with two handles to it. One of them is in a cell that is shared itself. -/
def nested (held : Bool) : Store :=
  ⟨#[some ⟨2, [.text "core"]⟩, some ⟨1, [.node (.refCell held) [.handle .rc 0]]⟩], 0⟩

theorem pointsTo_nested_iff {held : Bool} {address other : Address} :
    (nested held).PointsTo address other ↔ address = 1 ∧ other = 0 := by
  constructor
  · rintro ⟨contents, found, inside⟩
    match address with
    | 0 =>
        cases found
        simp [Value.addressesOfAll, Value.text, Value.addresses] at inside
    | 1 =>
        cases found
        simpa [Value.addressesOfAll, Value.addresses] using inside
    | address + 2 => simp [nested, contents?, get?] at found
  · rintro ⟨rfl, rfl⟩
    exact ⟨_, rfl, by simp [Value.addressesOfAll, Value.addresses]⟩

theorem sound_nested (held : Bool) : (nested held).Sound where
  closed address other points := by
    obtain ⟨_, rfl⟩ := pointsTo_nested_iff.mp points
    rfl
  counted address allocation found := by
    match address with
    | 0 =>
        cases found
        exact Nat.two_pos
    | 1 =>
        cases found
        exact Nat.one_pos
    | address + 2 => simp [nested, get?] at found

theorem acyclic_nested (held : Bool) : (nested held).Acyclic := by
  apply acyclic_of_rank id
  intro address other points
  obtain ⟨rfl, rfl⟩ := pointsTo_nested_iff.mp points
  exact Nat.zero_lt_one

end Store

namespace Value

/-- A lock around the shared cell, and a set with the shared text before another. -/
def locked (poisoned : Bool) : Value :=
  .node .vector [.node (.mutex poisoned) [.handle .rc 1], .node .treeSet [.handle .rc 0, .text "rind"]]

theorem live_locked (held poisoned : Bool) : (Store.nested held).Live (locked poisoned) := by
  intro address member
  simp only [locked, text, addresses, addressesOfAll, List.append_nil, List.singleton_append, List.mem_cons,
    List.not_mem_nil, or_false] at member
  rcases member with rfl | rfl <;> rfl

theorem unfold_locked (held poisoned : Bool) :
    (Store.nested held).unfold (locked poisoned) =
      .node .vector [.node (.mutex poisoned)
        [.shared .rc 1 [.node (.refCell held) [.shared .rc 0 [.atom (.text "core")]]]],
        .node .treeSet [.shared .rc 0 [.atom (.text "core")], .atom (.text "rind")]] := rfl

end Value

end Replica
