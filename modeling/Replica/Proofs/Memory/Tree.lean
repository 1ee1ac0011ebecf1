import Replica.Memory.Copy
import Mathlib.Data.List.Basic

/-!
Unfolded values: trees in which each handle stands together with the contents of its allocation. What
several handles lead to stands there several times.
-/

namespace Replica

/-- A value with all that it reaches. Allocations are told apart by an identity of type `ι`. -/
inductive Tree (ι : Type) where
  | atom (content : Atom)
  | static (label : Nat) (text : String)
  | shared (sharing : Sharing) (identity : ι) (contents : List (Tree ι))
  | node (form : Form) (parts : List (Tree ι))

namespace Tree

variable {ι κ μ : Type}

theorem induct {motive : Tree ι → Prop} (atom : ∀ content, motive (.atom content))
    (static : ∀ label text, motive (.static label text))
    (shared : ∀ sharing identity contents, (∀ tree ∈ contents, motive tree) →
      motive (.shared sharing identity contents))
    (node : ∀ form parts, (∀ tree ∈ parts, motive tree) → motive (.node form parts)) :
    ∀ tree, motive tree := by
  intro tree
  refine Tree.rec (motive_2 := fun trees => ∀ tree ∈ trees, motive tree) atom static shared node
    ?_ ?_ tree
  · intro tree impossible
    cases impossible
  · intro first rest firstHolds restHold tree member
    rcases List.mem_cons.mp member with same | later
    · exact same ▸ firstHolds
    · exact restHold tree later

mutual

def map (f : ι → κ) : Tree ι → Tree κ
  | .atom content => .atom content
  | .static label text => .static label text
  | .shared sharing identity contents => .shared sharing (f identity) (mapAll f contents)
  | .node form parts => .node form (mapAll f parts)

def mapAll (f : ι → κ) : List (Tree ι) → List (Tree κ)
  | [] => []
  | tree :: trees => tree.map f :: mapAll f trees

end

@[simp]
theorem mapAll_eq_map (f : ι → κ) (trees : List (Tree ι)) : mapAll f trees = trees.map (map f) := by
  induction trees with
  | nil => rfl
  | cons tree trees ih => simp [mapAll, ih]

theorem map_map (f : ι → κ) (g : κ → μ) (tree : Tree ι) : (tree.map f).map g = tree.map (g ∘ f) := by
  induction tree using Tree.induct with
  | atom content => rfl
  | static label text => rfl
  | shared sharing identity contents ih =>
      simpa [map] using ih
  | node form parts ih =>
      simpa [map] using ih

/-- The value apart from identities. -/
def forget (tree : Tree ι) : Tree Unit :=
  tree.map fun _ => ()

theorem forget_map (f : ι → κ) (tree : Tree ι) : (tree.map f).forget = tree.forget := by
  exact map_map f (fun _ => ()) tree

mutual

/-- The allocations that the handles lead to, each as often as there are handles to it. -/
def identities : Tree ι → List ι
  | .atom _ => []
  | .static _ _ => []
  | .shared _ identity contents => identity :: identitiesOfAll contents
  | .node _ parts => identitiesOfAll parts

def identitiesOfAll : List (Tree ι) → List ι
  | [] => []
  | tree :: trees => tree.identities ++ identitiesOfAll trees

end

@[simp]
theorem identitiesOfAll_eq_flatMap (trees : List (Tree ι)) :
    identitiesOfAll trees = trees.flatMap identities := by
  induction trees with
  | nil => rfl
  | cons tree trees ih => simp [identitiesOfAll, ih]

theorem identities_map (f : ι → κ) (tree : Tree ι) :
    (tree.map f).identities = tree.identities.map f := by
  induction tree using Tree.induct with
  | atom content => rfl
  | static label text => rfl
  | shared sharing identity contents ih =>
      simp only [map, identities, mapAll_eq_map, identitiesOfAll_eq_flatMap, List.map_cons,
        List.flatMap_map, List.map_flatMap, List.cons.injEq, true_and]
      exact List.flatMap_congr ih
  | node form parts ih =>
      simp only [map, identities, mapAll_eq_map, identitiesOfAll_eq_flatMap, List.flatMap_map,
        List.map_flatMap]
      exact List.flatMap_congr ih

theorem map_congr {f g : ι → κ} {tree : Tree ι}
    (same : ∀ identity ∈ tree.identities, f identity = g identity) : tree.map f = tree.map g := by
  induction tree using Tree.induct with
  | atom content => rfl
  | static label text => rfl
  | shared sharing identity contents ih =>
      simp only [identities, identitiesOfAll_eq_flatMap, List.mem_cons, List.mem_flatMap] at same
      simp only [map, mapAll_eq_map, same identity (Or.inl rfl)]
      rw [List.map_congr_left fun content member =>
        ih content member fun one inside => same one (Or.inr ⟨content, member, inside⟩)]
  | node form parts ih =>
      simp only [identities, identitiesOfAll_eq_flatMap, List.mem_flatMap] at same
      simp only [map, mapAll_eq_map]
      rw [List.map_congr_left fun part member =>
        ih part member fun one inside => same one ⟨part, member, inside⟩]

/-! Trees that differ in nothing but identities. -/

theorem length_identities_forget (tree : Tree ι) :
    tree.forget.identities.length = tree.identities.length := by
  rw [forget, identities_map, List.length_map]

theorem map_eq_of_identities {f : ι → κ} {trees : List (Tree ι)} {others : List (Tree κ)}
    (each : ∀ tree ∈ trees, ∀ other : Tree κ, tree.forget = other.forget →
      tree.identities.map f = other.identities → tree.map f = other)
    (same : trees.map forget = others.map forget)
    (renamed : (trees.flatMap identities).map f = others.flatMap identities) :
    trees.map (map f) = others := by
  induction trees generalizing others with
  | nil =>
      rw [List.map_nil, eq_comm, List.map_eq_nil_iff] at same
      rw [same, List.map_nil]
  | cons tree trees ih =>
      rcases others with _ | ⟨other, others⟩
      · simp at same
      rw [List.map_cons, List.map_cons, List.cons.injEq] at same
      rw [List.flatMap_cons, List.flatMap_cons, List.map_append] at renamed
      -- Trees of the same shape have as many handles, so that the renamed identities split where
      -- the first tree ends.
      have lengths : (tree.identities.map f).length = other.identities.length := by
        rw [List.length_map, ← length_identities_forget tree, same.1, length_identities_forget]
      obtain ⟨firstRenamed, restRenamed⟩ := List.append_inj renamed lengths
      rw [List.map_cons, each tree (by simp) other same.1 firstRenamed,
        ih (fun next member => each next (by simp [member])) same.2 restRenamed]

theorem map_eq_of_forget_eq {f : ι → κ} {tree : Tree ι} {other : Tree κ}
    (same : tree.forget = other.forget)
    (renamed : tree.identities.map f = other.identities) : tree.map f = other := by
  induction tree using Tree.induct generalizing other with
  | atom content =>
      cases other <;> simp_all [forget, map]
  | static label text =>
      cases other <;> simp_all [forget, map]
  | shared sharing identity contents ih =>
      cases other with
      | shared otherSharing otherIdentity others =>
          simp only [forget, map, mapAll_eq_map, shared.injEq, true_and] at same
          simp only [identities, identitiesOfAll_eq_flatMap, List.map_cons, List.cons.injEq] at renamed
          simp only [map, mapAll_eq_map]
          rw [same.1, renamed.1,
            map_eq_of_identities (fun tree member other => ih tree member) same.2 renamed.2]
      | _ => simp [forget, map] at same
  | node form parts ih =>
      cases other with
      | node otherForm others =>
          simp only [forget, map, mapAll_eq_map, node.injEq] at same
          simp only [identities, identitiesOfAll_eq_flatMap] at renamed
          simp only [map, mapAll_eq_map]
          rw [same.1, map_eq_of_identities (fun tree member other => ih tree member) same.2 renamed]
      | _ => simp [forget, map] at same

/-- If no allocation occurs twice in a tree, all trees of the same shape come from it by new names. -/
theorem exists_map_eq [DecidableEq ι] [Inhabited κ] {tree : Tree ι} {other : Tree κ}
    (same : tree.forget = other.forget) (distinct : tree.identities.Nodup) :
    ∃ rename : ι → κ, tree.map rename = other := by
  have lengths : tree.identities.length = other.identities.length := by
    rw [← length_identities_forget tree, same, length_identities_forget]
  refine ⟨fun identity => other.identities.getD (tree.identities.idxOf identity) default, ?_⟩
  apply map_eq_of_forget_eq same
  apply List.ext_getElem
  · rw [List.length_map, lengths]
  · intro place inside otherInside
    rw [List.getElem_map, distinct.idxOf_getElem]
    simp [otherInside]

mutual

/-- Whether all nodes, however deep, have a property. -/
def Everywhere (holds : Form → List (Tree ι) → Prop) : Tree ι → Prop
  | .atom _ => True
  | .static _ _ => True
  | .shared _ _ contents => EverywhereInAll holds contents
  | .node form parts => holds form parts ∧ EverywhereInAll holds parts

def EverywhereInAll (holds : Form → List (Tree ι) → Prop) : List (Tree ι) → Prop
  | [] => True
  | tree :: trees => tree.Everywhere holds ∧ EverywhereInAll holds trees

end

@[simp]
theorem everywhereInAll_iff (holds : Form → List (Tree ι) → Prop) (trees : List (Tree ι)) :
    EverywhereInAll holds trees ↔ ∀ tree ∈ trees, tree.Everywhere holds := by
  induction trees with
  | nil => simp [EverywhereInAll]
  | cons tree trees ih => simp [EverywhereInAll, ih]

theorem Everywhere.imp {holds also : Form → List (Tree ι) → Prop}
    (implied : ∀ form parts, holds form parts → also form parts) {tree : Tree ι}
    (everywhere : tree.Everywhere holds) : tree.Everywhere also := by
  induction tree using Tree.induct with
  | atom content => trivial
  | static label text => trivial
  | shared sharing identity contents ih =>
      simp only [Everywhere, everywhereInAll_iff] at everywhere ⊢
      exact fun tree member => ih tree member (everywhere tree member)
  | node form parts ih =>
      simp only [Everywhere, everywhereInAll_iff] at everywhere ⊢
      exact ⟨implied form parts everywhere.1, fun tree member => ih tree member (everywhere.2 tree member)⟩

theorem Everywhere.of_map {f : ι → κ} {holds : Form → List (Tree κ) → Prop}
    {also : Form → List (Tree ι) → Prop}
    (implied : ∀ form parts, holds form (parts.map (map f)) → also form parts) {tree : Tree ι}
    (everywhere : (tree.map f).Everywhere holds) : tree.Everywhere also := by
  induction tree using Tree.induct with
  | atom content => trivial
  | static label text => trivial
  | shared sharing identity contents ih =>
      simp only [map, mapAll_eq_map, Everywhere, everywhereInAll_iff, List.forall_mem_map] at everywhere ⊢
      exact fun tree member => ih tree member (everywhere tree member)
  | node form parts ih =>
      simp only [map, mapAll_eq_map, Everywhere, everywhereInAll_iff, List.forall_mem_map] at everywhere ⊢
      exact ⟨implied form parts everywhere.1, fun tree member => ih tree member (everywhere.2 tree member)⟩

theorem Everywhere.map {holds : Form → List (Tree ι) → Prop} {also : Form → List (Tree κ) → Prop} {f : ι → κ}
    (implied : ∀ form parts, holds form parts → also form (parts.map (Tree.map f))) {tree : Tree ι}
    (everywhere : tree.Everywhere holds) : (tree.map f).Everywhere also := by
  induction tree using Tree.induct with
  | atom content => trivial
  | static label text => trivial
  | shared sharing identity contents ih =>
      simp only [Tree.map, mapAll_eq_map, Everywhere, everywhereInAll_iff, List.forall_mem_map] at everywhere ⊢
      exact fun tree member => ih tree member (everywhere tree member)
  | node form parts ih =>
      simp only [Tree.map, mapAll_eq_map, Everywhere, everywhereInAll_iff, List.forall_mem_map] at everywhere ⊢
      exact ⟨implied form parts everywhere.1, fun tree member => ih tree member (everywhere.2 tree member)⟩

end Tree

namespace Key

/-- The key of what holds a single thing that is found by a key. -/
def alone : List Key → Key
  | [key] => key
  | _ => .other

/-- The key of what has several parts, by the keys of these. -/
def ofForm (cells : Bool) (form : Form) (keys : List Key) : Key :=
  match form with
  | .tuple => if keys.length = 2 then ofParts keys else .other
  | .vector => ofParts keys
  | .box => alone keys
  | .refCell _ => if cells then alone keys else .other
  | _ => .other

end Key

namespace Tree

variable {ι κ : Type}

mutual

/-- What keyed collections see of a tree, cells included. -/
def key : Tree ι → Key
  | .atom content => Key.ofAtom content
  | .shared .rc _ [content] => content.key
  | .node .tuple [first, second] => Key.ofParts [first.key, second.key]
  | .node .vector parts => Key.ofParts (keys parts)
  | .node .box [content] => content.key
  | .node (.refCell _) [content] => content.key
  | _ => .other

def keys : List (Tree ι) → List Key
  | [] => []
  | tree :: trees => tree.key :: keys trees

end

@[simp]
theorem keys_eq_map (trees : List (Tree ι)) : keys trees = trees.map key := by
  induction trees with
  | nil => rfl
  | cons tree trees ih => simp [keys, ih]

theorem key_counted (identity : ι) (contents : List (Tree ι)) :
    (shared .rc identity contents).key = Key.alone (contents.map key) := by
  rcases contents with _ | ⟨content, _ | ⟨next, rest⟩⟩ <;> rfl

theorem key_node (form : Form) (parts : List (Tree ι)) : (node form parts).key = Key.ofForm true form (parts.map key) := by
  cases form with
  | vector => rw [key, keys_eq_map, Key.ofForm]
  | tuple | box | refCell => rcases parts with _ | ⟨first, _ | ⟨second, _ | ⟨third, rest⟩⟩⟩ <;> rfl
  | _ => rfl

theorem key_shared_congr {sharing : Sharing} {identity : ι} {otherIdentity : κ} {contents : List (Tree ι)}
    {others : List (Tree κ)} (same : others.map key = contents.map key) :
    (shared sharing otherIdentity others).key = (shared sharing identity contents).key := by
  cases sharing with
  | rc => rw [key_counted, key_counted, same]
  | _ => rfl

theorem key_node_congr {form : Form} {parts : List (Tree ι)} {others : List (Tree κ)}
    (same : others.map key = parts.map key) : (node form others).key = (node form parts).key := by
  rw [key_node, key_node, same]

theorem key_map (f : ι → κ) (tree : Tree ι) : (tree.map f).key = tree.key := by
  induction tree using Tree.induct with
  | atom content => rfl
  | static label text => rfl
  | shared sharing identity contents ih =>
      simp only [map, mapAll_eq_map]
      exact key_shared_congr (by simpa using ih)
  | node form parts ih =>
      simp only [map, mapAll_eq_map]
      exact key_node_congr (by simpa using ih)

/-- What a part of a collection is found by: of an entry its key. -/
def partKey : Tree ι → Key
  | .node .entry (key :: _) => key.key
  | tree => tree.key

theorem partKey_map (f : ι → κ) (tree : Tree ι) : (tree.map f).partKey = tree.partKey := by
  rcases tree with content | ⟨label, text⟩ | ⟨sharing, identity, contents⟩ | ⟨form, parts⟩
  · rfl
  · rfl
  · exact key_map f (.shared sharing identity contents)
  · have whole := key_map f (.node form parts)
    simp only [map, mapAll_eq_map] at whole ⊢
    cases form with
    | entry =>
        cases parts with
        | nil => exact whole
        | cons key rest => exact key_map f key
    | _ => exact whole

/-- A part that meets an equal one stays. An entry takes over the other's value. -/
def absorb : (old new : Tree ι) → Tree ι × List (Tree ι)
  | .node .entry [key, value], .node .entry [otherKey, newValue] =>
    (.node .entry [key, newValue], [otherKey, value])
  | old, new => (old, [new])

theorem partKey_absorb (former new : Tree ι) : (absorb former new).1.partKey = former.partKey := by
  fun_cases absorb former new with
  | case1 => rfl
  | case2 => rfl

end Tree

end Replica
