import Replica.Proofs.Memory.Ending
import Replica.Proofs.Memory.Likeness

/-!
How far a copy in a store without circles has to look. It goes through as many handles as stand behind each other in the
value, however often each of them is met. A limit to that many handles or to more makes no difference.
-/

namespace Replica

namespace Tree

variable {ι : Type} {sharing : Sharing} {identity : ι} {form : Form} {trees : List (Tree ι)} {bound : Nat}

mutual

/-- How many handles stand behind each other at the most. -/
def height : Tree ι → Nat
  | .atom _ => 0
  | .static _ _ => 0
  | .shared _ _ contents => heightOfAll contents + 1
  | .node _ parts => heightOfAll parts

def heightOfAll : List (Tree ι) → Nat
  | [] => 0
  | tree :: trees => max tree.height (heightOfAll trees)

end

theorem heightOfAll_le_iff : heightOfAll trees ≤ bound ↔ ∀ tree ∈ trees, tree.height ≤ bound := by
  induction trees with
  | nil => simp [heightOfAll]
  | cons tree trees ih => rw [heightOfAll, Nat.max_le, ih, List.forall_mem_cons]

theorem height_shared_le_iff :
    (shared sharing identity trees).height ≤ bound + 1 ↔ ∀ tree ∈ trees, tree.height ≤ bound := by
  rw [height, Nat.succ_le_succ_iff, heightOfAll_le_iff]

theorem height_node_le_iff : (node form trees).height ≤ bound ↔ ∀ tree ∈ trees, tree.height ≤ bound := by
  rw [height, heightOfAll_le_iff]

end Tree

namespace Value

variable {follow : Address → Option Halt} {treatment : Nat → Treatment} {value : Value} {values : List Value}
  {step : Nat}

theorem haltParts_ne_depth (each : ∀ value ∈ values, haltWith follow value ≠ some .depth) :
    haltParts follow treatment step values ≠ some .depth := by
  intro halted
  obtain ⟨place, value, inner, found, _, stopped, same⟩ := Store.exists_of_haltParts halted
  cases inner with
  | held trail => cases same
  | depth => exact each value (List.mem_of_getElem? found) stopped

theorem haltWith_ne_depth_of_handles (each : ∀ address ∈ value.addresses, follow address ≠ some .depth) :
    haltWith follow value ≠ some .depth := by
  induction value using Value.induct with
  | atom content => simp [haltWith]
  | static label text => simp [haltWith]
  | handle sharing address => exact each address (by simp [addresses])
  | node form parts ih =>
      rw [haltWith]
      split
      · simp
      · exact haltParts_ne_depth fun part member => ih part member fun address inside =>
          each address (mem_addressesOfAll.mpr ⟨part, member, inside⟩)

end Value

namespace Store

open Value

variable {store : Store} {value : Value} {sharing : Sharing} {address : Address} {contents : List Value} {bound : Nat}

/-- How many handles stand behind each other in a value. -/
def height (store : Store) (value : Value) : Nat :=
  (store.unfold value).height

theorem height_node_le_iff {form : Form} {parts : List Value} :
    store.height (.node form parts) ≤ bound ↔ ∀ part ∈ parts, store.height part ≤ bound := by
  rw [height, unfold_node, Tree.height_node_le_iff, List.forall_mem_map]
  rfl

theorem height_le_iff : store.height value ≤ bound ↔
    ∀ address ∈ value.addresses, ∀ sharing, store.height (.handle sharing address) ≤ bound := by
  induction value using Value.induct with
  | atom content => simp [height, Tree.height, addresses]
  | static label text => simp [height, Tree.height, addresses]
  | handle sharing address =>
      -- The kind of the handle does not matter.
      simp only [addresses, List.mem_singleton, forall_eq]
      exact ⟨fun low _ => low, fun low => low sharing⟩
  | node form parts ih =>
      rw [height_node_le_iff]
      constructor
      · intro low address inside
        obtain ⟨part, member, within⟩ := mem_addressesOfAll.mp inside
        exact (ih part member).mp (low part member) address within
      · intro each part member
        exact (ih part member).mpr fun address inside => each address (mem_addressesOfAll.mpr ⟨part, member, inside⟩)

section Acyclic

variable (acyclic : store.Acyclic)
include acyclic

theorem height_handle_le_iff :
    store.height (.handle sharing address) ≤ bound + 1 ↔
      ∀ content ∈ (store.contents? address).getD [], store.height content ≤ bound := by
  rw [height, unfold_handle, acyclic.unfoldAddress_depth, Tree.height_shared_le_iff, List.forall_mem_map]
  rfl

theorem height_content_lt (found : store.contents? address = some contents) (member : value ∈ contents) :
    store.height value < store.height (.handle sharing address) := by
  obtain ⟨bound, same⟩ : ∃ bound, store.height (.handle sharing address) = bound + 1 := ⟨_, rfl⟩
  have each := (height_handle_le_iff acyclic).mp (Nat.le_of_eq same)
  rw [found, Option.getD_some] at each
  exact same ▸ Nat.lt_succ_of_le (each value member)

/-- As many handles as there are slots can stand behind each other in an allocation. -/
theorem height_le_depth : store.height value ≤ store.depth := by
  obtain ⟨rank, bounded, falls⟩ := acyclic.exists_rank
  have below (address : Address) (sharing : Sharing) : store.height (.handle sharing address) ≤ rank address + 1 := by
    generalize isRank : rank address = level
    induction level using Nat.strongRecOn generalizing address sharing with
    | ind level ih =>
        refine (height_handle_le_iff acyclic).mpr fun content member => ?_
        refine height_le_iff.mpr fun other inside sharing => ?_
        cases found : store.contents? address with
        | none => simp [found] at member
        | some contents =>
            rw [found, Option.getD_some] at member
            have lower : rank other < level :=
              isRank ▸ falls address other ⟨contents, found, mem_addressesOfAll.mpr ⟨content, member, inside⟩⟩
            exact Nat.le_trans (ih (rank other) lower other sharing rfl) lower
  exact height_le_iff.mpr fun address _ sharing =>
    Nat.le_trans (below address sharing) (Nat.succ_le_succ (bounded address))

/-- A copy that may follow as many handles as stand behind each other does not stop for want of more. -/
theorem haltWith_ne_depth {depth : Nat} (enough : store.height value ≤ depth) :
    haltWith (store.haltAt depth) value ≠ some .depth := by
  induction depth generalizing value with
  | zero =>
      refine haltWith_ne_depth_of_handles fun address inside => ?_
      exact absurd (height_le_iff.mp enough address inside .rc) (Nat.not_succ_le_zero _)
  | succ depth ih =>
      refine haltWith_ne_depth_of_handles fun address inside => ?_
      have each := (height_handle_le_iff acyclic).mp (height_le_iff.mp enough address inside .rc)
      exact haltParts_ne_depth fun content member => ih (each content member)

/-- What all nodes of the unfolded value are, all nodes are that the value leads to. -/
theorem leadsTo_of_unfold {kind : Form → Prop} (everywhere : (store.unfold value).Everywhere fun form _ => kind form) :
    store.LeadsTo kind value := by
  intro trail
  induction trail generalizing value with
  | nil =>
      intro form parts reached
      cases reached
      rw [unfold_node] at everywhere
      exact everywhere.1
  | cons step trail ih =>
      intro form parts reached
      obtain ⟨inner, found, further⟩ := Option.bind_eq_some_iff.mp reached
      cases value with
      | atom content => cases found
      | static label text => cases found
      | handle sharing address =>
          rw [unfold_handle, acyclic.unfoldAddress_depth, Tree.Everywhere, Tree.everywhereInAll_iff,
            List.forall_mem_map] at everywhere
          obtain ⟨contents, here, place⟩ := Option.bind_eq_some_iff.mp found
          rw [here, Option.getD_some] at everywhere
          exact ih (everywhere inner (List.mem_of_getElem? place)) form parts further
      | node outer inners =>
          rw [unfold_node, Tree.Everywhere, Tree.everywhereInAll_iff, List.forall_mem_map] at everywhere
          exact ih (everywhere.2 inner (List.mem_of_getElem? found)) form parts further

/-- What holds of all nodes that a value leads to holds of all nodes that it unfolds to. -/
theorem everywhere_unfold {kind : Form → List Value → Prop} {holds : Form → List (Tree Address) → Prop}
    (implied : ∀ form parts, kind form parts → holds form (parts.map store.unfold))
    (throughout : store.Throughout kind value) : (store.unfold value).Everywhere holds := by
  -- Behind a handle the height is less, and within a node it is no more.
  have within (level : Nat) : ∀ value, store.height value ≤ level → store.Throughout kind value →
      (store.unfold value).Everywhere holds := by
    induction level using Nat.strongRecOn with
    | ind level ih =>
        intro value low throughout
        induction value using Value.induct with
        | atom content => trivial
        | static label text => trivial
        | handle sharing address =>
            rw [unfold_handle, acyclic.unfoldAddress_depth, Tree.Everywhere, Tree.everywhereInAll_iff,
              List.forall_mem_map]
            intro content member
            cases found : store.contents? address with
            | none => simp [found] at member
            | some contents =>
                rw [found, Option.getD_some] at member
                have less := Nat.lt_of_lt_of_le (height_content_lt acyclic found member) low
                exact ih _ less content (Nat.le_refl _) (throughout.of_contents found member)
        | node form parts ihParts =>
            rw [unfold_node, Tree.Everywhere, Tree.everywhereInAll_iff, List.forall_mem_map]
            refine ⟨implied form parts throughout.self, fun part member => ?_⟩
            exact ihParts part member (height_node_le_iff.mp low part member) (throughout.of_part member)
  exact within _ value (Nat.le_refl _) throughout

/-- If every part is copied deep, a copy has to follow all handles that stand behind each other. -/
theorem height_le_of_haltWith {depth : Nat} (leads : store.LeadsTo Tree.Owning value)
    (ends : haltWith (store.haltAt depth) value = none) : store.height value ≤ depth := by
  induction depth generalizing value with
  | zero =>
      refine height_le_iff.mpr fun address inside => ?_
      obtain ⟨ended, _⟩ := haltWith_handle_of_leadsTo leads ends address inside .rc
      cases ended
  | succ depth ih =>
      refine height_le_iff.mpr fun address inside sharing => ?_
      obtain ⟨ended, further⟩ := haltWith_handle_of_leadsTo leads ends address inside sharing
      rw [haltWith, haltAt, haltParts_deep_eq_none_iff] at ended
      refine (height_handle_le_iff acyclic).mpr fun content member => ?_
      cases found : store.contents? address with
      | none => simp [found] at member
      | some contents =>
          rw [found, Option.getD_some] at member ended
          exact ih (further.of_contents found member) (ended content member)

end Acyclic

end Store

namespace Copying

theorem halt_eq_some_iff {α : Type} {outcome : Except Halt α × Store} {reason : Halt} :
    halt outcome = some reason ↔ outcome.1 = .error reason := by
  obtain ⟨result, later⟩ := outcome
  cases result with
  | ok result => simp [halt]
  | error reason => simp [halt]

end Copying

namespace Value

open Copying Store

/-- A copy in a store without circles ends, with a copy or at a cell that somebody changes. It goes through no more
handles than stand behind each other in the value, so that this height falls with each handle and no limit from the
height on makes a difference. Where every part is copied deep, a smaller limit is too small. -/
theorem copyTo_ends_at_height {store : Store} {value : Value} (sound : store.Sound) (acyclic : store.Acyclic)
    (live : store.Live value) :
    ((∃ copy later, value.copy.run store = (.ok copy, later)) ∨
      ∃ trail later, value.copy.run store = (.error (.held trail), later) ∧ store.HeldAt trail value) ∧
    (∀ depth, store.height value ≤ depth → copyTo depth value store = value.copy.run store) ∧
    store.height value ≤ store.depth ∧
    (∀ sharing address contents, store.contents? address = some contents → ∀ content ∈ contents,
      store.height content < store.height (.handle sharing address)) ∧
    (∀ form parts, ∀ part ∈ parts, store.height part ≤ store.height (.node form parts)) ∧
    (((store.unfold value).Everywhere fun form _ => Tree.Owning form) → (∀ trail, ¬ store.HeldAt trail value) →
      ∀ depth < store.height value, (copyTo depth value store).1 = .error .depth) := by
  have stops (depth : Nat) : halt (copyTo depth value store) = haltWith (store.haltAt depth) value :=
    halt_copyWith sound live (fun _ _ _ => halt_copyAllocation sound) (.refl store)
  have enough : (copyTo (store.height value) value store).1 ≠ .error .depth := by
    rw [ne_eq, ← halt_eq_some_iff, stops]
    exact haltWith_ne_depth acyclic (Nat.le_refl _)
  -- More depth changes no outcome but that of too little depth.
  have settled (depth : Nat) (less : store.height value ≤ depth) :
      copyTo depth value store = copyTo (store.height value) value store :=
    copyTo_extends less value store _ _ rfl enough
  refine ⟨?_, fun depth less => (settled depth less).trans (settled store.depth (height_le_depth acyclic)).symm,
    height_le_depth acyclic, fun _ _ _ found _ => height_content_lt acyclic found,
    fun _ _ => height_node_le_iff.mp (Nat.le_refl _), ?_⟩
  · have ends := copy_ne_depth sound acyclic live
    cases made : value.copy.run store with
    | mk result later =>
        rw [made] at ends
        cases result with
        | ok copy => exact .inl ⟨copy, later, rfl⟩
        | error halt =>
            cases halt with
            | depth => exact absurd rfl ends
            | held trail => exact .inr ⟨trail, later, rfl, (heldAt_of_copy sound live made).1⟩
  · intro owning unheld depth less
    rw [← halt_eq_some_iff, stops]
    cases stopped : haltWith (store.haltAt depth) value with
    | none =>
        have low := height_le_of_haltWith acyclic (leadsTo_of_unfold acyclic owning) stopped
        exact absurd low (Nat.not_le_of_lt less)
    | some reason =>
        cases reason with
        | depth => rfl
        | held trail =>
            exact absurd (heldAt_of_haltWith (fun sharing _ _ => heldAt_of_haltAt sharing) stopped) (unheld trail)

/-- A text behind a counted handle, in a cell behind another. -/
theorem copyTo_ends_at_height_locked :
    (Store.nested false).Sound ∧ (Store.nested false).Acyclic ∧ (Store.nested false).Live (locked true) ∧
      (Store.nested false).height (locked true) = 2 ∧
      (∀ depth, 2 ≤ depth → copyTo depth (locked true) (Store.nested false) =
        (locked true).copy.run (Store.nested false)) ∧
      ∀ depth < 2, (copyTo depth (locked true) (Store.nested false)).1 = .error .depth := by
  have live := live_locked false true
  have height : (Store.nested false).height (locked true) = 2 := rfl
  obtain ⟨_, settled, _, _, _, tooFew⟩ := copyTo_ends_at_height (sound_nested false) (acyclic_nested false) live
  rw [height] at settled tooFew
  have memberwise := Tree.memberwise_locked true
  obtain ⟨_, made, _⟩ := Tree.exists_alike_copy memberwise
  refine ⟨sound_nested false, acyclic_nested false, live, height, settled, tooFew ?_ fun trail held => ?_⟩
  · exact memberwise.imp fun _ _ memberwise => memberwise.orderly.owning
  · exact Tree.copy_ne_ok_of_heldAt ((heldAt_unfold_iff (acyclic_nested false)).mpr held) made

end Value

end Replica
