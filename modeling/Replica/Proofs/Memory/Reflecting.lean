import Replica.Proofs.Memory.Showing

/-!
What is shown of copies. The copy of a value shows the copy of the tree that the value shows, whatever the state of its
collections is.
-/

namespace Replica

namespace Tree

variable {ι : Type} {tree : Tree ι} {copied : Tree (Option ι)}

/-- There are copies only of trees without cells that somebody changes. -/
theorem free_of_copy (owning : tree.Everywhere fun form _ => Owning form) (made : tree.copy = .ok copied) :
    tree.Everywhere fun form _ => form ≠ .refCell true ∧ Owning form := by
  induction tree using Tree.induct generalizing copied with
  | atom content => trivial
  | static label text => trivial
  | shared sharing identity contents ih =>
      obtain ⟨copies, each, rfl⟩ := copy_shared_eq_ok_iff.mp made
      simp only [Everywhere, everywhereInAll_iff] at owning ⊢
      intro content member
      obtain ⟨copy, _, contentMade⟩ := List.exists_of_forall₂ each content member
      exact ih content member (owning content member) contentMade
  | node form parts ih =>
      simp only [Everywhere, everywhereInAll_iff] at owning ⊢
      obtain ⟨free, copies, each, rfl⟩ := (copy_node_of_owning owning.1).mp made
      refine ⟨⟨free, owning.1⟩, fun part member => ?_⟩
      obtain ⟨copy, _, partMade⟩ := List.exists_of_forall₂ each part member
      exact ih part member (owning.2 part member) partMade

theorem gather_forget_kept (form : Form) (parts : List (Tree ι)) :
    (form.gather partKey absorb (parts.map forget)).kept = (form.gather partKey absorb parts).kept.map forget :=
  congrArg Gathered.kept (gather_mapped (fun _ => ()) form parts)

/-- The copy of a copy is the copy once more, apart from identities. -/
theorem copy_forget_of_copy (owning : tree.Everywhere fun form _ => Owning form) (made : tree.copy = .ok copied) :
    ∃ again, copied.forget.copy = .ok again ∧ again.forget = copied.forget := by
  refine ⟨copied.map fun _ => none, ?_, forget_map _ copied⟩
  rw [forget, copy_map, copy_of_settled (settled_copy owning made), Except.map, map_map]
  rfl

end Tree

namespace Store

open Value

variable {store : Store}

/-- What a part becomes that meets an equal one is shown by what its tree becomes. -/
theorem Shows.absorb {former new : Value} {formerTree newTree : Tree Unit} (formerShows : store.Shows former formerTree)
    (newShows : store.Shows new newTree) : store.Shows (former.absorb new).1 (formerTree.absorb newTree).1 := by
  fun_cases Value.absorb former new with
  | case1 key value otherKey newValue =>
      cases formerShows with
      | node _ each =>
          cases newShows with
          | node _ others =>
              obtain ⟨keyTree, rest, keyShown, restShown, rfl⟩ := List.forall₂_cons_left_iff.mp each
              obtain ⟨valueTree, _, _, nothing, rfl⟩ := List.forall₂_cons_left_iff.mp restShown
              obtain ⟨otherTree, further, _, furtherShown, rfl⟩ := List.forall₂_cons_left_iff.mp others
              obtain ⟨newTree, _, newShown, none, rfl⟩ := List.forall₂_cons_left_iff.mp furtherShown
              cases nothing
              cases none
              exact .node .entry (.cons keyShown (.cons newShown .nil))
  | case2 =>
      rename_i apart
      -- Trees that are entries are shown of entries only.
      fun_cases Tree.absorb formerTree newTree with
      | case1 key value otherKey newValue =>
          cases formerShows with
          | node _ each =>
              cases newShows with
              | node _ others =>
                  obtain ⟨_, _, rfl⟩ := List.length_eq_two.mp each.length_eq
                  obtain ⟨_, _, rfl⟩ := List.length_eq_two.mp others.length_eq
                  exact (apart _ _ _ _ rfl rfl).elim
      | case2 => exact formerShows

end Store

namespace Value

open Store

variable {old store later : Store} {held : List Address} {depth : Nat} {value copy : Value}

/-- The copy shows the copy of what is shown of the value, if every part is copied deep. -/
def Reflects (old later : Store) (value copy : Value) : Prop :=
  ∀ tree, old.Shows value tree → (tree.Everywhere fun form _ => Tree.Owning form) →
    ∃ copied, tree.copy = .ok copied ∧ later.Shows copy copied.forget

theorem exists_copies_of_reflects {values copies : List Value} {trees : List (Tree Unit)}
    (reflects : List.Forall₂ (Reflects old later) values copies) (shows : List.Forall₂ old.Shows values trees)
    (owning : ∀ tree ∈ trees, tree.Everywhere fun form _ => Tree.Owning form) :
    ∃ copied, List.Forall₂ (fun tree copy => tree.copy = .ok copy) trees copied ∧
      List.Forall₂ later.Shows copies (copied.map Tree.forget) := by
  induction reflects generalizing trees with
  | nil =>
      cases shows
      exact ⟨[], .nil, .nil⟩
  | cons first _ ih =>
      cases shows with
      | cons shown others =>
          obtain ⟨firstOwning, otherOwning⟩ := List.forall_mem_cons.mp owning
          obtain ⟨copy, made, here⟩ := first _ shown firstOwning
          obtain ⟨copied, each, rest⟩ := ih others otherOwning
          exact ⟨copy :: copied, .cons made each, .cons here rest⟩

/-- Copies of allocations through so many handles reflect them. -/
def ReflectsAt (old : Store) (depth : Nat) : Prop :=
  ∀ sharing address held store new later, (old.get? address).isSome → Offshoot old (fun _ => True) held store →
    copyAllocation depth address store = (.ok new, later) →
      Reflects old later (.handle sharing address) (.handle sharing new)

section Copies

variable (sound : old.Sound)
include sound

theorem inTurn_reflects {values copies : List Value} (live : ∀ value ∈ values, old.Live value)
    (offshoot : Offshoot old (fun _ => True) held store)
    (each : ∀ value ∈ values, ∀ held store copy later, Offshoot old (fun _ => True) held store →
      copyTo depth value store = (.ok copy, later) → Reflects old later value copy)
    (made : InTurn (copyTo depth) store values copies later) :
    List.Forall₂ (Reflects old later) values copies := by
  refine InTurn.forall₂ sound (fun store => Reflects old store) ?_ live offshoot each made
  intro before after store later value copy earlier grown follows isNew wasLive isLive reflects tree shows owning
  obtain ⟨copied, made, shown⟩ := reflects tree shows owning
  exact ⟨copied, made, shown.of_follows follows (grown.growth.sound sound) isLive⟩

/-- Copies of values and copies of the trees that these show are found by the keys of their originals. -/
theorem partKeys_of_inTurn {middle : Store} {parts copies : List Value} {trees : List (Tree Unit)}
    {copied : List (Tree (Option Unit))} (enough : depth ≤ old.depth) (live : ∀ part ∈ parts, old.Live part)
    (offshoot : Offshoot old (fun _ => True) held store) (inTurn : InTurn (copyTo depth) store parts copies middle)
    (each : List.Forall₂ old.Shows parts trees)
    (owning : ∀ tree ∈ trees, tree.Everywhere fun form _ => Tree.Owning form)
    (made : List.Forall₂ (fun tree copy => tree.copy = .ok copy) trees copied) :
    copies.map middle.partKey = (copied.map Tree.forget).map Tree.partKey := by
  have plain : ∀ tree ∈ trees, tree.Everywhere fun form _ => form ≠ .refCell true ∧ Tree.Owning form := by
    intro tree inside
    obtain ⟨_, _, treeMade⟩ := List.exists_of_forall₂ made tree inside
    exact Tree.free_of_copy (owning tree inside) treeMade
  rw [inTurn.partKeys_eq sound enough live offshoot, ← Shows.partKeys_eq each plain,
    ← Tree.map_eq_of_copies (fun _ _ => Tree.partKey_copy) made, List.map_map]
  exact List.map_congr_left fun tree _ => (Tree.partKey_map _ tree).symm

theorem copyTo_reflects_of_handles (reflectsAt : ReflectsAt old depth) (enough : depth ≤ old.depth)
    (live : old.Live value) (offshoot : Offshoot old (fun _ => True) held store)
    (made : copyTo depth value store = (.ok copy, later)) : Reflects old later value copy := by
  induction value using Value.induct generalizing held store copy later with
  | atom content =>
      intro tree shows owning
      cases made
      cases shows
      exact ⟨_, rfl, .atom content⟩
  | static label text =>
      intro tree shows owning
      cases made
      cases shows
      exact ⟨_, rfl, .static label text⟩
  | handle sharing address =>
      obtain ⟨new, followed, rfl⟩ := copyTo_handle_eq_ok_iff.mp made
      exact reflectsAt sharing address held store new later (live address (by simp [addresses])) offshoot followed
  | node form parts ih =>
      intro tree shows owning
      cases shows with
      | @node _ _ trees each =>
          simp only [Tree.Everywhere, Tree.everywhereInAll_iff] at owning
          have liveParts : ∀ part ∈ parts, old.Live part := live_of_part live
          have grown := copyTo_grown sound live offshoot made
          have isLive : later.Live copy := grown.offshoot.growth.live_of_held (by simp +contextual)
          obtain ⟨free, copies, middle, inTurn, assembled⟩ := (copyTo_node_eq_ok_iff owning.1).mp made
          have reflects := inTurn_reflects sound liveParts offshoot
            (fun part member held store copy later offshoot made =>
              ih part member (liveParts part member) offshoot made) inTurn
          obtain ⟨copied, treesMade, shown⟩ := exists_copies_of_reflects reflects each owning.2
          refine ⟨_, (Tree.copy_node_of_owning owning.1).mpr ⟨free, copied, treesMade, rfl⟩, ?_⟩
          -- What is found by the same keys is put together alike.
          have keys := partKeys_of_inTurn sound enough liveParts offshoot inTurn each owning.2 treesMade
          have kept : List.Forall₂ middle.Shows (middle.gather form.copied copies).kept
              (form.copied.gather Tree.partKey Tree.absorb (copied.map Tree.forget)).kept :=
            Form.forall₂_gather (fun _ _ formerShows _ _ => formerShows.absorb) form.copied keys shown
          rw [Tree.forget_node, ← Tree.gather_forget_kept]
          rw [Store.assemble, Prod.mk.injEq] at assembled
          obtain ⟨rfl, rfl⟩ := assembled
          refine .node _ (List.forall₂_of_mem kept fun part member tree _ shown => ?_)
          exact shown.of_follows (follows_release _ middle) (grown.offshoot.growth.sound sound)
            (live_of_part isLive part member)

theorem copyAllocation_reflects (enough : depth ≤ old.depth) : ReflectsAt old depth := by
  induction depth with
  | zero =>
      intro sharing address held store new later live offshoot made
      cases made
  | succ depth ih =>
      intro sharing address held store new later live offshoot made tree shows owning
      have bound := lt_size_of_isSome live
      obtain ⟨copies, middle, inTurn, rfl, rfl⟩ := copyAllocation_eq_ok_iff.mp made
      cases shows with
      | @handle _ _ contents trees found each =>
          simp only [Tree.Everywhere, Tree.everywhereInAll_iff] at owning
          rw [offshoot.growth.former_contents bound, found, Option.getD_some] at inTurn
          have liveParts : ∀ part ∈ contents, old.Live part := fun part member => sound.live_of_contents found member
          have reflects := inTurn_reflects sound liveParts offshoot
            (fun part member held store copy later offshoot made =>
              copyTo_reflects_of_handles sound (ih (by omega)) (by omega) (liveParts part member) offshoot made) inTurn
          obtain ⟨copied, treesMade, shown⟩ := exists_copies_of_reflects reflects each owning
          refine ⟨_, Tree.copy_shared_eq_ok_iff.mpr ⟨copied, treesMade, rfl⟩, ?_⟩
          obtain ⟨grown, new, _⟩ := inTurn.grown sound liveParts offshoot
          have allocated := grown.allocate new
          have here : (middle.allocate copies).2.contents? middle.slots.size = some copies := by
            simp [contents?, get?_allocate]
          have laterSound := allocated.growth.sound sound
          rw [Tree.forget, Tree.map, Tree.mapAll_eq_map]
          refine .handle sharing here (List.forall₂_of_mem shown ?_)
          exact fun copy member tree _ shown =>
            shown.of_follows (follows_allocate copies middle) laterSound (laterSound.live_of_contents here member)

/-- The copy of a value shows the copy of the tree of the value. -/
theorem copyTo_reflects (enough : depth ≤ old.depth) (live : old.Live value)
    (offshoot : Offshoot old (fun _ => True) held store) (made : copyTo depth value store = (.ok copy, later)) :
    Reflects old later value copy :=
  copyTo_reflects_of_handles sound (copyAllocation_reflects sound enough) enough live offshoot made

end Copies

end Value

end Replica
