import Replica.Proofs.Memory.Reflecting

/-!
What copies leave as it is. A collection that stands as it would be put together anew stays so, and what a constructor
has made of the properties of a class it makes of their copies again.
-/

namespace Replica

namespace Form

/-- What the constructors of classes bring about, whatever they are given: the names of libraries are in capitals, and
sorted vectors ascend. -/
def Constructed : Form → List Key → Prop
  | .library name, _ => upper name = name
  | .sorted, keys => Key.Ascending keys
  | _, _ => True

/-- The form of the copy of what is constructed. It differs in the poison of locks, and in the constructor that an
account knows of. -/
def renewed : Form → Form
  | .account _ owner balance => .account .withBonus owner balance
  | form => form.unpoisoned

/-- What a node has whose copy has it once more. -/
structure Established (form : Form) (keys : List Key) : Prop extends Placed form keys where
  constructed : form.Constructed keys

variable {form : Form} {keys : List Key}

theorem Established.copied_eq (established : Established form keys) : form.copied = form.renewed := by
  cases form with
  | strategies counter => exact absurd rfl (established.owning counter)
  | library name => exact congrArg Form.library established.constructed
  | _ => rfl

/-- What is found by the same keys as the parts stays in place in the copy. -/
theorem Established.gather_copied {α : Type} {key : α → Key} {absorb : α → α → α × List α} {copies : List α}
    (established : Established form (copies.map key)) : form.copied.gather key absorb copies = ⟨copies, []⟩ := by
  obtain ⟨⟨_, _, ordered, hashed, queued⟩, constructed⟩ := established
  apply gather_of_settled
  · exact (Tree.ordered_copied _).mpr ordered
  · exact (Tree.hashed_copied _).mpr hashed
  · cases form <;> exact queued
  · intro isSorted
    cases form <;> cases isSorted
    exact constructed

end Form

namespace Tree

variable {ι : Type} {form : Form} {parts : List (Tree ι)} {tree : Tree ι} {change change' : Form → Form}

mutual

/-- The tree with all forms changed. -/
def mapForms (change : Form → Form) : Tree ι → Tree ι
  | .atom content => .atom content
  | .static label text => .static label text
  | .shared sharing identity contents => .shared sharing identity (mapFormsAll change contents)
  | .node form parts => .node (change form) (mapFormsAll change parts)

def mapFormsAll (change : Form → Form) : List (Tree ι) → List (Tree ι)
  | [] => []
  | tree :: trees => tree.mapForms change :: mapFormsAll change trees

end

@[simp]
theorem mapFormsAll_eq_map (change : Form → Form) (trees : List (Tree ι)) :
    mapFormsAll change trees = trees.map (mapForms change) := by
  induction trees with
  | nil => rfl
  | cons tree trees ih => rw [mapFormsAll, ih, List.map_cons]

theorem mapForms_congr (same : tree.Everywhere fun form _ => change form = change' form) :
    tree.mapForms change = tree.mapForms change' := by
  induction tree using Tree.induct with
  | atom content => rfl
  | static label text => rfl
  | shared sharing identity contents ih =>
      simp only [Everywhere, everywhereInAll_iff] at same
      simp only [mapForms, mapFormsAll_eq_map, shared.injEq, true_and]
      exact List.map_congr_left fun content member => ih content member (same content member)
  | node form parts ih =>
      simp only [Everywhere, everywhereInAll_iff] at same
      simp only [mapForms, mapFormsAll_eq_map, node.injEq, same.1, true_and]
      exact List.map_congr_left fun part member => ih part member (same.2 part member)

theorem unpoisoned_eq_mapForms (tree : Tree ι) : tree.unpoisoned = tree.mapForms Form.unpoisoned := by
  induction tree using Tree.induct with
  | atom content => rfl
  | static label text => rfl
  | shared sharing identity contents ih =>
      rw [unpoisoned_shared, mapForms, mapFormsAll_eq_map, List.map_congr_left ih]
  | node form parts ih =>
      rw [unpoisoned_node, mapForms, mapFormsAll_eq_map, List.map_congr_left ih]

/-- The tree with no lock poisoned, in which all accounts are made by the constructor that copies them. -/
def renewed (tree : Tree ι) : Tree ι :=
  tree.mapForms Form.renewed

/-- What the parts of a node have by their keys. -/
def Established (form : Form) (parts : List (Tree ι)) : Prop :=
  form.Established (parts.map partKey)

theorem Kept.established (kept : Kept form parts) : Established form parts where
  free := kept.free
  owning := kept.orderly.owning
  ordered := kept.ordered
  hashed := kept.hashed
  queued := kept.queued
  constructed := by
    have notCustom := kept.notCustom
    cases form with
    | library | sorted => exact absurd trivial notCustom
    | _ => trivial

theorem renewed_of_kept (kept : tree.Everywhere Kept) : tree.renewed = tree.unpoisoned := by
  rw [unpoisoned_eq_mapForms]
  apply mapForms_congr
  exact kept.imp fun form parts here => here.established.copied_eq.symm.trans here.copied_eq

/-- The copy of what is constructed and in order is that once more. -/
theorem copy_of_established (established : tree.Everywhere Established) :
    tree.copy = .ok (tree.renewed.map fun _ => none) := by
  induction tree using Tree.induct with
  | atom content => rfl
  | static label text => rfl
  | shared sharing identity contents ih =>
      simp only [Everywhere, everywhereInAll_iff] at established
      have each : List.Forall₂ (fun part copy => part.copy = .ok copy) contents
          (contents.map fun part => part.renewed.map fun _ => none) := by
        rw [List.forall₂_map_right_iff, List.forall₂_same]
        exact fun part member => ih part member (established part member)
      refine copy_shared_eq_ok_iff.mpr ⟨_, each, ?_⟩
      simp [renewed, mapForms, map, Function.comp_def]
  | node form parts ih =>
      simp only [Everywhere, everywhereInAll_iff] at established
      obtain ⟨here, inside⟩ := established
      have each : List.Forall₂ (fun part copy => part.copy = .ok copy) parts
          (parts.map fun part => part.renewed.map fun _ => none) := by
        rw [List.forall₂_map_right_iff, List.forall₂_same]
        exact fun part member => ih part member (inside part member)
      have copies : form.Established ((parts.map fun part => part.renewed.map fun _ => (none : Option ι)).map partKey) := by
        rw [map_eq_of_copies (fun part _ => partKey_copy) each]
        exact here
      refine (copy_node_of_owning here.owning).mpr ⟨here.free, _, each, ?_⟩
      rw [copies.gather_copied, here.copied_eq]
      simp [renewed, mapForms, map, Function.comp_def]

theorem forget_eq_self (tree : Tree Unit) : tree.forget = tree := by
  induction tree using Tree.induct with
  | atom content => rfl
  | static label text => rfl
  | shared sharing identity contents ih =>
      rw [forget, map, mapAll_eq_map]
      exact congrArg (shared sharing ()) ((List.map_congr_left ih).trans (List.map_id contents))
  | node form parts ih =>
      rw [forget_node]
      exact congrArg (node form) ((List.map_congr_left ih).trans (List.map_id parts))

end Tree

namespace Value

open Store

variable {old store later : Store} {held : List Address} {depth : Nat} {value copy : Value} {tree : Tree Unit}

section Copies

variable (sound : old.Sound)
include sound

/-- The copy of what is constructed and in order shows that once more. -/
theorem shows_renewed_of_copyTo (enough : depth ≤ old.depth) (live : old.Live value)
    (offshoot : Offshoot old (fun _ => True) held store) (made : copyTo depth value store = (.ok copy, later))
    (shows : old.Shows value tree) (established : tree.Everywhere Tree.Established) : later.Shows copy tree.renewed := by
  have owning : tree.Everywhere fun form _ => Tree.Owning form := established.imp fun _ _ here => here.owning
  obtain ⟨copied, treeMade, shown⟩ := copyTo_reflects sound enough live offshoot made tree shows owning
  obtain rfl : copied = tree.renewed.map fun _ => none :=
    Except.ok.inj (treeMade.symm.trans (Tree.copy_of_established established))
  rwa [Tree.forget_map, Tree.forget_eq_self] at shown

/-- The copy of what has no class shows it with no lock poisoned. -/
theorem shows_unpoisoned_of_copyTo (enough : depth ≤ old.depth) (live : old.Live value)
    (offshoot : Offshoot old (fun _ => True) held store) (made : copyTo depth value store = (.ok copy, later))
    (shows : old.Shows value tree) (kept : tree.Everywhere Tree.Kept) : later.Shows copy tree.unpoisoned := by
  rw [← Tree.renewed_of_kept kept]
  exact shows_renewed_of_copyTo sound enough live offshoot made shows (kept.imp fun _ _ here => here.established)

/-- If every part is copied deep, what is copied is shown by some tree, and its copy by the copy of the tree. -/
theorem exists_shows_of_copy (live : old.Live value) (leads : old.LeadsTo Tree.Owning value)
    (made : value.copy.run old = (.ok copy, later)) :
    ∃ tree copied, old.Shows value tree ∧ (tree.Everywhere fun form _ => Tree.Owning form) ∧
      tree.copy = .ok copied ∧ later.Shows copy copied.forget := by
  have ends : haltWith (old.haltAt old.depth) value = none := haltWith_of_copyTo sound live (.refl old) made
  obtain ⟨tree, shows⟩ := exists_shows_of_haltWith sound live leads ends
  have owning : tree.Everywhere fun form _ => Tree.Owning form :=
    shows.everywhere (fun _ _ _ throughout _ => throughout.self) leads
  obtain ⟨copied, treeMade, shown⟩ := copyTo_reflects sound (Nat.le_refl _) live (.refl old _) made tree shows owning
  exact ⟨tree, copied, shows, owning, treeMade, shown⟩

/-- What shows a copy can be copied, and its copy shows the same. -/
theorem exists_copy_of_shows_copy {ι : Type} {tree : Tree ι} {copied : Tree (Option ι)} (live : old.Live value)
    (owning : tree.Everywhere fun form _ => Tree.Owning form) (treeMade : tree.copy = .ok copied)
    (shows : old.Shows value copied.forget) :
    ∃ copy later, value.copy.run old = (.ok copy, later) ∧ later.Shows copy copied.forget := by
  obtain ⟨again, againMade, same⟩ := Tree.copy_forget_of_copy owning treeMade
  have copiedOwning : copied.forget.Everywhere fun form _ => Tree.Owning form :=
    (Tree.settled_copy owning treeMade).map fun _ _ settled => settled.owning
  have free := Tree.free_of_copy copiedOwning againMade
  obtain ⟨copy, later, made⟩ := exists_copy_of_ends sound (shows.ends (free.imp fun _ _ here => here.1)) live
  obtain ⟨second, secondMade, shown⟩ :=
    copyTo_reflects sound (Nat.le_refl _) live (.refl old _) made _ shows copiedOwning
  obtain rfl : second = again := Except.ok.inj (secondMade.symm.trans againMade)
  exact ⟨copy, later, made, same ▸ shown⟩

end Copies

end Value

end Replica
