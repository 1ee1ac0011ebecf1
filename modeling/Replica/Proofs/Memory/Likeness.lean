import Replica.Proofs.Memory.Outcome

/-!
What a copy carries over. Apart from identities, poison, and the order of collections that have none, the
copy of a value is the value once more.
-/

namespace Replica

namespace Form

/-- Collections that are equal whatever the order in which they keep their parts. -/
def HidesOrder (form : Form) : Prop :=
  form = .hashSet ∨ form = .hashMap ∨ form = .priorityQueue

/-- Structs whose copies are not made field by field. -/
def Custom : Form → Prop
  | .strategies _ | .account _ _ _ | .library _ | .sorted => True
  | _ => False

def unpoisoned : Form → Form
  | .mutex _ => .mutex false
  | .rwLock _ => .rwLock false
  | form => form

end Form

namespace Tree

/-- Whether a copy is like its original: part by part the same, with all locks unpoisoned. -/
inductive Alike : Tree Unit → Tree Unit → Prop
  | atom (content : Atom) : Alike (.atom content) (.atom content)
  | static (label : Nat) (text : String) : Alike (.static label text) (.static label text)
  | shared (sharing : Sharing) {contents copies : List (Tree Unit)} :
      List.Forall₂ Alike contents copies → Alike (.shared sharing () contents) (.shared sharing () copies)
  | node (form : Form) {parts copies : List (Tree Unit)} :
      List.Forall₂ Alike parts copies → Alike (.node form parts) (.node form.unpoisoned copies)
  | unordered {form : Form} {parts copies arranged : List (Tree Unit)} :
      form.HidesOrder → List.Forall₂ Alike parts copies → copies.Perm arranged →
        Alike (.node form parts) (.node form arranged)

variable {ι : Type} {form : Form} {tree : Tree ι} {parts : List (Tree ι)}

/-- What a node has that is copied part by part, and found in order if it has one. -/
structure Memberwise (form : Form) (parts : List (Tree ι)) : Prop where
  free : form ≠ .refCell true
  notCustom : ¬ form.Custom
  ordered : form.Ordered (parts.map partKey)
  hashed : form.Hashed (parts.map partKey)

theorem owning_of_not_custom (notCustom : ¬ form.Custom) : Owning form := by
  rintro counter rfl
  exact notCustom trivial

theorem Memberwise.orderly (memberwise : Memberwise form parts) : Orderly form parts where
  owning := owning_of_not_custom memberwise.notCustom
  ordered := memberwise.ordered
  hashed := memberwise.hashed

theorem Memberwise.copied_eq (memberwise : Memberwise form parts) : form.copied = form.unpoisoned := by
  cases form with
  | strategies | account | library => exact absurd trivial memberwise.notCustom
  | _ => rfl

theorem Memberwise.copied_ne_queue (memberwise : Memberwise form parts) (shown : ¬ form.HidesOrder) :
    form.copied ≠ .priorityQueue := by
  rw [memberwise.copied_eq]
  cases form with
  | priorityQueue => exact absurd (.inr (.inr rfl)) shown
  | _ => exact fun isQueue => by cases isQueue

theorem Memberwise.copied_ne_sorted (memberwise : Memberwise form parts) : form.copied ≠ .sorted := by
  rw [memberwise.copied_eq]
  cases form with
  | sorted => exact absurd trivial memberwise.notCustom
  | _ => exact fun isSorted => by cases isSorted

theorem exists_copies {alike : Tree ι → Tree (Option ι) → Prop}
    (each : ∀ part ∈ parts, ∃ copy, part.copy = .ok copy ∧ alike part copy) :
    ∃ copies, List.Forall₂ (fun part copy => part.copy = .ok copy) parts copies ∧
      List.Forall₂ alike parts copies := by
  obtain ⟨copies, both⟩ := List.exists_forall₂ each
  exact ⟨copies, both.imp fun _ _ pair => pair.1, both.imp fun _ _ pair => pair.2⟩

theorem forall₂_forget {copies : List (Tree (Option ι))}
    (each : List.Forall₂ (fun part copy => Alike part.forget copy.forget) parts copies) :
    List.Forall₂ Alike (parts.map forget) (copies.map forget) := by
  rw [List.forall₂_map_left_iff, List.forall₂_map_right_iff]
  exact each

theorem forget_node (form : Form) (parts : List (Tree ι)) :
    (node form parts).forget = .node form (parts.map forget) := by
  rw [forget, map, mapAll_eq_map]
  rfl

theorem exists_alike_copy (memberwise : tree.Everywhere Memberwise) :
    ∃ copied, tree.copy = .ok copied ∧ Alike tree.forget copied.forget := by
  induction tree using Tree.induct with
  | atom content => exact ⟨_, rfl, .atom content⟩
  | static label text => exact ⟨_, rfl, .static label text⟩
  | shared sharing identity contents ih =>
      simp only [Everywhere, everywhereInAll_iff] at memberwise
      obtain ⟨copies, made, like⟩ :=
        exists_copies fun part member => ih part member (memberwise part member)
      refine ⟨_, copy_shared_eq_ok_iff.mpr ⟨copies, made, rfl⟩, ?_⟩
      simp only [forget, map, mapAll_eq_map]
      exact .shared sharing (forall₂_forget like)
  | node form parts ih =>
      simp only [Everywhere, everywhereInAll_iff] at memberwise
      obtain ⟨copies, made, like⟩ :=
        exists_copies fun part member => ih part member (memberwise.2 part member)
      have orderly := memberwise.1.orderly
      obtain ⟨ordered, hashed⟩ := orderly.gather_copies made
      refine ⟨_, (copy_node_of_owning orderly.owning).mpr ⟨memberwise.1.free, copies, made, rfl⟩, ?_⟩
      rw [forget_node, forget_node]
      -- Only collections that hide their order may be put together in another one.
      by_cases hidden : form.HidesOrder
      · have sameForm : form.copied = form := by
          rcases hidden with rfl | rfl | rfl <;> rfl
        rw [sameForm] at ordered hashed ⊢
        have kept : (form.gather partKey absorb copies).kept.Perm copies :=
          (Form.gather_of_ordered ordered hashed).2
        exact .unordered hidden (forall₂_forget like) (kept.symm.map forget)
      · have kept : (form.copied.gather partKey absorb copies).kept = copies :=
          Form.gather_kept_of_ordered ordered hashed (memberwise.1.copied_ne_queue hidden)
            (fun isSorted => absurd isSorted memberwise.1.copied_ne_sorted)
        rw [kept, memberwise.1.copied_eq]
        exact .node form (forall₂_forget like)

theorem memberwise_locked (poisoned : Bool) :
    ((Store.nested false).unfold (.locked poisoned)).Everywhere Memberwise := by
  have before : Key.compare (.text "core") (.text "rind") = .lt := by decide +kernel
  have plain : ∀ form ∈ [Form.vector, .mutex poisoned, .refCell false], ∀ parts : List (Tree Address),
      Memberwise form parts := by
    intro form member parts
    simp only [List.mem_cons, List.not_mem_nil, or_false] at member
    rcases member with rfl | rfl | rfl <;> exact ⟨by simp, not_false, trivial, trivial⟩
  have inOrder : Memberwise .treeSet
      [Tree.shared Sharing.rc 0 [.atom (.text "core")], .atom (.text "rind")] :=
    ⟨by simp, not_false, List.pairwise_pair.mpr before, trivial⟩
  rw [Value.unfold_locked]
  simp [Everywhere, EverywhereInAll, plain, inOrder]

end Tree

namespace Value

open Store

/-- The copy of a value is there, and is like it. -/
theorem copy_alike {store : Store} {value : Value} (sound : store.Sound) (acyclic : store.Acyclic)
    (live : store.Live value) (memberwise : (store.unfold value).Everywhere Tree.Memberwise) :
    ∃ copy later, value.copy.run store = (.ok copy, later) ∧
      Tree.Alike (store.unfold value).forget (later.unfold copy).forget := by
  obtain ⟨tree, made, alike⟩ := Tree.exists_alike_copy memberwise
  obtain ⟨copy, later, copied, _, seen⟩ := copy_of_tree_ok sound acyclic live made
  refine ⟨copy, later, copied, ?_⟩
  rwa [← seen, view, Tree.forget_map] at alike

theorem copy_alike_locked :
    (nested false).Sound ∧ (nested false).Acyclic ∧ (nested false).Live (locked true) ∧
      ((nested false).unfold (locked true)).Everywhere Tree.Memberwise ∧
      ∃ copy later, (locked true).copy.run (nested false) = (.ok copy, later) ∧
        Tree.Alike ((nested false).unfold (locked true)).forget (later.unfold copy).forget := by
  have sound := sound_nested false
  have acyclic := acyclic_nested false
  have live := live_locked false true
  have memberwise := Tree.memberwise_locked true
  exact ⟨sound, acyclic, live, memberwise, copy_alike sound acyclic live memberwise⟩

end Value

end Replica
