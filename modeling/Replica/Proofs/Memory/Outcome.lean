import Replica.Proofs.Memory.TreeCopy
import Replica.Proofs.Memory.Growth

/-!
What becomes of the store when a value is copied. The copy of its tree says whether there is a copy, and
what it is seen as by those who knew the store before: a new allocation has no identity for them.
-/

namespace Replica

theorem Copying.bind_apply {α β : Type} (copying : Copying α) (rest : α → Copying β) (store : Store) :
    (copying >>= rest) store =
      match copying store with
      | (.ok result, later) => rest result later
      | (.error halt, later) => (.error halt, later) := by
  simp only [Bind.bind, ExceptT.bind, ExceptT.mk, ExceptT.bindCont, StateT.bind]
  rcases copying store with ⟨halt | result, later⟩ <;> rfl

namespace Store

variable {old store later : Store} {held kept kept' : List Address} {α β α' β' : Type}

/-- What an address is known by to those who knew the store before. -/
def former? (old : Store) (address : Address) : Option Address :=
  if address < old.slots.size then some address else none

/-- A value in a later store, with the identities that were known before. -/
def view (old later : Store) (value : Value) : Tree (Option Address) :=
  (later.unfold value).map old.former?

@[simp]
theorem view_node (old later : Store) (form : Form) (parts : List Value) :
    old.view later (.node form parts) = .node form (parts.map (old.view later)) := by
  simp [view, Tree.map, Function.comp_def]

theorem view_eq_node {value : Value} {form : Form} {trees : List (Tree (Option Address))}
    (same : old.view later value = .node form trees) :
    ∃ parts, value = .node form parts ∧ parts.map (old.view later) = trees := by
  cases value with
  | node otherForm parts =>
      simp only [view_node, Tree.node.injEq] at same
      exact ⟨parts, by rw [same.1], same.2⟩
  | _ => cases same

theorem partKey_view (old later : Store) (value : Value) :
    (old.view later value).partKey = later.partKey value := by
  rw [view, Tree.partKey_map, partKey_unfold]

theorem absorb_view (old later : Store) (former new : Value) :
    Tree.absorb (old.view later former) (old.view later new) =
      (former.absorb new).map (old.view later) (List.map (old.view later)) := by
  fun_cases Value.absorb former new with
  | case1 key value otherKey newValue => simp [Tree.absorb]
  | case2 =>
      unfold Tree.absorb
      split
      · rename_i apart _ _ _ _ _ _ formerEq newEq
        obtain ⟨formerParts, rfl, formerTrees⟩ := view_eq_node formerEq
        obtain ⟨newParts, rfl, newTrees⟩ := view_eq_node newEq
        obtain ⟨key, value, rfl⟩ : ∃ key value, formerParts = [key, value] := by
          exact List.length_eq_two.mp (by simpa using congrArg List.length formerTrees)
        obtain ⟨otherKey, newValue, rfl⟩ : ∃ key value, newParts = [key, value] := by
          exact List.length_eq_two.mp (by simpa using congrArg List.length newTrees)
        exact (apart key value otherKey newValue rfl rfl).elim
      · rfl

/-- What becomes of a copy in the making if its tree becomes `expected`. Either way the store has only
grown, and a copy that stops leaves nothing behind. -/
inductive Outcome (old : Store) (held kept : List Address) (store : Store)
    (handles : α → List Address) (view : Store → α → β) :
    Except Trail β → Except Halt α × Store → Prop
  | done {result : α} {later : Store} (growth : Growth old (handles result ++ kept) later)
      (follows : later.Follows store) :
      Outcome old held kept store handles view (.ok (view later result)) (.ok result, later)
  | stopped {trail : Trail} {later : Store} (growth : Growth old held later)
      (follows : later.Follows store) :
      Outcome old held kept store handles view (.error trail) (.error (.held trail), later)

namespace Outcome

variable {handles : α → List Address} {view : Store → α → β} {handles' : α' → List Address}
  {view' : Store → α' → β'} {expected : Except Trail β} {copying : Copying α}

theorem bind {next : β → Except Trail β'} {rest : α → Copying α'}
    (outcome : Outcome old held kept store handles view expected (copying store))
    (further : ∀ result later, Growth old (handles result ++ kept) later → later.Follows store →
      Outcome old held kept' later handles' view' (next (view later result)) (rest result later)) :
    Outcome old held kept' store handles' view' (expected >>= next) ((copying >>= rest) store) := by
  rw [Copying.bind_apply]
  generalize copying store = run at outcome
  cases outcome with
  | done growth follows =>
      have continued := further _ _ growth follows
      simp only [Bind.bind, Except.bind]
      generalize rest _ _ = last at continued
      generalize next _ = expectedLast at continued
      cases continued with
      | done growth' follows' => exact .done growth' (follows'.trans follows)
      | stopped growth' follows' => exact .stopped growth' (follows'.trans follows)
  | stopped growth follows => exact .stopped growth follows

/-- The result in another form, in which it is seen as the same. -/
theorem map {wrap : α → α'} {view' : Store → α' → β}
    (outcome : Outcome old held kept store handles view expected (copying store))
    (sameHandles : ∀ result, handles' (wrap result) = handles result)
    (sameView : ∀ later result, view' later (wrap result) = view later result) :
    Outcome old held kept store handles' view' expected
      ((copying >>= fun result => pure (wrap result)) store) := by
  rw [Copying.bind_apply]
  generalize copying store = run at outcome
  cases outcome with
  | @done result later growth follows =>
      rw [← sameHandles] at growth
      rw [← sameView]
      exact .done growth follows
  | stopped growth follows => exact .stopped growth follows

theorem behind (outcome : Outcome old held kept store handles view expected (copying store))
    (step : Nat) :
    Outcome old held kept store handles view (expected.mapError (step :: ·))
      (Copying.behind step copying store) := by
  simp only [Copying.behind]
  generalize copying store = run at outcome
  cases outcome with
  | done growth follows => exact .done growth follows
  | stopped growth follows => exact .stopped growth follows

theorem orRelease (sound : old.Sound) {addresses : List Address}
    (outcome : Outcome old (addresses ++ held) kept store handles view expected (copying store)) :
    Outcome old held kept store handles view expected
      (Copying.orRelease addresses copying store) := by
  simp only [Copying.orRelease]
  generalize copying store = run at outcome
  cases outcome with
  | done growth follows => exact .done growth follows
  | stopped growth follows =>
      exact .stopped (growth.release sound) ((follows_release addresses _).trans follows)

end Outcome

/-- What a value unfolds to stays the same as long as handles to all that it leads to are held. -/
theorem Growth.unfold_eq {before : List Address} {value : Value} (sound : old.Sound)
    (acyclic : old.Acyclic) (earlier : Growth old before store) (growth : Growth old held later)
    (follows : later.Follows store) (wasHeld : ∀ address ∈ value.addresses, address ∈ before)
    (isHeld : ∀ address ∈ value.addresses, address ∈ held) : later.unfold value = store.unfold value := by
  apply follows.unfold_eq (earlier.acyclic sound acyclic) (growth.closed sound) (earlier.bounded sound)
  · intro address member
    exact lt_size_of_isSome (earlier.isSome_of_mem (List.mem_append_left _ (wasHeld address member)))
  · intro address member
    exact growth.isSome_of_mem (List.mem_append_left _ (isHeld address member))

theorem Growth.view_eq {before : List Address} {value : Value} (sound : old.Sound)
    (acyclic : old.Acyclic) (earlier : Growth old before store) (growth : Growth old held later)
    (follows : later.Follows store) (wasHeld : ∀ address ∈ value.addresses, address ∈ before)
    (isHeld : ∀ address ∈ value.addresses, address ∈ held) :
    old.view later value = old.view store value := by
  rw [view, view, earlier.unfold_eq sound acyclic growth follows wasHeld isHeld]

theorem Growth.unfold_former {value : Value} (sound : old.Sound) (acyclic : old.Acyclic)
    (growth : Growth old held store) (live : old.Live value) : store.unfold value = old.unfold value := by
  apply growth.follows.unfold_eq acyclic (growth.closed sound) ((refl old).bounded sound)
  · exact fun address member => lt_size_of_isSome (live address member)
  · intro address member
    rw [growth.former address (lt_size_of_isSome (live address member)), Option.isSome_map]
    exact live address member

end Store

namespace Value

open Store

variable {old store : Store} {held : List Address} {rank : Address → Nat} {depth : Nat}
  {follow : Address → Copying Address}

/-- A way to copy allocations of rank below `depth` does to the handles to them what the copy of trees
does. -/
def Faithful (old : Store) (rank : Address → Nat) (depth : Nat)
    (follow : Address → Copying Address) : Prop :=
  ∀ sharing address held store, (old.get? address).isSome → rank address < depth →
    Growth old held store →
      Outcome old held held store (fun copy => [copy])
        (fun later copy => old.view later (.handle sharing copy))
        (old.unfold (.handle sharing address)).copy (follow address store)

/-- An allocation is copied to a new one that holds the copies of the contents. -/
theorem copyAllocation_succ (depth : Nat) (address : Address) (store : Store) :
    copyAllocation (depth + 1) address store =
      (copyParts (copyAllocation depth) (fun _ => .deep) 0 ((store.contents? address).getD []) >>=
        fun copies => modifyGet (Store.allocate copies)) store :=
  rfl

section Outcomes

variable (sound : old.Sound) (acyclic : old.Acyclic)
include sound acyclic

theorem assemble_outcome (form : Form) (parts : List Value)
    (growth : Growth old (addressesOfAll parts ++ held) store) :
    Outcome old held held store addresses old.view
      (.ok (.node form (form.gather Tree.partKey Tree.absorb (parts.map (old.view store))).kept))
      (.ok (store.assemble form parts).1, (store.assemble form parts).2) := by
  let gathered := store.gather form parts
  let later := store.release (addressesOfAll gathered.dropped)
  have conserved := gather_addresses_perm store form parts
  have released : Growth old (addressesOfAll gathered.kept ++ held) later := by
    apply Growth.release _ sound
    rw [← List.append_assoc]
    exact growth.of_perm (conserved.symm.append_right held)
  have follows : later.Follows store := follows_release _ store
  have gatheredTrees : form.gather Tree.partKey Tree.absorb (parts.map (old.view store)) = _ :=
    Form.gather_map form (fun part _ => partKey_view old store part) (absorb_view old store)
  -- What is dropped leads to nothing that the kept parts need.
  have trees : (form.gather Tree.partKey Tree.absorb (parts.map (old.view store))).kept =
      gathered.kept.map (old.view later) := by
    rw [gatheredTrees]
    apply List.map_congr_left
    intro part member
    have inside : ∀ address ∈ part.addresses, address ∈ addressesOfAll gathered.kept :=
      fun address here => mem_addressesOfAll.mpr ⟨part, member, here⟩
    symm
    apply growth.view_eq sound acyclic released follows
    · intro address here
      exact List.mem_append_left _ (conserved.mem_iff.mp (List.mem_append_right _ (inside address here)))
    · intro address here
      exact List.mem_append_left _ (inside address here)
  rw [trees, ← view_node]
  exact .done released follows

theorem treat_outcome {value : Value} {expected : Except Trail (Tree (Option Address))}
    {copying : Copying Value} (live : old.Live value) (growth : Growth old held store)
    (copied : Outcome old held held store addresses old.view expected (copying store))
    (treatment : Treatment) :
    Outcome old held held store addresses old.view (Tree.treat expected (old.unfold value) treatment)
      (treat copying value treatment store) := by
  cases treatment with
  | deep => exact copied
  | share =>
      have retained := growth.retainAll live
      have seen : (old.unfold value).map some = old.view (store.retainAll value.addresses) value := by
        rw [view, retained.unfold_former sound acyclic live]
        apply Tree.map_congr
        intro address member
        have bound := lt_size_of_isSome (sound.isSome_of_mem_unfold live member)
        rw [former?, if_pos bound]
      rw [Tree.treat, seen]
      exact .done retained (follows_retainAll _ store)
  | reset =>
      have empty : Tree.node .vector [] = old.view store (.node .vector []) := by simp
      rw [Tree.treat, empty]
      exact .done growth (.refl store)

theorem copyParts_outcome (treatment : Nat → Treatment) {values : List Value}
    (each : ∀ value ∈ values, ∀ held store, Growth old held store →
      Outcome old held held store addresses old.view (old.unfold value).copy
        (copyWith follow value store))
    (live : ∀ value ∈ values, old.Live value) (step : Nat) (growth : Growth old held store) :
    Outcome old held held store addressesOfAll (fun later => List.map (old.view later))
      (Tree.copyParts treatment step (values.map old.unfold))
      (copyParts follow treatment step values store) := by
  induction values generalizing step held store with
  | nil =>
      have empty : ([] : List (Tree (Option Address))) = List.map (old.view store) [] := rfl
      rw [List.map_nil, Tree.copyParts, copyParts, empty]
      exact .done growth (.refl store)
  | cons value values ih =>
      rw [List.map_cons, Tree.copyParts, copyParts]
      have first := treat_outcome sound acyclic (live value (by simp)) growth
        ((each value (by simp) held store growth).behind step) (treatment step)
      apply first.bind
      intro copy later copied follows
      have rest := ih (fun other member => each other (by simp [member]))
        (fun other member => live other (by simp [member])) (step + 1) copied
      apply (rest.orRelease sound).bind
      intro copies last copiedAll followsAll
      have still : old.view later copy = old.view last copy := by
        symm
        apply copied.view_eq sound acyclic copiedAll followsAll
        · exact fun address member => List.mem_append_left _ member
        · exact fun address member => List.mem_append_right _ (List.mem_append_left _ member)
      rw [still, ← List.map_cons]
      refine .done ?_ (.refl last)
      rw [← List.append_assoc] at copiedAll
      exact copiedAll.of_perm (List.perm_append_comm.append_right held)

theorem copyWith_outcome (faithful : Faithful old rank depth follow) (value : Value)
    (live : old.Live value) (shallow : ∀ address ∈ value.addresses, rank address < depth)
    (growth : Growth old held store) :
    Outcome old held held store addresses old.view (old.unfold value).copy
      (copyWith follow value store) := by
  induction value using Value.induct generalizing held store with
  | atom content =>
      have same : Tree.atom content = old.view store (.atom content) := rfl
      rw [unfold_atom, Tree.copy, copyWith, same]
      exact .done growth (.refl store)
  | static label text =>
      have same : Tree.static label text = old.view store (.static label text) := rfl
      rw [unfold_static, Tree.copy, copyWith, same]
      exact .done growth (.refl store)
  | handle sharing address =>
      -- Only here the copy leaves the value. The depth that is left bounds what `follow` vouches for.
      have copied := faithful sharing address held store (live address (by simp [addresses]))
        (shallow address (by simp [addresses])) growth
      rw [copyWith]
      exact copied.map (fun _ => rfl) (fun _ _ => rfl)
  | node form parts ih =>
      have within : ∀ part ∈ parts, ∀ address ∈ part.addresses,
          address ∈ (node form parts).addresses :=
        fun part member address inside => mem_addressesOfAll.mpr ⟨part, member, inside⟩
      rw [unfold_node, Tree.copy]
      by_cases isHeld : form = .refCell true
      · subst isHeld
        rw [if_pos rfl, copyWith]
        exact .stopped growth (.refl store)
      · rw [if_neg isHeld, copyWith]
        · have copied : Outcome old held held store addressesOfAll (fun later => List.map (old.view later))
              (Tree.copyParts form.treatment 0 (parts.map old.unfold))
              (copyParts follow form.treatment 0 parts store) := by
            apply copyParts_outcome sound acyclic form.treatment _ _ 0 growth
            · intro part member held store growth
              exact ih part member (fun address inside => live address (within part member address inside))
                (fun address inside => shallow address (within part member address inside)) growth
            · exact fun part member address inside => live address (within part member address inside)
          apply copied.bind
          intro copies later copied follows
          exact assemble_outcome sound acyclic form.copied copies copied
        · exact isHeld

theorem view_allocate {contents : List Value}
    (growth : Growth old (addressesOfAll contents ++ held) store) (sharing : Sharing) :
    old.view (store.allocate contents).2 (.handle sharing store.slots.size) =
      .shared sharing none (contents.map (old.view store)) := by
  have allocated := growth.allocate
  have found : (store.allocate contents).2.contents? store.slots.size = some contents := by
    simp [contents?, get?_allocate]
  have isNew : old.former? store.slots.size = none := by
    rw [former?, if_neg (Nat.not_lt.mpr growth.size_le)]
  rw [view, unfold_handle, (allocated.acyclic sound acyclic).unfoldAddress_depth, found]
  simp only [Option.getD_some, Tree.map, isNew, Tree.mapAll_eq_map, List.map_map, Tree.shared.injEq,
    true_and]
  apply List.map_congr_left
  intro value member
  have inside : ∀ address ∈ value.addresses, address ∈ addressesOfAll contents :=
    fun address here => mem_addressesOfAll.mpr ⟨value, member, here⟩
  have closed := allocated.closed sound
  have stays : (store.allocate contents).2.unfold value = store.unfold value := by
    apply (follows_allocate contents store).unfold_eq (growth.acyclic sound acyclic) closed
      (growth.bounded sound)
    · intro address here
      exact lt_size_of_isSome (growth.isSome_of_mem (by simp [inside address here]))
    · intro address here
      exact closed _ _ ⟨contents, found, inside address here⟩
  rw [Function.comp_apply, stays, view]

theorem copyAllocation_faithful
    (falls : ∀ address other, old.PointsTo address other → rank other < rank address) (depth : Nat) :
    Faithful old rank depth (copyAllocation depth) := by
  induction depth with
  | zero =>
      intro sharing address held store live below
      omega
  | succ depth ih =>
      intro sharing address held store live below growth
      have bound := lt_size_of_isSome live
      obtain ⟨contents, found⟩ := exists_contents live
      have here : (store.contents? address).getD [] = contents := by
        rw [growth.former_contents bound, found, Option.getD_some]
      -- What the allocation holds has handles of lower rank only, for which `depth` is enough.
      rw [copyAllocation_succ, here, unfold_handle, acyclic.unfoldAddress_depth, found, Option.getD_some, Tree.copy]
      have copied : Outcome old held held store addressesOfAll (fun later => List.map (old.view later))
          (Tree.copyParts (fun _ => .deep) 0 (contents.map old.unfold))
          (copyParts (copyAllocation depth) (fun _ => .deep) 0 contents store) := by
        apply copyParts_outcome sound acyclic _ _ _ 0 growth
        · intro value member held store growth
          apply copyWith_outcome sound acyclic ih value (sound.live_of_contents found member) _ growth
          intro other inside
          have below' := falls address other
            ⟨contents, found, mem_addressesOfAll.mpr ⟨value, member, inside⟩⟩
          omega
        · exact fun value member => sound.live_of_contents found member
      apply copied.bind
      intro copies later copied follows
      rw [← view_allocate sound acyclic copied sharing]
      exact .done copied.allocate (follows_allocate copies later)

/-- What a copy does in a store is what it does to the tree of the value. -/
theorem copy_outcome {value : Value} (live : old.Live value) :
    Outcome old [] [] old addresses old.view (old.unfold value).copy (value.copy old) := by
  obtain ⟨rank, bounded, falls⟩ := acyclic.exists_rank
  have faithful := copyAllocation_faithful sound acyclic falls old.depth
  apply copyWith_outcome sound acyclic faithful value live _ (.refl old)
  intro address member
  exact Nat.lt_succ_of_le (bounded address)

/-- If there is a copy of the tree, there is one in the store, which is seen as that copy. -/
theorem copy_of_tree_ok {value : Value} (live : old.Live value) {tree : Tree (Option Address)}
    (made : (old.unfold value).copy = .ok tree) :
    ∃ copy later, value.copy.run old = (.ok copy, later) ∧ Growth old copy.addresses later ∧
      old.view later copy = tree := by
  have outcome := copy_outcome sound acyclic live
  have run : value.copy.run old = value.copy old := rfl
  rw [made] at outcome
  rw [run]
  generalize value.copy old = result at outcome ⊢
  cases outcome with
  | @done copy later growth follows =>
      rw [List.append_nil] at growth
      exact ⟨copy, later, rfl, growth, rfl⟩

/-- If there is none, nothing of what was made for it is left. -/
theorem copy_of_tree_error {value : Value} (live : old.Live value) {trail : Trail}
    (stopped : (old.unfold value).copy = .error trail) :
    ∃ later, value.copy.run old = (.error (.held trail), later) ∧ Growth old [] later := by
  have outcome := copy_outcome sound acyclic live
  have run : value.copy.run old = value.copy old := rfl
  rw [stopped] at outcome
  rw [run]
  generalize value.copy old = result at outcome ⊢
  cases outcome with
  | @stopped _ later growth follows => exact ⟨later, rfl, growth⟩

/-- A store without circles is deep enough for a copy. -/
theorem copy_ne_depth {value : Value} (live : old.Live value) : (value.copy.run old).1 ≠ .error .depth := by
  cases whole : (old.unfold value).copy with
  | ok tree =>
      obtain ⟨copy, later, made, _⟩ := copy_of_tree_ok sound acyclic live whole
      rw [made]
      simp
  | error trail =>
      obtain ⟨later, made, _⟩ := copy_of_tree_error sound acyclic live whole
      rw [made]
      simp

theorem tree_of_copy_ok {value copy : Value} (live : old.Live value)
    (made : value.copy.run old = (.ok copy, store)) :
    (old.unfold value).copy = .ok (old.view store copy) ∧ Growth old copy.addresses store := by
  cases whole : (old.unfold value).copy with
  | ok tree =>
      obtain ⟨other, later, otherMade, growth, seen⟩ := copy_of_tree_ok sound acyclic live whole
      rw [made] at otherMade
      cases otherMade
      exact ⟨by rw [seen], growth⟩
  | error trail =>
      obtain ⟨later, otherMade, growth⟩ := copy_of_tree_error sound acyclic live whole
      rw [made] at otherMade
      cases otherMade

end Outcomes

end Value

end Replica
