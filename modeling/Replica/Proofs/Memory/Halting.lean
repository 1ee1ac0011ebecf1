import Replica.Proofs.Memory.TreeCopy
import Replica.Proofs.Memory.Unfolding

/-!
Where a copy stops: exactly at the cells that somebody changes and that it comes to.
-/

namespace Replica

namespace Tree

variable {ι : Type} {treatment : Nat → Treatment} {form : Form} {tree : Tree ι} {parts : List (Tree ι)}
  {copies : List (Tree (Option ι))} {trail : Trail} {step : Nat}

/-- Whether a trail leads through parts that are copied deep to a cell that somebody changes. -/
def HeldAt : Trail → Tree ι → Prop
  | [], .node form _ => form = .refCell true
  | step :: trail, .node form parts =>
    form.treatment step = .deep ∧ ∃ part, parts[step]? = some part ∧ HeldAt trail part
  | step :: trail, .shared _ _ contents => ∃ part, contents[step]? = some part ∧ HeldAt trail part
  | _, _ => False

theorem exists_of_copyParts_error {first : Nat}
    (stopped : copyParts treatment first parts = .error trail) :
    ∃ step part rest, parts[step]? = some part ∧ treatment (first + step) = .deep ∧
      part.copy = .error rest ∧ trail = (first + step) :: rest := by
  induction parts generalizing first with
  | nil => cases stopped
  | cons part parts ih =>
      rw [copyParts] at stopped
      rcases Except.bind_eq_error_iff.mp stopped with partStopped | ⟨copy, _, rest⟩
      · cases isDeep : treatment first with
        | deep =>
            rw [isDeep, treat] at partStopped
            obtain ⟨rest, made, same⟩ := Except.mapError_eq_error_iff.mp partStopped
            exact ⟨0, part, rest, rfl, isDeep, made, same.symm⟩
        | share => simp [isDeep, treat] at partStopped
        | reset => simp [isDeep, treat] at partStopped
      · rcases Except.bind_eq_error_iff.mp rest with othersStopped | ⟨others, _, impossible⟩
        · obtain ⟨step, other, behind, found, isDeep, made, same⟩ := ih othersStopped
          refine ⟨step + 1, other, behind, found, ?_, made, ?_⟩
          · rwa [Nat.add_assoc, Nat.add_comm 1] at isDeep
          · rwa [Nat.add_assoc, Nat.add_comm 1] at same
        · cases impossible

theorem exists_of_copyParts_ok {first : Nat} {part : Tree ι}
    (made : copyParts treatment first parts = .ok copies) (found : parts[step]? = some part)
    (isDeep : treatment (first + step) = .deep) : ∃ copy, part.copy = .ok copy := by
  induction parts generalizing first step copies with
  | nil => simp at found
  | cons head parts ih =>
      rw [copyParts] at made
      obtain ⟨copy, headMade, rest⟩ := Except.bind_eq_ok_iff.mp made
      cases step with
      | zero =>
          obtain rfl : head = part := by simpa using found
          rw [Nat.add_zero] at isDeep
          rw [isDeep, treat] at headMade
          exact ⟨copy, Except.mapError_eq_ok_iff.mp headMade⟩
      | succ step =>
          obtain ⟨others, othersMade, _⟩ := Except.bind_eq_ok_iff.mp rest
          apply ih othersMade (by simpa using found)
          rwa [Nat.add_assoc, Nat.add_comm 1]

theorem heldAt_of_copy_error (stopped : tree.copy = .error trail) : tree.HeldAt trail := by
  induction tree using Tree.induct generalizing trail with
  | atom content => cases stopped
  | static label text => cases stopped
  | shared sharing identity contents ih =>
      rw [copy] at stopped
      rcases Except.bind_eq_error_iff.mp stopped with partsStopped | ⟨_, _, impossible⟩
      · obtain ⟨step, part, rest, found, _, made, rfl⟩ := exists_of_copyParts_error partsStopped
        rw [Nat.zero_add]
        exact ⟨part, found, ih part (List.mem_of_getElem? found) made⟩
      · cases impossible
  | node form parts ih =>
      rw [copy] at stopped
      split at stopped
      · rename_i held
        cases stopped
        exact held
      · rcases Except.bind_eq_error_iff.mp stopped with partsStopped | ⟨_, _, impossible⟩
        · obtain ⟨step, part, rest, found, isDeep, made, rfl⟩ := exists_of_copyParts_error partsStopped
          rw [Nat.zero_add] at isDeep ⊢
          exact ⟨isDeep, part, found, ih part (List.mem_of_getElem? found) made⟩
        · cases impossible

theorem copy_ne_ok_of_heldAt {copied : Tree (Option ι)} (held : tree.HeldAt trail) :
    tree.copy ≠ .ok copied := by
  intro made
  induction tree using Tree.induct generalizing trail copied with
  | atom content => cases trail <;> exact held
  | static label text => cases trail <;> exact held
  | shared sharing identity contents ih =>
      cases trail with
      | nil => exact held
      | cons step trail =>
          obtain ⟨part, found, partHeld⟩ := held
          obtain ⟨copies, each, _⟩ := copy_shared_eq_ok_iff.mp made
          have allMade : copyParts (fun _ => .deep) 0 contents = .ok copies :=
            copyParts_deep_eq_ok_iff.mpr each
          obtain ⟨copy, partMade⟩ := exists_of_copyParts_ok allMade found rfl
          exact ih part (List.mem_of_getElem? found) partHeld partMade
  | node form parts ih =>
      obtain ⟨free, copies, each, _⟩ := copy_node_eq_ok_iff.mp made
      cases trail with
      | nil => exact free held
      | cons step trail =>
          obtain ⟨isDeep, part, found, partHeld⟩ := held
          obtain ⟨copy, partMade⟩ := exists_of_copyParts_ok each found (by rwa [Nat.zero_add])
          exact ih part (List.mem_of_getElem? found) partHeld partMade

end Tree

namespace Store

variable {store : Store} {trail : Trail} {value : Value}

/-- Whether a trail leads from a value through parts that are copied deep, and through handles, to a cell
that somebody changes. -/
def HeldAt (store : Store) : Trail → Value → Prop
  | [], .node form _ => form = .refCell true
  | step :: trail, .node form parts =>
    form.treatment step = .deep ∧ ∃ part, parts[step]? = some part ∧ store.HeldAt trail part
  | step :: trail, .handle _ address =>
    ∃ contents part, store.contents? address = some contents ∧ contents[step]? = some part ∧
      store.HeldAt trail part
  | _, _ => False

theorem heldAt_unfold_iff (acyclic : store.Acyclic) :
    (store.unfold value).HeldAt trail ↔ store.HeldAt trail value := by
  induction trail generalizing value with
  | nil =>
      cases value with
      | node form parts => rw [unfold_node]; rfl
      | _ => rfl
  | cons step trail ih =>
      cases value with
      | atom content => rfl
      | static label text => rfl
      | handle sharing address =>
          rw [unfold_handle, acyclic.unfoldAddress_depth]
          cases found : store.contents? address with
          | none => simp [HeldAt, Tree.HeldAt, found]
          | some contents => simp [HeldAt, Tree.HeldAt, found, ih]
      | node form parts =>
          rw [unfold_node]
          simp [HeldAt, Tree.HeldAt, ih]

end Store

end Replica
