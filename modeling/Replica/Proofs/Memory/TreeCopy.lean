import Replica.Proofs.Memory.KeyOrder
import Replica.Proofs.Memory.Tree
import Replica.Proofs.Result
import Mathlib.Data.List.Forall2

/-!
Deep copies of trees. An allocation that the copy makes has no identity in it, so that a tree tells what
its copy shares.
-/

namespace Replica

theorem toUpper_of_not_lower {char : Char} (other : ¬ ('a'.val ≤ char.val ∧ char.val ≤ 'z'.val)) :
    char.toUpper = char := by
  delta Char.toUpper
  rw [dif_neg other]

theorem val_toUpper_of_lower {char : Char} (lower : 'a'.val ≤ char.val ∧ char.val ≤ 'z'.val) :
    char.toUpper.val = char.val + ('A'.val - 'a'.val) := by
  delta Char.toUpper
  rw [dif_pos lower]

theorem toUpper_toUpper (char : Char) : char.toUpper.toUpper = char.toUpper := by
  apply toUpper_of_not_lower
  by_cases lower : 'a'.val ≤ char.val ∧ char.val ≤ 'z'.val
  · rw [val_toUpper_of_lower lower]
    intro again
    simp only [UInt32.le_iff_toNat_le, UInt32.toNat_add, UInt32.toNat_sub] at lower again
    have a : 'a'.val.toNat = 97 := rfl
    have z : 'z'.val.toNat = 122 := rfl
    have first : 'A'.val.toNat = 65 := rfl
    omega
  · rw [toUpper_of_not_lower lower]
    exact lower

namespace Tree

variable {ι κ : Type}

/-- What a copy gets in the place of a part. `copied` is the part's own copy. -/
def treat (copied : Except Trail (Tree (Option ι))) (part : Tree ι) :
    Treatment → Except Trail (Tree (Option ι))
  | .deep => copied
  | .share => .ok (part.map some)
  | .reset => .ok (.node .vector [])

mutual

/-- The deep copy of a tree, or the trail to the first cell that somebody changes. -/
def copy : Tree ι → Except Trail (Tree (Option ι))
  | .atom content => .ok (.atom content)
  | .static label text => .ok (.static label text)
  | .shared sharing _ contents => do
    return .shared sharing none (← copyParts (fun _ => .deep) 0 contents)
  | .node form parts =>
    if form = .refCell true then .error []
    else do
      let copies ← copyParts form.treatment 0 parts
      return .node form.copied (form.copied.gather partKey absorb copies).kept

def copyParts (treatment : Nat → Treatment) (step : Nat) :
    List (Tree ι) → Except Trail (List (Tree (Option ι)))
  | [] => .ok []
  | tree :: trees => do
    let copy ← treat (tree.copy.mapError (step :: ·)) tree (treatment step)
    return copy :: (← copyParts treatment (step + 1) trees)

end

/-- A property that a struct with shared parts does not have. All others are copied part by part. -/
def Owning (form : Form) : Prop :=
  ∀ counter, form ≠ .strategies counter

theorem Owning.treatment {form : Form} (owning : Owning form) : form.treatment = fun _ => .deep := by
  funext step
  cases form with
  | strategies counter => exact absurd rfl (owning counter)
  | _ => rfl

variable {sharing : Sharing} {identity : ι} {otherIdentity : κ} {form : Form} {tree : Tree ι}
  {parts contents : List (Tree ι)} {copies : List (Tree (Option ι))} {copied : Tree (Option ι)}

theorem copyParts_deep_eq_ok_iff {step : Nat} :
    copyParts (fun _ => .deep) step parts = .ok copies ↔
      List.Forall₂ (fun part copy => part.copy = .ok copy) parts copies := by
  induction parts generalizing step copies with
  | nil => cases copies <;> simp [copyParts]
  | cons part parts ih =>
      simp only [copyParts, treat, Except.bind_eq_ok_iff, Except.mapError_eq_ok_iff, ih, pure, Except.pure,
        Except.ok.injEq]
      constructor
      · rintro ⟨copy, copied, others, each, rfl⟩
        exact .cons copied each
      · rintro (_ | ⟨copied, each⟩)
        exact ⟨_, copied, _, each, rfl⟩

theorem copy_shared_eq_ok_iff :
    (shared sharing identity contents).copy = .ok copied ↔
      ∃ copies, List.Forall₂ (fun part copy => part.copy = .ok copy) contents copies ∧
        .shared sharing none copies = copied := by
  simp only [copy, Except.bind_eq_ok_iff, copyParts_deep_eq_ok_iff, pure, Except.pure, Except.ok.injEq]

theorem copy_node_eq_ok_iff :
    (node form parts).copy = .ok copied ↔
      form ≠ .refCell true ∧ ∃ copies, copyParts form.treatment 0 parts = .ok copies ∧
        .node form.copied (form.copied.gather partKey absorb copies).kept = copied := by
  by_cases held : form = .refCell true
  · simp [copy, held]
  · rw [copy, if_neg held]
    simp only [Except.bind_eq_ok_iff, pure, Except.pure, Except.ok.injEq, ne_eq, held, not_false_eq_true,
      true_and]

theorem copy_node_of_owning (owning : Owning form) :
    (node form parts).copy = .ok copied ↔
      form ≠ .refCell true ∧ ∃ copies,
        List.Forall₂ (fun part copy => part.copy = .ok copy) parts copies ∧
          .node form.copied (form.copied.gather partKey absorb copies).kept = copied := by
  simp only [copy_node_eq_ok_iff, owning.treatment, copyParts_deep_eq_ok_iff]

/-! A copy is found by the same key. -/

theorem key_gather (form : Form) (copies : List (Tree (Option ι))) :
    (node form.copied (form.copied.gather partKey absorb copies).kept).key = (node form copies).key := by
  cases form <;> rfl

theorem map_eq_of_copies {f : Tree ι → κ} {f' : Tree (Option ι) → κ}
    (same : ∀ part ∈ parts, ∀ {copy : Tree (Option ι)}, part.copy = .ok copy → f' copy = f part)
    (each : List.Forall₂ (fun part copy => part.copy = .ok copy) parts copies) :
    copies.map f' = parts.map f := by
  induction each with
  | nil => rfl
  | cons first rest ih =>
      have later := ih fun part member => same part (List.mem_cons_of_mem _ member)
      rw [List.map_cons, List.map_cons, same _ List.mem_cons_self first, later]

theorem key_copy (made : tree.copy = .ok copied) : copied.key = tree.key := by
  induction tree using Tree.induct generalizing copied with
  | atom content =>
      cases made
      rfl
  | static label text =>
      cases made
      rfl
  | shared sharing identity contents ih =>
      obtain ⟨copies, each, rfl⟩ := copy_shared_eq_ok_iff.mp made
      exact key_shared_congr (map_eq_of_copies ih each)
  | node form parts ih =>
      obtain ⟨notHeld, copies, each, rfl⟩ := copy_node_eq_ok_iff.mp made
      rw [key_gather]
      cases form with
      | strategies counter => rfl
      | _ => exact key_node_congr (map_eq_of_copies ih (copyParts_deep_eq_ok_iff.mp each))

theorem partKey_copy (made : tree.copy = .ok copied) : copied.partKey = tree.partKey := by
  have whole := key_copy made
  cases tree with
  | atom content =>
      cases made
      rfl
  | static label text =>
      cases made
      rfl
  | shared sharing identity contents =>
      obtain ⟨copies, each, rfl⟩ := copy_shared_eq_ok_iff.mp made
      exact whole
  | node form parts =>
      obtain ⟨notHeld, copies, each, rfl⟩ := copy_node_eq_ok_iff.mp made
      cases form with
      | entry =>
          cases copyParts_deep_eq_ok_iff.mp each with
          | nil => exact whole
          | cons first rest => exact key_copy first
      | account maker owner balance => exact whole
      | _ => exact whole

theorem exists_of_mem_copies {copy : Tree (Option ι)}
    (each : List.Forall₂ (fun part copy => part.copy = .ok copy) parts copies) (member : copy ∈ copies) :
    ∃ part ∈ parts, part.copy = .ok copy := by
  induction each with
  | nil => cases member
  | @cons part first parts copies made rest ih =>
      rcases List.mem_cons.mp member with rfl | later
      · exact ⟨part, by simp, made⟩
      · obtain ⟨next, inside, nextMade⟩ := ih later
        exact ⟨next, by simp [inside], nextMade⟩

/-! What a copy shares. -/

theorem absorb_identities_perm (former new : Tree ι) :
    ((absorb former new).1.identities ++ (absorb former new).2.flatMap identities).Perm
      (former.identities ++ new.identities) := by
  classical
  fun_cases absorb former new with
  | case1 key value otherKey newValue =>
      rw [List.perm_iff_count]
      intro identity
      simp only [identities, identitiesOfAll_eq_flatMap, List.flatMap_cons, List.flatMap_nil, List.append_nil,
        List.count_append]
      omega
  | case2 => simp

theorem gather_identities_perm (form : Form) (parts : List (Tree ι)) :
    ((form.gather partKey absorb parts).kept.flatMap identities ++
        (form.gather partKey absorb parts).dropped.flatMap identities).Perm (parts.flatMap identities) := by
  exact Form.gather_flatMap_perm identities absorb_identities_perm form parts

theorem eq_none_of_mem_identities_copy (owning : tree.Everywhere fun form _ => Owning form)
    (made : tree.copy = .ok copied) {one : Option ι} (member : one ∈ copied.identities) : one = none := by
  induction tree using Tree.induct generalizing copied with
  | atom content =>
      cases made
      simp [identities] at member
  | static label text =>
      cases made
      simp [identities] at member
  | shared sharing identity contents ih =>
      obtain ⟨copies, each, rfl⟩ := copy_shared_eq_ok_iff.mp made
      simp only [Everywhere, everywhereInAll_iff] at owning
      simp only [identities, identitiesOfAll_eq_flatMap, List.mem_cons, List.mem_flatMap] at member
      rcases member with same | ⟨copy, inside, here⟩
      · exact same
      · obtain ⟨part, present, partMade⟩ := exists_of_mem_copies each inside
        exact ih part present (owning part present) partMade here
  | node form parts ih =>
      simp only [Everywhere, everywhereInAll_iff] at owning
      obtain ⟨notHeld, copies, each, rfl⟩ := (copy_node_of_owning owning.1).mp made
      simp only [identities, identitiesOfAll_eq_flatMap] at member
      have given := (gather_identities_perm form.copied copies).mem_iff.mp (List.mem_append_left _ member)
      obtain ⟨copy, inside, here⟩ := List.mem_flatMap.mp given
      obtain ⟨part, present, partMade⟩ := exists_of_mem_copies each inside
      exact ih part present (owning.2 part present) partMade here

/-! Values in order. -/

/-- What a struct without shared parts has, and a keyed collection with its parts in order. -/
structure Orderly (form : Form) (parts : List (Tree ι)) : Prop where
  owning : Owning form
  ordered : form.Ordered (parts.map partKey)
  hashed : form.Hashed (parts.map partKey)

theorem ordered_copied (keys : List Key) : form.copied.Ordered keys ↔ form.Ordered keys := by
  cases form <;> rfl

theorem hashed_copied (keys : List Key) : form.copied.Hashed keys ↔ form.Hashed keys := by
  cases form <;> rfl

theorem Orderly.gather_copies (orderly : Orderly form parts)
    (each : List.Forall₂ (fun part copy => part.copy = .ok copy) parts copies) :
    form.copied.Ordered (copies.map partKey) ∧ form.copied.Hashed (copies.map partKey) := by
  have keys : copies.map partKey = parts.map partKey :=
    map_eq_of_copies (fun part _ => partKey_copy) each
  rw [keys, ordered_copied, hashed_copied]
  exact ⟨orderly.ordered, orderly.hashed⟩

theorem length_identities_copy (orderly : tree.Everywhere Orderly) (made : tree.copy = .ok copied) :
    copied.identities.length = tree.identities.length := by
  induction tree using Tree.induct generalizing copied with
  | atom content =>
      cases made
      rfl
  | static label text =>
      cases made
      rfl
  | shared sharing identity contents ih =>
      obtain ⟨copies, each, rfl⟩ := copy_shared_eq_ok_iff.mp made
      simp only [Everywhere, everywhereInAll_iff] at orderly
      have lengths : copies.map (·.identities.length) = contents.map (·.identities.length) :=
        map_eq_of_copies (fun part member => ih part member (orderly part member)) each
      simp only [identities, identitiesOfAll_eq_flatMap, List.length_cons, List.length_flatMap, lengths]
  | node form parts ih =>
      simp only [Everywhere, everywhereInAll_iff] at orderly
      obtain ⟨notHeld, copies, each, rfl⟩ := (copy_node_of_owning orderly.1.owning).mp made
      have lengths : copies.map (·.identities.length) = parts.map (·.identities.length) :=
        map_eq_of_copies (fun part member => ih part member (orderly.2 part member)) each
      obtain ⟨ordered, hashed⟩ := orderly.1.gather_copies each
      have kept : (form.copied.gather partKey absorb copies).kept.Perm copies :=
        (Form.gather_of_ordered ordered hashed).2
      simp only [identities, identitiesOfAll_eq_flatMap, (kept.flatMap_right identities).length_eq,
        List.length_flatMap, lengths]

/-! What a copy leaves as it is. -/

/-- What a node has whose copy is like it. -/
structure Settled (form : Form) (parts : List (Tree ι)) : Prop where
  owning : Owning form
  copied : form.copied = form
  free : form ≠ .refCell true
  kept : (form.gather partKey absorb parts).kept = parts

theorem map_eq_node {f : ι → κ} {trees : List (Tree κ)} (same : tree.map f = .node form trees) :
    ∃ parts, tree = .node form parts ∧ parts.map (map f) = trees := by
  cases tree with
  | node otherForm parts =>
      simp only [map, mapAll_eq_map, node.injEq] at same
      exact ⟨parts, by rw [same.1], same.2⟩
  | _ => cases same

theorem absorb_map (f : ι → κ) (former new : Tree ι) :
    absorb (former.map f) (new.map f) = (absorb former new).map (map f) (List.map (map f)) := by
  fun_cases absorb former new with
  | case1 key value otherKey newValue => rfl
  | case2 =>
      rename_i apart
      unfold absorb
      split
      · rename_i formerEq newEq
        obtain ⟨formerParts, rfl, formerTrees⟩ := map_eq_node formerEq
        obtain ⟨newParts, rfl, newTrees⟩ := map_eq_node newEq
        obtain ⟨key, value, rfl⟩ : ∃ key value, formerParts = [key, value] := by
          exact List.length_eq_two.mp (by simpa using congrArg List.length formerTrees)
        obtain ⟨otherKey, newValue, rfl⟩ : ∃ key value, newParts = [key, value] := by
          exact List.length_eq_two.mp (by simpa using congrArg List.length newTrees)
        exact (apart key value otherKey newValue rfl rfl).elim
      · rfl

theorem gather_mapped (f : ι → κ) (form : Form) (parts : List (Tree ι)) :
    form.gather partKey absorb (parts.map (map f)) =
      ⟨(form.gather partKey absorb parts).kept.map (map f),
        (form.gather partKey absorb parts).dropped.map (map f)⟩ := by
  exact Form.gather_map form (fun part _ => partKey_map f part) (absorb_map f)

theorem copy_of_settled (settled : tree.Everywhere Settled) :
    tree.copy = .ok (tree.map fun _ => none) := by
  induction tree using Tree.induct with
  | atom content => rfl
  | static label text => rfl
  | shared sharing identity contents ih =>
      simp only [Everywhere, everywhereInAll_iff] at settled
      have each : List.Forall₂ (fun part copy => part.copy = .ok copy) contents
          (contents.map (map fun _ => none)) := by
        rw [List.forall₂_map_right_iff, List.forall₂_same]
        exact fun part member => ih part member (settled part member)
      simp only [map, mapAll_eq_map]
      exact copy_shared_eq_ok_iff.mpr ⟨_, each, rfl⟩
  | node form parts ih =>
      simp only [Everywhere, everywhereInAll_iff] at settled
      obtain ⟨owning, copied, free, kept⟩ := settled.1
      have each : List.Forall₂ (fun part copy => part.copy = .ok copy) parts
          (parts.map (map fun _ => none)) := by
        rw [List.forall₂_map_right_iff, List.forall₂_same]
        exact fun part member => ih part member (settled.2 part member)
      simp only [map, mapAll_eq_map]
      refine (copy_node_of_owning owning).mpr ⟨free, _, each, ?_⟩
      rw [copied, gather_mapped, kept]

theorem treat_map (f : ι → κ) (copied : Except Trail (Tree (Option ι))) (part : Tree ι)
    (treatment : Treatment) :
    treat (copied.map (map (Option.map f))) (part.map f) treatment =
      (treat copied part treatment).map (map (Option.map f)) := by
  cases treatment with
  | deep => rfl
  | share => simp [treat, Except.map, map_map, Function.comp_def]
  | reset => rfl

theorem copyParts_map {f : ι → κ}
    (each : ∀ part ∈ parts, (part.map f).copy = part.copy.map (map (Option.map f)))
    (treatment : Nat → Treatment) (step : Nat) :
    copyParts treatment step (parts.map (map f)) =
      (copyParts treatment step parts).map (List.map (map (Option.map f))) := by
  induction parts generalizing step with
  | nil => rfl
  | cons part parts ih =>
      have first : (part.map f).copy.mapError (step :: ·) =
          (part.copy.mapError (step :: ·)).map (map (Option.map f)) := by
        rw [each part (by simp)]
        cases part.copy <;> rfl
      rw [List.map_cons, copyParts, copyParts, first, treat_map,
        ih fun other member => each other (by simp [member])]
      cases treat (part.copy.mapError (step :: ·)) part (treatment step) with
      | error trail => rfl
      | ok copy => cases copyParts treatment (step + 1) parts <;> rfl

theorem copy_map (f : ι → κ) (tree : Tree ι) :
    (tree.map f).copy = tree.copy.map (map (Option.map f)) := by
  induction tree using Tree.induct with
  | atom content => rfl
  | static label text => rfl
  | shared sharing identity contents ih =>
      rw [map, mapAll_eq_map, copy, copy, copyParts_map ih]
      cases copyParts (fun _ => .deep) 0 contents with
      | error trail => rfl
      | ok copies => simp [bind, Except.bind, pure, Except.pure, Except.map, map]
  | node form parts ih =>
      rw [map, mapAll_eq_map, copy, copy, copyParts_map ih]
      split
      · rfl
      · cases copyParts form.treatment 0 parts with
        | error trail => rfl
        | ok copies => simp [bind, Except.bind, pure, Except.pure, Except.map, map, gather_mapped]

theorem upper_upper (name : String) : Form.upper (Form.upper name) = Form.upper name := by
  simp only [Form.upper, String.toList_ofList, List.map_map]
  congr 1
  exact List.map_congr_left fun char _ => toUpper_toUpper char

theorem copied_copied (owning : Owning form) : form.copied.copied = form.copied := by
  cases form with
  | strategies counter => exact absurd rfl (owning counter)
  | library name => exact congrArg Form.library (upper_upper name)
  | _ => rfl

theorem owning_copied (owning : Owning form) : Owning form.copied := by
  cases form with
  | strategies counter => exact absurd rfl (owning counter)
  | _ => simp [Owning, Form.copied]

theorem copied_ne_held (free : form ≠ .refCell true) : form.copied ≠ .refCell true := by
  cases form <;> simp_all [Form.copied]

theorem settled_absorb {former new : Tree ι} (formerSettled : former.Everywhere Settled)
    (newSettled : new.Everywhere Settled) : (absorb former new).1.Everywhere Settled := by
  fun_cases absorb former new with
  | case1 key value otherKey newValue =>
      simp only [Everywhere, EverywhereInAll, and_true] at formerSettled newSettled ⊢
      exact ⟨⟨formerSettled.1.owning, rfl, by simp, rfl⟩, formerSettled.2.1, newSettled.2.2⟩
  | case2 => exact formerSettled

/-- To copy a copy finds nothing more to change. -/
theorem settled_copy (owning : tree.Everywhere fun form _ => Owning form) (made : tree.copy = .ok copied) :
    copied.Everywhere Settled := by
  induction tree using Tree.induct generalizing copied with
  | atom content =>
      cases made
      trivial
  | static label text =>
      cases made
      trivial
  | shared sharing identity contents ih =>
      obtain ⟨copies, each, rfl⟩ := copy_shared_eq_ok_iff.mp made
      simp only [Everywhere, everywhereInAll_iff] at owning ⊢
      intro copy member
      obtain ⟨part, present, partMade⟩ := exists_of_mem_copies each member
      exact ih part present (owning part present) partMade
  | node form parts ih =>
      simp only [Everywhere, everywhereInAll_iff] at owning
      obtain ⟨free, copies, each, rfl⟩ := (copy_node_of_owning owning.1).mp made
      simp only [Everywhere, everywhereInAll_iff]
      refine ⟨⟨owning_copied owning.1, copied_copied owning.1, copied_ne_held free,
        Form.gather_gather partKey_absorb form.copied copies⟩, ?_⟩
      refine Form.forall_gather (fun _ _ => settled_absorb) form.copied ?_
      intro copy member
      obtain ⟨part, present, partMade⟩ := exists_of_mem_copies each member
      exact ih part present (owning.2 part present) partMade

theorem exists_copy_of_settled_map {f : ι → κ} (settled : (tree.map f).Everywhere Settled) :
    ∃ copied, tree.copy = .ok copied ∧ copied.forget = tree.forget := by
  have whole := copy_of_settled settled
  rw [copy_map] at whole
  cases made : tree.copy with
  | error trail =>
      rw [made] at whole
      cases whole
  | ok copied =>
      rw [made, Except.map, Except.ok.injEq] at whole
      have same := congrArg forget whole
      rw [forget_map, forget_map, forget_map] at same
      exact ⟨copied, rfl, same⟩

end Tree

end Replica
