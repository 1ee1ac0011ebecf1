import Replica.Proofs.Memory.Apart
import Replica.Proofs.Memory.Outcome
import Replica.Proofs.Memory.Soothing

/-!
Two copies side by side, in two stores that a copy cannot tell apart. They come to the same result, at other
addresses perhaps, and whatever the operations of a copy keep about both stores holds behind them as well.
-/

namespace Replica

namespace Value

/-- A value that is apart from what was in a store before its size was `first`. -/
abbrev New (first : Address) : Value → Prop :=
  Apart first fun _ => True

/-- The same for the parts of a node, from the one with the number `step` on. -/
def NewParts (first : Address) (treatment : Nat → Treatment) (step : Nat) (parts : List Value) : Prop :=
  ∀ place part, parts[place]? = some part → treatment (step + place) ≠ .share → part.New first

theorem NewParts.nil {first : Address} {treatment : Nat → Treatment} {step : Nat} :
    NewParts first treatment step [] := by
  intro place part found
  cases found

theorem NewParts.cons {first : Address} {treatment : Nat → Treatment} {step : Nat} {part : Value}
    {parts : List Value} (firstNew : treatment step ≠ .share → part.New first)
    (othersNew : NewParts first treatment (step + 1) parts) :
    NewParts first treatment step (part :: parts) := by
  intro place other found unshared
  cases place with
  | zero =>
      cases found
      exact firstNew unshared
  | succ place =>
      apply othersNew place other found
      rwa [Nat.add_assoc, Nat.add_comm 1 place]

end Value

namespace Copying

/-- A property of two stores, given the handles that are held in the first one, which all operations of a copy
keep. A handle in the first store stands for the one to the address that `f` names in the second. -/
structure Lockstep (f : Address → Address) (live : Address → Prop) (first : Address)
    (keeps : List Address → Store → Store → Prop) : Prop where
  of_perm {held more : List Address} {store twin : Store} :
    held.Perm more → keeps held store twin → keeps more store twin
  fixed : ∀ address, live address → f address = address
  retain {held : List Address} {store twin : Store} : ∀ address, live address → keeps held store twin →
    keeps (address :: held) (store.retain address) (twin.retain address)
  allocate {held : List Address} {store twin : Store} : ∀ contents, (∀ part ∈ contents, part.New first) →
    keeps (Value.addressesOfAll contents ++ held) store twin →
      first ≤ store.slots.size ∧ twin.slots.size = f store.slots.size ∧ keeps (store.slots.size :: held) (store.allocate contents).2
        (twin.allocate (contents.map (Value.rename f))).2
  release {addresses held : List Address} {store twin : Store} : keeps (addresses ++ held) store twin →
    keeps held (store.release addresses) (twin.release (addresses.map f))
  partKey {held : List Address} {store twin : Store} : ∀ part : Value, part.New first →
    (∀ address ∈ part.addresses, address ∈ held) → keeps held store twin →
      twin.partKey (part.rename f) = store.partKey part
  contents {held : List Address} {store twin : Store} : ∀ address, live address → keeps held store twin →
    ∃ contents twins, store.contents? address = some contents ∧ twin.contents? address = some twins ∧
      twins.map Value.soothe = contents.map Value.soothe ∧
      ∀ other ∈ Value.addressesOfAll contents, live other

variable {f : Address → Address} {live : Address → Prop} {first : Address}
  {keeps : List Address → Store → Store → Prop} {held kept more addresses : List Address} {store twin : Store} {α β : Type}

/-- Both copies have come to the same result, which is new, and what is to be kept holds of both stores. -/
def InStep (keeps : List Address → Store → Store → Prop) (held kept : List Address) (isNew : α → Prop)
    (handles : α → List Address) (rename : α → α) :
    Except Halt α × Store → Except Halt α × Store → Prop
  | (.ok result, store), (.ok other, twin) =>
    other = rename result ∧ isNew result ∧ keeps (handles result ++ kept) store twin
  | (.error halt, store), (.error other, twin) => other = halt ∧ keeps held store twin
  | _, _ => False

namespace InStep

variable {isNew : α → Prop} {handles : α → List Address} {rename : α → α} {otherNew : β → Prop}
  {otherHandles : β → List Address} {otherRename : β → β} {copying other : Copying α}

theorem ends {run otherRun : Except Halt α × Store}
    (inStep : InStep keeps held kept isNew handles rename run otherRun) :
    (∃ result later last, run = (.ok result, later) ∧ otherRun = (.ok (rename result), last) ∧ isNew result ∧
      keeps (handles result ++ kept) later last) ∨
    ∃ halt later last, run = (.error halt, later) ∧ otherRun = (.error halt, last) ∧ keeps held later last := by
  obtain ⟨outcome, later⟩ := run
  obtain ⟨otherOutcome, last⟩ := otherRun
  cases outcome with
  | ok result =>
      cases otherOutcome with
      | ok other =>
          obtain ⟨rfl, new, keeping⟩ := inStep
          exact .inl ⟨result, later, last, rfl, rfl, new, keeping⟩
      | error halt => exact inStep.elim
  | error halt =>
      cases otherOutcome with
      | ok other => exact inStep.elim
      | error other =>
          obtain ⟨rfl, keeping⟩ := inStep
          exact .inr ⟨_, later, last, rfl, rfl, keeping⟩

theorem bind {rest further : α → Copying β}
    (start : InStep keeps held kept isNew handles rename (copying store) (other twin))
    (each : ∀ result store twin, isNew result → keeps (handles result ++ kept) store twin →
      InStep keeps held more otherNew otherHandles otherRename (rest result store)
        (further (rename result) twin)) :
    InStep keeps held more otherNew otherHandles otherRename ((copying >>= rest) store) ((other >>= further) twin) := by
  rw [bind_apply, bind_apply]
  obtain ⟨result, later, last, ran, otherRan, new, keeping⟩ | ⟨halt, later, last, ran, otherRan, keeping⟩ := start.ends
  · rw [ran, otherRan]
    exact each result later last new keeping
  · rw [ran, otherRan]
    exact ⟨rfl, keeping⟩

theorem result_eq {result otherResult : Except Halt α}
    (ended : InStep keeps [] [] isNew handles rename (result, store) (otherResult, twin)) :
    otherResult = result.map rename ∧ keeps (result.toOption.elim [] handles) store twin := by
  obtain ⟨_, _, _, ran, otherRan, _, keeping⟩ | ⟨_, _, _, ran, otherRan, keeping⟩ := ended.ends
  · cases ran
    cases otherRan
    rw [List.append_nil] at keeping
    exact ⟨rfl, keeping⟩
  · cases ran
    cases otherRan
    exact ⟨rfl, keeping⟩

theorem of_new {isOther : α → Prop} (start : InStep keeps held kept isNew handles rename (copying store) (other twin))
    (each : ∀ result, isNew result → isOther result) :
    InStep keeps held kept isOther handles rename (copying store) (other twin) := by
  obtain ⟨result, later, last, ran, otherRan, new, keeping⟩ | ⟨halt, later, last, ran, otherRan, keeping⟩ := start.ends
  · rw [ran, otherRan]
    exact ⟨rfl, each result new, keeping⟩
  · rw [ran, otherRan]
    exact ⟨rfl, keeping⟩

theorem behind (start : InStep keeps held kept isNew handles rename (copying store) (other twin)) (step : Nat) :
    InStep keeps held kept isNew handles rename (Copying.behind step copying store)
      (Copying.behind step other twin) := by
  rw [Copying.behind, Copying.behind]
  obtain ⟨result, later, last, ran, otherRan, new, keeping⟩ | ⟨halt, later, last, ran, otherRan, keeping⟩ := start.ends
  · rw [ran, otherRan]
    exact ⟨rfl, new, keeping⟩
  · rw [ran, otherRan]
    exact ⟨rfl, keeping⟩

theorem orRelease (lockstep : Lockstep f live first keeps)
    (start : InStep keeps (addresses ++ held) kept isNew handles rename (copying store) (other twin)) :
    InStep keeps held kept isNew handles rename (Copying.orRelease addresses copying store)
      (Copying.orRelease (addresses.map f) other twin) := by
  rw [Copying.orRelease, Copying.orRelease]
  obtain ⟨result, later, last, ran, otherRan, new, keeping⟩ | ⟨halt, later, last, ran, otherRan, keeping⟩ := start.ends
  · rw [ran, otherRan]
    exact ⟨rfl, new, keeping⟩
  · rw [ran, otherRan]
    exact ⟨rfl, lockstep.release keeping⟩

end InStep

namespace Lockstep

theorem retainAll (lockstep : Lockstep f live first keeps) (each : ∀ address ∈ addresses, live address)
    (keeping : keeps held store twin) :
    keeps (addresses ++ held) (store.retainAll addresses) (twin.retainAll addresses) := by
  induction addresses generalizing held store twin with
  | nil => exact keeping
  | cons address addresses ih =>
      obtain ⟨isLive, others⟩ := List.forall_mem_cons.mp each
      have rest := ih others (lockstep.retain address isLive keeping)
      exact lockstep.of_perm List.perm_middle rest

theorem gather (lockstep : Lockstep f live first keeps) (form : Form) {parts : List Value}
    (new : Value.NewParts first form.treatment 0 parts)
    (keeping : keeps (Value.addressesOfAll parts ++ held) store twin) :
    twin.gather form (parts.map (Value.rename f)) =
      ⟨(store.gather form parts).kept.map (Value.rename f),
        (store.gather form parts).dropped.map (Value.rename f)⟩ := by
  by_cases owning : Tree.Owning form
  · apply Form.gather_map form _ (Value.absorb_rename f)
    intro part member
    obtain ⟨step, found⟩ := List.mem_iff_getElem?.mp member
    apply lockstep.partKey part (new step part found (by simp [owning.treatment])) _ keeping
    exact fun address inside => List.mem_append_left _ (Value.mem_addressesOfAll.mpr ⟨part, member, inside⟩)
  · -- Shared parts need not be new, but a struct that has such parts does not ask for their keys.
    simp only [Tree.Owning, not_forall, not_not] at owning
    obtain ⟨counter, rfl⟩ := owning
    rfl

theorem assemble (lockstep : Lockstep f live first keeps) (form : Form) {parts : List Value}
    (new : Value.NewParts first form.treatment 0 parts)
    (keeping : keeps (Value.addressesOfAll parts ++ held) store twin) :
    (twin.assemble form (parts.map (Value.rename f))).1 = (store.assemble form parts).1.rename f ∧
      (store.assemble form parts).1.New first ∧
      keeps ((store.assemble form parts).1.addresses ++ held) (store.assemble form parts).2
        (twin.assemble form (parts.map (Value.rename f))).2 := by
  have gathered := lockstep.gather form new keeping
  have conserved := Value.gather_addresses_perm store form parts
  rw [Store.assemble, Store.assemble, gathered]
  refine ⟨by simp [Value.rename], ?_, ?_⟩
  · apply Value.Apart.gather trivial
    intro step part found unshared
    exact new step part found (by rwa [Nat.zero_add])
  dsimp only
  rw [Value.addressesOfAll_map_rename]
  apply lockstep.release
  rw [← List.append_assoc]
  exact lockstep.of_perm (conserved.symm.append_right held) keeping

end Lockstep

end Copying

namespace Value

open Copying

variable {f : Address → Address} {live : Address → Prop} {first : Address}
  {keeps : List Address → Store → Store → Prop} {held : List Address} {store twin : Store}
  {follow other : Address → Copying Address} (lockstep : Lockstep f live first keeps)
include lockstep

theorem treat_inStep {copying otherCopying : Copying Value} {value twinValue : Value}
    (treatment : Treatment) (isLive : ∀ address ∈ value.addresses, live address)
    (same : treatment = .share → twinValue = value) (keeping : keeps held store twin)
    (copied : InStep keeps held held (New first) Value.addresses (rename f) (copying store)
      (otherCopying twin)) :
    InStep keeps held held (fun copy => treatment ≠ .share → copy.New first) Value.addresses (rename f)
      (treat copying value treatment store) (treat otherCopying twinValue treatment twin) := by
  cases treatment with
  | deep => exact copied.of_new fun copy new _ => new
  | share =>
      rw [same rfl]
      refine ⟨?_, fun impossible => absurd rfl impossible, lockstep.retainAll isLive keeping⟩
      exact (rename_of_fixed fun address member => lockstep.fixed address (isLive address member)).symm
  | reset => exact ⟨rfl, fun _ => .node trivial (by simp), keeping⟩

theorem copyParts_inStep (treatment : Nat → Treatment) {values twins : List Value} {step : Nat}
    (each : ∀ value ∈ values, ∀ twinValue, twinValue.soothe = value.soothe → ∀ held store twin,
      keeps held store twin → InStep keeps held held (New first) Value.addresses (rename f)
        (copyWith follow value store) (copyWith other twinValue twin))
    (isLive : ∀ value ∈ values, ∀ address ∈ value.addresses, live address)
    (same : sootheParts treatment step twins = sootheParts treatment step values)
    (keeping : keeps held store twin) :
    InStep keeps held held (NewParts first treatment step) addressesOfAll (List.map (rename f))
      (copyParts follow treatment step values store) (copyParts other treatment step twins twin) := by
  induction values generalizing twins step held store twin with
  | nil =>
      cases twins with
      | nil => exact ⟨rfl, .nil, keeping⟩
      | cons twinValue twins => cases same
  | cons value values ih =>
      cases twins with
      | nil => cases same
      | cons twinValue twins =>
          obtain ⟨eachFirst, eachOther⟩ := List.forall_mem_cons.mp each
          obtain ⟨liveFirst, liveOther⟩ := List.forall_mem_cons.mp isLive
          simp only [sootheParts, List.cons.injEq] at same
          obtain ⟨firstSame, otherSame⟩ := same
          have soothed : twinValue.soothe = value.soothe := by
            split at firstSame
            · rw [firstSame]
            · exact firstSame
          have shared : treatment step = .share → twinValue = value := by
            intro isShared
            rwa [if_pos isShared, if_pos isShared] at firstSame
          have start := treat_inStep lockstep (treatment step) liveFirst shared keeping
            ((eachFirst twinValue soothed held store twin keeping).behind step)
          rw [copyParts, copyParts]
          apply start.bind
          intro copy later last copyNew copied
          rw [addresses_rename]
          -- If the others stop, both runs give up their copy of the first.
          apply ((ih eachOther liveOther otherSame copied).orRelease lockstep).bind
          intro copies end' endTwin copiesNew copiedAll
          refine ⟨rfl, .cons copyNew copiesNew, ?_⟩
          rw [← List.append_assoc] at copiedAll
          exact lockstep.of_perm (List.perm_append_comm.append_right held) copiedAll

theorem copyWith_inStep
    (followed : ∀ address held store twin, live address → keeps held store twin →
      InStep keeps held held (first ≤ ·) (fun copy => [copy]) f (follow address store) (other address twin))
    {value twinValue : Value} (isLive : ∀ address ∈ value.addresses, live address)
    (same : twinValue.soothe = value.soothe) (keeping : keeps held store twin) :
    InStep keeps held held (New first) Value.addresses (rename f) (copyWith follow value store)
      (copyWith other twinValue twin) := by
  induction value using Value.induct generalizing twinValue held store twin with
  | atom content =>
      obtain rfl : twinValue = .atom content := by
        cases twinValue with
        | node form parts => cases same
        | _ => exact same
      exact ⟨rfl, .atom content, keeping⟩
  | static label text =>
      obtain rfl : twinValue = .static label text := by
        cases twinValue with
        | node form parts => cases same
        | _ => exact same
      exact ⟨rfl, .static label text, keeping⟩
  | handle sharing address =>
      obtain rfl := eq_handle_of_soothe same
      rw [copyWith, copyWith]
      exact (followed address held store twin (isLive address (by simp [Value.addresses])) keeping).bind
        fun copy later last isNew copied => ⟨rfl, .handle sharing isNew, copied⟩
  | node form parts ih =>
      obtain ⟨otherForm, twins, rfl, formSame, partsSame⟩ := exists_node_of_soothe same
      -- A cell that somebody changes stops both copies at once.
      by_cases isHeld : form = .refCell true
      · obtain rfl := (Form.eq_refCell_iff formSame true).mpr isHeld
        subst isHeld
        rw [copyWith, copyWith]
        exact ⟨rfl, keeping⟩
      · have otherFree : otherForm ≠ .refCell true := fun held =>
          isHeld ((Form.eq_refCell_iff formSame true).mp held)
        have liveParts : ∀ part ∈ parts, ∀ address ∈ part.addresses, live address :=
          fun part member address inside => isLive address (mem_addressesOfAll.mpr ⟨part, member, inside⟩)
        have copied : InStep keeps held held (NewParts first form.treatment 0) addressesOfAll
            (List.map (rename f)) (copyParts follow form.treatment 0 parts store)
            (copyParts other form.treatment 0 twins twin) :=
          copyParts_inStep lockstep form.treatment
            (fun part member twinPart partSame held store twin keeping =>
              ih part member (liveParts part member) partSame keeping)
            liveParts partsSame keeping
        rw [copyWith, copyWith, Form.treatment_eq formSame, Form.copied_eq formSame]
        · apply copied.bind
          intro copies later last new keeping
          exact lockstep.assemble form.copied (form.treatment_copied ▸ new) keeping
        · exact otherFree
        · exact isHeld

theorem copyAllocation_inStep (depth : Nat) {address : Address} (isLive : live address)
    (keeping : keeps held store twin) :
    InStep keeps held held (first ≤ ·) (fun copy => [copy]) f (copyAllocation depth address store)
      (copyAllocation depth address twin) := by
  induction depth generalizing address held store twin with
  | zero => exact ⟨rfl, keeping⟩
  | succ depth ih =>
      obtain ⟨contents, twins, found, twinFound, same, contentsLive⟩ :=
        lockstep.contents address isLive keeping
      have unshared : ∀ step : Nat, (fun _ => .deep : Nat → Treatment) step ≠ .share := by simp
      have eachLive : ∀ value ∈ contents, ∀ other ∈ value.addresses, live other :=
        fun value member other inside =>
          contentsLive other (mem_addressesOfAll.mpr ⟨value, member, inside⟩)
      have copied : InStep keeps held held (NewParts first (fun _ => .deep) 0) addressesOfAll
          (List.map (rename f)) (copyParts (copyAllocation depth) (fun _ => .deep) 0 contents store)
          (copyParts (copyAllocation depth) (fun _ => .deep) 0 twins twin) := by
        apply copyParts_inStep lockstep _ _ eachLive _ keeping
        · intro value member twinValue valueSame held store twin keeping
          refine copyWith_inStep lockstep ?_ (eachLive value member) valueSame keeping
          exact fun other held store twin isLive keeping => ih isLive keeping
        · rwa [sootheParts_of_unshared unshared, sootheParts_of_unshared unshared]
      rw [copyAllocation_succ, copyAllocation_succ, found, twinFound, Option.getD_some, Option.getD_some]
      apply copied.bind
      intro copies later last new keeping
      have eachNew : ∀ part ∈ copies, part.New first := by
        intro part member
        obtain ⟨step, inside⟩ := List.mem_iff_getElem?.mp member
        exact new step part inside (unshared step)
      obtain ⟨isNew, sameAddress, allocated⟩ := lockstep.allocate copies eachNew keeping
      exact ⟨sameAddress, isNew, allocated⟩

/-- Copies of values that differ in the poison of their locks only stay in step. -/
theorem copyTo_inStep (depth : Nat) {value twinValue : Value} (isLive : ∀ address ∈ value.addresses, live address)
    (same : twinValue.soothe = value.soothe) (keeping : keeps held store twin) :
    InStep keeps held held (New first) Value.addresses (rename f) (copyTo depth value store)
      (copyTo depth twinValue twin) := by
  refine copyWith_inStep lockstep ?_ isLive same keeping
  exact fun address held store twin isLive keeping => copyAllocation_inStep lockstep depth isLive keeping

end Value

open Copying in
/-- A copy is in step with itself, while the store grows by the handles that are made. -/
theorem Store.Sound.lockstep {old : Store} (sound : old.Sound) :
    Lockstep id (fun address => (old.get? address).isSome) old.slots.size
      fun held store twin => twin = store ∧ Growth old held store where
  of_perm same keeping := ⟨keeping.1, keeping.2.of_perm same⟩
  fixed _ _ := rfl
  retain address live keeping := ⟨by rw [keeping.1], keeping.2.retain live⟩
  allocate contents new keeping := by
    obtain ⟨rfl, growth⟩ := keeping
    refine ⟨growth.size_le, rfl, ?_, growth.allocate⟩
    have same : contents.map (Value.rename id) = contents := Value.map_rename_of_fixed fun _ _ => rfl
    rw [same]
  release keeping := by
    obtain ⟨rfl, growth⟩ := keeping
    exact ⟨by rw [List.map_id], growth.release sound⟩
  partKey part _ _ keeping := by rw [keeping.1, Value.rename_id]
  contents address live keeping := by
    obtain ⟨rfl, growth⟩ := keeping
    have bound := lt_size_of_isSome live
    obtain ⟨contents, found⟩ := exists_contents live
    have here := (growth.former_contents bound).trans found
    refine ⟨contents, contents, here, here, rfl, ?_⟩
    exact fun other member => sound.closed address other ⟨contents, found, member⟩

/-- What a copy leaves in any store, with circles or without: the handles in the copy, or none if it stops. -/
theorem Value.copy_leaves {old : Store} {value : Value} (sound : old.Sound) (live : old.Live value) :
    match value.copy.run old with
    | (.ok copy, later) => old.Growth copy.addresses later
    | (.error _, later) => old.Growth [] later := by
  have inStep := copyTo_inStep sound.lockstep old.depth live rfl ⟨rfl, .refl old⟩
  have run : copyTo old.depth value old = value.copy.run old := rfl
  rw [run] at inStep
  generalize value.copy.run old = result at inStep
  match result with
  | (.ok copy, later) =>
      have growth := inStep.2.2.2
      rwa [List.append_nil] at growth
  | (.error halt, later) => exact inStep.2.2

end Replica
