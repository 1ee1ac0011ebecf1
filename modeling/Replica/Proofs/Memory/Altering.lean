import Replica.Memory.Path
import Replica.Proofs.Memory.Backing

/-!
Alterations at the end of a trail. A write exchanges the handles at one place, and what only changes forms
on the way leaves all handles as they are.
-/

namespace Replica

namespace Store

variable {store : Store} {address : Address} {allocation : Allocation} {contents : List Value}
  {held : List Address}

theorem count_addresses_set {values : List Value} {step : Nat} {former : Value}
    (found : values[step]? = some former) (changed : Value) (other : Address) :
    (Value.addressesOfAll (values.set step changed)).count other + former.addresses.count other =
      (Value.addressesOfAll values).count other + changed.addresses.count other := by
  rw [Value.addressesOfAll_eq_flatMap, Value.addressesOfAll_eq_flatMap]
  exact List.count_flatMap_set Value.addresses other found changed

theorem addressesOfAll_set {values : List Value} {step : Nat} {former changed : Value}
    (found : values[step]? = some former) (same : changed.addresses = former.addresses) :
    Value.addressesOfAll (values.set step changed) = Value.addressesOfAll values := by
  rw [Value.addressesOfAll_eq_flatMap, Value.addressesOfAll_eq_flatMap, List.flatMap_def, List.flatMap_def,
    List.map_set_of_eq found same]

/-- Puts handles into a value or an allocation in exchange for others that were in the same place. -/
def Exchanges (store : Store) (value former new : Value) : Rewriting → Prop
  | .own altered => ∀ other, altered.addresses.count other + former.addresses.count other =
      value.addresses.count other + new.addresses.count other
  | .behind address changed => ∃ contents, store.contents? address = some contents ∧
      ∀ other, (Value.addressesOfAll changed).count other + former.addresses.count other =
        (Value.addressesOfAll contents).count other + new.addresses.count other

/-- What a trail leads to can be written, and only handles of the part at its end are exchanged. -/
theorem rewrite?_exchanges {trail : Trail} {value former : Value} (new : Value)
    (found : store.follow? trail value = some former) :
    ∃ rewriting, store.rewrite? new trail value = some rewriting ∧
      store.Exchanges value former new rewriting := by
  induction trail generalizing value with
  | nil =>
      cases found
      exact ⟨.own new, rfl, fun other => Nat.add_comm _ _⟩
  | cons step trail ih =>
      obtain ⟨next, isNext, rest⟩ := Option.bind_eq_some_iff.mp found
      obtain ⟨rewriting, rewritten, exchanged⟩ := ih rest
      cases value with
      | atom content => cases isNext
      | static label text => cases isNext
      | node form parts =>
          have here : parts[step]? = some next := isNext
          refine ⟨rewriting.within fun part => .own (.node form (parts.set step part)), ?_, ?_⟩
          · simp [rewrite?, here, rewritten]
          · cases rewriting with
            | own altered =>
                intro other
                -- The part counts as before, but for what goes out of it and what comes in.
                have moved := count_addresses_set here altered other
                have given := exchanged other
                simp only [Value.addresses]
                omega
            | behind address changed => exact exchanged
      | handle sharing holder =>
          obtain ⟨contents, held, here⟩ := Option.bind_eq_some_iff.mp isNext
          refine ⟨rewriting.within fun part => .behind holder (contents.set step part), ?_, ?_⟩
          · simp [rewrite?, held, here, rewritten]
          · cases rewriting with
            | own altered =>
                refine ⟨contents, held, fun other => ?_⟩
                have moved := count_addresses_set here altered other
                have given := exchanged other
                omega
            | behind address changed => exact exchanged

/-- How an allocation looks to the handles to it and in it. -/
def outline (allocation : Allocation) : Nat × List Address :=
  (allocation.count, Value.addressesOfAll allocation.contents)

/-- A store that differs from another in nothing that has to do with handles. -/
structure SameHandles (later store : Store) : Prop where
  size_eq : later.slots.size = store.slots.size
  labels_eq : later.labels = store.labels
  outline_eq : ∀ address, (later.get? address).map outline = (store.get? address).map outline

namespace SameHandles

variable {later : Store}

theorem refl (store : Store) : store.SameHandles store := ⟨rfl, rfl, fun _ => rfl⟩

theorem exists_outline (same : later.SameHandles store) (found : later.get? address = some allocation) :
    ∃ former, store.get? address = some former ∧ outline former = outline allocation := by
  have outlines := same.outline_eq address
  rw [found, Option.map_some] at outlines
  exact Option.map_eq_some_iff.mp outlines.symm

theorem setContents (same : later.SameHandles store) (found : store.contents? address = some contents)
    {changed : List Value} (handles : Value.addressesOfAll changed = Value.addressesOfAll contents) :
    (later.setContents address changed).SameHandles store := by
  refine ⟨by rw [size_setContents, same.size_eq], by rw [labels_setContents, same.labels_eq], fun other => ?_⟩
  rw [get?_setContents]
  split
  · rename_i isAddress
    subst isAddress
    obtain ⟨allocation, holds, rfl⟩ := contents?_eq_some_iff.mp found
    rw [← same.outline_eq, Option.map_map]
    have outlines := same.outline_eq other
    cases here : later.get? other with
    | none => rfl
    | some present =>
        rw [here, holds, Option.map_some, Option.map_some, Option.some.injEq] at outlines
        have inside := congrArg Prod.snd outlines
        simp only [outline] at inside
        simp [outline, handles, inside]
  · exact same.outline_eq other

theorem acyclic (same : later.SameHandles store) (acyclic : store.Acyclic) : later.Acyclic := by
  apply acyclic.of_pointsTo
  rintro address other ⟨contents, found, inside⟩
  obtain ⟨allocation, holds, rfl⟩ := contents?_eq_some_iff.mp found
  obtain ⟨former, before, outlines⟩ := same.exists_outline holds
  have handles : Value.addressesOfAll former.contents = Value.addressesOfAll allocation.contents :=
    congrArg Prod.snd outlines
  exact ⟨former.contents, contents?_eq_some_iff.mpr ⟨former, before, rfl⟩, handles ▸ inside⟩

theorem handlesFrom_eq (same : later.SameHandles store) : later.handlesFrom 0 = store.handlesFrom 0 := by
  rw [handlesFrom_zero (Nat.le_refl _), handlesFrom_zero (Nat.le_refl _), handlesFrom_size, handlesFrom_size,
    same.size_eq]
  congr 1
  apply List.flatMap_congr
  intro address _
  have outlines := congrArg (Option.map Prod.snd) (same.outline_eq address)
  cases here : later.get? address <;> cases there : store.get? address <;>
    simp_all [outline, slotHandles]

theorem count_eq (same : later.SameHandles store) (address : Address) :
    later.count address = store.count address := by
  have outlines := congrArg (Option.map Prod.fst) (same.outline_eq address)
  rw [Option.map_map, Option.map_map] at outlines
  exact congrArg (Option.getD · 0) outlines

theorem exact (same : later.SameHandles store) (counts : Exact held store) : Exact held later where
  counted address := by
    rw [same.handlesFrom_eq, same.count_eq]
    exact counts.counted address
  positive address allocation found := by
    obtain ⟨former, before, outlines⟩ := same.exists_outline found
    have same : former.count = allocation.count := congrArg Prod.fst outlines
    rw [← same]
    exact counts.positive address former before

end SameHandles

theorem sameHandles_alter (store : Store) (passing : Form → Form) {change : Value → Value}
    (same : ∀ value, (change value).addresses = value.addresses) (trail : Trail) (value : Value) :
    (alter passing change trail value store).1.addresses = value.addresses ∧
      (alter passing change trail value store).2.SameHandles store := by
  induction trail generalizing value with
  | nil => exact ⟨by cases value <;> exact same _, by cases value <;> exact .refl store⟩
  | cons step trail ih =>
      cases value with
      | atom content => exact ⟨rfl, .refl store⟩
      | static label text => exact ⟨rfl, .refl store⟩
      | node form parts =>
          simp only [alter]
          cases here : parts[step]? with
          | none => exact ⟨rfl, .refl store⟩
          | some part =>
              obtain ⟨altered, later⟩ := ih part
              exact ⟨addressesOfAll_set here altered, later⟩
      | handle sharing address =>
          simp only [alter]
          cases found : store.contents? address with
          | none => exact ⟨rfl, .refl store⟩
          | some contents =>
              simp only
              cases here : contents[step]? with
              | none => exact ⟨rfl, .refl store⟩
              | some part =>
                  obtain ⟨altered, later⟩ := ih part
                  exact ⟨rfl, later.setContents found (addressesOfAll_set here altered)⟩

end Store

end Replica
