import Replica.Memory.Path
import Replica.Proofs.Memory.Gathering
import Replica.Proofs.Memory.Unfolding

/-!
Regions of a store. Whoever holds handles into a region only, and a region that is closed under what its
allocations hold, changes nothing outside of it.
-/

namespace Replica

open Store

variable {region : Address → Prop} {base store : Store} {address : Address} {allocation : Allocation}
  {contents : List Value}

namespace Value

def Inside (region : Address → Prop) (value : Value) : Prop :=
  ∀ address ∈ value.addresses, region address

theorem forall_mem_addressesOfAll {values : List Value} :
    (∀ address ∈ addressesOfAll values, region address) ↔ ∀ value ∈ values, value.Inside region := by
  constructor
  · intro inside value member address here
    exact inside address (mem_addressesOfAll.mpr ⟨value, member, here⟩)
  · intro inside address member
    obtain ⟨value, isValue, here⟩ := mem_addressesOfAll.mp member
    exact inside value isValue address here

theorem inside_node_iff {form : Form} {parts : List Value} :
    (node form parts).Inside region ↔ ∀ part ∈ parts, part.Inside region := by
  rw [Inside, addresses]
  exact forall_mem_addressesOfAll

theorem inside_handle_iff {sharing : Sharing} :
    (handle sharing address).Inside region ↔ region address := by
  simp [Inside, addresses]

theorem inside_set {values : List Value} {value : Value} {step : Nat}
    (inside : ∀ value ∈ values, value.Inside region) (new : value.Inside region) :
    ∀ other ∈ values.set step value, other.Inside region := by
  intro other member
  rcases List.mem_or_eq_of_mem_set member with former | rfl
  · exact inside other former
  · exact new

end Value

/-- What a write changes lies in the region. -/
def Rewriting.Inside (region : Address → Prop) : Rewriting → Prop
  | .own value => value.Inside region
  | .behind address contents => region address ∧ ∀ value ∈ contents, value.Inside region

namespace Store

theorem follow?_append (store : Store) (first second : Trail) (value : Value) :
    store.follow? (first ++ second) value = (store.follow? first value).bind (store.follow? second) := by
  induction first generalizing value with
  | nil => rfl
  | cons step first ih =>
      simp only [List.cons_append, follow?]
      cases store.child? value step with
      | none => rfl
      | some next => exact ih next

theorem follow?_of_walk? {admits : Passage → Bool} {path : List Nat} {value : Value} {access : Access}
    {place : Place} (walked : store.walk? admits path value access = some place) :
    store.follow? place.trail value = some place.value := by
  induction path generalizing value access place with
  | nil =>
      cases walked
      rfl
  | cons part path ih =>
      simp only [Store.walk?, Option.bind_eq_bind, Option.bind_eq_some_iff] at walked
      obtain ⟨⟨trail, passage⟩, _, walked⟩ := walked
      split at walked
      · simp at walked
      · simp only [Option.bind_eq_some_iff] at walked
        obtain ⟨next, reached, behind, rest, same⟩ := walked
        cases same
        rw [follow?_append, reached]
        exact ih rest

/-- A store that came from `base` by changes within a region. What is not yet allocated belongs to the
region. -/
structure Confined (region : Address → Prop) (base store : Store) : Prop where
  size_le : base.slots.size ≤ store.slots.size
  fresh : ∀ address, store.slots.size ≤ address → region address
  closed : ∀ address contents, region address → store.contents? address = some contents →
    ∀ value ∈ contents, value.Inside region
  outside : ∀ address, ¬ region address → store.get? address = base.get? address

namespace Confined

variable (confined : Confined region base store)
include confined

theorem allocate (inside : ∀ value ∈ contents, value.Inside region) :
    Confined region base (Store.allocate contents store).2 where
  size_le := by
    rw [size_allocate]
    exact Nat.le_succ_of_le confined.size_le
  fresh address beyond := by
    rw [size_allocate] at beyond
    exact confined.fresh address (Nat.le_of_succ_le beyond)
  closed address found here held := by
    obtain ⟨allocation, holds, rfl⟩ := contents?_eq_some_iff.mp held
    rw [get?_allocate] at holds
    split at holds
    · cases holds
      exact inside
    · exact confined.closed address _ here (contents?_eq_some_iff.mpr ⟨allocation, holds, rfl⟩)
  outside address away := by
    have isOther : address ≠ store.slots.size := by
      rintro rfl
      exact away (confined.fresh _ (Nat.le_refl _))
    rw [get?_allocate, if_neg isOther, confined.outside address away]

theorem static (text : String) : Confined region base (Store.static text store).2 where
  size_le := confined.size_le
  fresh := confined.fresh
  closed := confined.closed
  outside := confined.outside

theorem put (here : region address) (found : store.get? address = some allocation)
    (changed : Option Allocation)
    (inside : ∀ other ∈ changed, ∀ value ∈ other.contents, value.Inside region) :
    Confined region base (store.put address changed) where
  size_le := by
    rw [size_put]
    exact confined.size_le
  fresh other beyond := by
    rw [size_put] at beyond
    exact confined.fresh other beyond
  closed other contents otherHere held := by
    obtain ⟨holder, holds, rfl⟩ := contents?_eq_some_iff.mp held
    rw [get?_put found] at holds
    split at holds
    · exact inside holder holds
    · exact confined.closed other _ otherHere (contents?_eq_some_iff.mpr ⟨holder, holds, rfl⟩)
  outside other away := by
    have isOther : other ≠ address := by
      rintro rfl
      exact away here
    rw [get?_put found, if_neg isOther, confined.outside other away]

theorem contents_inside (here : region address) (found : store.get? address = some allocation) :
    ∀ value ∈ allocation.contents, value.Inside region :=
  confined.closed address _ here (contents?_eq_some_iff.mpr ⟨allocation, found, rfl⟩)

theorem retain (here : region address) : Confined region base (store.retain address) := by
  cases found : store.get? address with
  | none => simpa [Store.retain, found] using confined
  | some allocation =>
      rw [retain_of_get? found]
      have inside := confined.contents_inside here found
      apply confined.put here found
      rintro other ⟨rfl⟩
      exact inside

theorem setContents (here : region address) (inside : ∀ value ∈ contents, value.Inside region) :
    Confined region base (store.setContents address contents) := by
  cases found : store.get? address with
  | none => simpa [Store.setContents, found] using confined
  | some allocation =>
      rw [setContents_of_get? found]
      apply confined.put here found
      rintro other ⟨rfl⟩
      exact inside

theorem release {addresses : List Address} (inside : ∀ address ∈ addresses, region address) :
    Confined region base (store.release addresses) := by
  fun_induction Store.release addresses store with
  | case1 store => exact confined
  | case2 address rest store dead ih =>
      exact ih confined fun other member => inside other (List.mem_cons_of_mem _ member)
  | case3 address rest store allocation found last ih =>
      have here := inside address (by simp)
      apply ih (confined.put here found none (by simp))
      intro other member
      rcases List.mem_append.mp member with held | later
      · exact Value.forall_mem_addressesOfAll.mpr (confined.contents_inside here found) other held
      · exact inside other (List.mem_cons_of_mem _ later)
  | case4 address rest store allocation found more ih =>
      have here := inside address (by simp)
      have contentsInside := confined.contents_inside here found
      apply ih
      · apply confined.put here found
        rintro other ⟨rfl⟩
        exact contentsInside
      · exact fun other member => inside other (List.mem_cons_of_mem _ member)

theorem child? {value part : Value} {step : Nat} (inside : value.Inside region)
    (found : store.child? value step = some part) : part.Inside region := by
  unfold Store.child? at found
  split at found
  · rename_i sharing address
    obtain ⟨contents, held, reached⟩ := Option.bind_eq_some_iff.mp found
    exact confined.closed address contents (Value.inside_handle_iff.mp inside) held part
      (List.mem_of_getElem? reached)
  · exact Value.inside_node_iff.mp inside part (List.mem_of_getElem? found)
  · cases found

theorem follow? {trail : Trail} {value part : Value} (inside : value.Inside region)
    (found : store.follow? trail value = some part) : part.Inside region := by
  induction trail generalizing value with
  | nil =>
      cases found
      exact inside
  | cons step trail ih =>
      obtain ⟨next, reached, rest⟩ := Option.bind_eq_some_iff.mp found
      exact ih (confined.child? inside reached) rest

end Confined

theorem Confined.rewrite? {new value : Value} (newInside : new.Inside region) {trail : Trail}
    {rewriting : Rewriting} (confined : Confined region base store) (inside : value.Inside region)
    (rewritten : store.rewrite? new trail value = some rewriting) : rewriting.Inside region := by
  induction trail generalizing value rewriting with
  | nil =>
      cases rewritten
      exact newInside
  | cons step trail ih =>
      cases value with
      | atom content => cases rewritten
      | static label text => cases rewritten
      | node form parts =>
          obtain ⟨part, found, rewritten⟩ := Option.bind_eq_some_iff.mp rewritten
          obtain ⟨inner, innerRewritten, same⟩ := Option.bind_eq_some_iff.mp rewritten
          cases same
          have partsInside := Value.inside_node_iff.mp inside
          have innerInside := ih (partsInside part (List.mem_of_getElem? found)) innerRewritten
          cases inner with
          | own altered => exact Value.inside_node_iff.mpr (Value.inside_set partsInside innerInside)
          | behind address changed => exact innerInside
      | handle sharing holder =>
          obtain ⟨contents, held, rewritten⟩ := Option.bind_eq_some_iff.mp rewritten
          obtain ⟨part, found, rewritten⟩ := Option.bind_eq_some_iff.mp rewritten
          obtain ⟨inner, innerRewritten, same⟩ := Option.bind_eq_some_iff.mp rewritten
          cases same
          have here := Value.inside_handle_iff.mp inside
          have contentsInside := confined.closed holder contents here held
          have innerInside := ih (contentsInside part (List.mem_of_getElem? found)) innerRewritten
          cases inner with
          | own altered => exact ⟨here, Value.inside_set contentsInside innerInside⟩
          | behind address changed => exact innerInside

theorem Confined.unfoldAddress_eq (confined : Confined region base store)
    (apart : ∀ address other, ¬ region address → base.PointsTo address other → ¬ region other)
    (depth : Nat) (away : ¬ region address) :
    store.unfoldAddress depth address = base.unfoldAddress depth address := by
  induction depth generalizing address with
  | zero => rfl
  | succ depth ih =>
      have same : store.contents? address = base.contents? address := by
        rw [contents?, contents?, confined.outside address away]
      simp only [unfoldAddress, same]
      cases found : base.contents? address with
      | none => rfl
      | some contents =>
          apply List.map_congr_left
          intro value member
          apply Value.unfoldWith_congr
          intro other inside
          exact ih (apart address other away
            ⟨contents, found, Value.mem_addressesOfAll.mpr ⟨value, member, inside⟩⟩)

/-- What lies outside of the region unfolds to what it did. -/
theorem Confined.unfold_eq (confined : Confined region base store) (acyclic : base.Acyclic)
    (apart : ∀ address other, ¬ region address → base.PointsTo address other → ¬ region other)
    {value : Value} (away : ∀ address ∈ value.addresses, ¬ region address) :
    store.unfold value = base.unfold value := by
  apply Value.unfoldWith_congr
  intro address member
  rw [confined.unfoldAddress_eq apart store.depth (away address member)]
  exact acyclic.unfoldAddress_eq (Nat.succ_le_succ confined.size_le) address

end Store

end Replica
