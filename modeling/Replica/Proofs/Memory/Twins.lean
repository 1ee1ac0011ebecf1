import Replica.Proofs.Memory.Lockstep

/-!
A copy in a store that others have added to, beside the same copy in the store as it was. What others added,
and the mutexes that they poisoned, make no difference but where the new allocations stand.
-/

namespace Replica

/-- Makes room for a number of allocations in front of those from `first` on. -/
def shift (first count address : Nat) : Nat :=
  if address < first then address else address + count

section Shift

variable {first count address : Nat}

theorem shift_of_lt (before : address < first) : shift first count address = address := if_pos before

theorem shift_of_le (beyond : first ≤ address) : shift first count address = address + count :=
  if_neg (Nat.not_lt.mpr beyond)

theorem shift_injective (first count : Nat) : Function.Injective (shift first count) := by
  intro address other same
  unfold shift at same
  split at same <;> split at same <;> omega

theorem shift_lt_iff : shift first count address < first + count ↔ address < first := by
  unfold shift
  split <;> omega

end Shift

namespace Store

open Copying

variable {old wider store twin : Store} {count : Nat} {held addresses more : List Address}
  {address other : Address} {allocation : Allocation}

theorem release_of_last {rest : List Address} (found : store.get? address = some allocation)
    (last : allocation.count ≤ 1) :
    store.release (address :: rest) =
      (store.put address none).release (Value.addressesOfAll allocation.contents ++ rest) := by
  rw [release]
  split
  · rename_i dead
    rw [found] at dead
    cases dead
  · rename_i other here
    rw [found, Option.some.injEq] at here
    subst here
    rw [if_pos last]

theorem release_of_more {rest : List Address} (found : store.get? address = some allocation)
    (more : ¬ allocation.count ≤ 1) :
    store.release (address :: rest) =
      (store.put address (some { allocation with count := allocation.count - 1 })).release rest := by
  rw [release]
  split
  · rename_i dead
    rw [found] at dead
    cases dead
  · rename_i other here
    rw [found, Option.some.injEq] at here
    subst here
    rw [if_neg more]

/-- The store has grown by a number of slots, and a copy finds in it what was there before. -/
structure Widened (old wider : Store) (count : Nat) : Prop where
  size_eq : wider.slots.size = old.slots.size + count
  contents_eq : ∀ address, address < old.slots.size →
    (wider.contents? address).map (List.map Value.soothe) =
      (old.contents? address).map (List.map Value.soothe)

/-- The store has as many slots more, and what is there in the other is there in it. -/
structure Roomier (old wider : Store) (count : Nat) : Prop where
  size_eq : wider.slots.size = old.slots.size + count
  isSome : ∀ address, (old.get? address).isSome → (wider.get? address).isSome

/-- Both stores have grown by the same, at other addresses. What is new in them is apart from what was there. -/
structure Twins (old wider : Store) (count : Nat) (held : List Address) (store twin : Store) : Prop where
  growth : Growth old held store
  twinGrowth : Growth wider (held.map (shift old.slots.size count)) twin
  size_eq : twin.slots.size = store.slots.size + count
  fresh : ∀ address, old.slots.size ≤ address →
    twin.get? (address + count) =
      (store.get? address).map (Allocation.rename (shift old.slots.size count))
  apart : ∀ address allocation, old.slots.size ≤ address → store.get? address = some allocation →
    ∀ part ∈ allocation.contents, part.New old.slots.size

theorem Widened.roomier (widened : old.Widened wider count) : old.Roomier wider count where
  size_eq := widened.size_eq
  isSome address live := by
    have same := congrArg Option.isSome (widened.contents_eq address (lt_size_of_isSome live))
    rwa [Option.isSome_map, Option.isSome_map, isSome_contents?, isSome_contents?, live] at same

theorem Roomier.twins_refl (roomier : old.Roomier wider count) : Twins old wider count [] old wider where
  growth := .refl old
  twinGrowth := .refl wider
  size_eq := roomier.size_eq
  fresh address beyond := by
    rw [get?_eq_none_of_size_le beyond, get?_eq_none_of_size_le]
    · rfl
    · rw [roomier.size_eq]
      exact Nat.add_le_add_right beyond count
  apart address allocation beyond found := by
    rw [get?_eq_none_of_size_le beyond] at found
    cases found

/-- What is new in a store leads to what is newer only, so that its key does not depend on how deep one looks. -/
theorem Growth.keyOfAddress_eq {kind : Form → Prop} (growth : Growth old held store)
    (apart : ∀ address contents, old.slots.size ≤ address → store.contents? address = some contents →
      ∀ part ∈ contents, part.Apart old.slots.size kind)
    (cells : Bool) {depth deeper : Nat} (beyond : old.slots.size ≤ address) (enough : address < depth)
    (further : address < deeper) :
    Key.ofAddress cells store deeper address = Key.ofAddress cells store depth address := by
  induction address using Nat.strongRecOn generalizing depth deeper with
  | ind address ih =>
      obtain ⟨depth, rfl⟩ := Nat.exists_eq_succ_of_ne_zero (Nat.ne_zero_of_lt enough)
      obtain ⟨deeper, rfl⟩ := Nat.exists_eq_succ_of_ne_zero (Nat.ne_zero_of_lt further)
      rw [Key.ofAddress_succ, Key.ofAddress_succ]
      cases found : store.contents? address with
      | none => rfl
      | some contents =>
          obtain ⟨allocation, here, rfl⟩ := contents?_eq_some_iff.mp found
          refine congrArg _ (List.map_congr_left fun content member => ?_)
          apply (apart address _ beyond found content member).key_congr
          intro other inside isNew
          have less : other < address :=
            growth.descends address allocation beyond here other (Value.mem_addressesOfAll.mpr ⟨content, member, inside⟩)
          exact ih other less isNew (Nat.lt_of_lt_of_le less (Nat.le_of_lt_succ enough))
            (Nat.lt_of_lt_of_le less (Nat.le_of_lt_succ further))

theorem get?_retain_of_ne (isOther : other ≠ address) : (store.retain address).get? other = store.get? other := by
  cases found : store.get? address with
  | none => simp [retain, found]
  | some allocation => rw [retain_of_get? found, get?_put found, if_neg isOther]

theorem size_retain (address : Address) (store : Store) :
    (store.retain address).slots.size = store.slots.size := by
  cases found : store.get? address with
  | none => simp [retain, found]
  | some allocation => rw [retain_of_get? found, size_put]

namespace Twins

theorem retain (twins : Twins old wider count held store twin) (roomier : old.Roomier wider count)
    (live : (old.get? address).isSome) :
    Twins old wider count (address :: held) (store.retain address) (twin.retain address) := by
  have bound := lt_size_of_isSome live
  refine ⟨twins.growth.retain live, ?_, ?_, ?_, ?_⟩
  · rw [List.map_cons, shift_of_lt bound]
    exact twins.twinGrowth.retain (roomier.isSome address live)
  · rw [size_retain, size_retain, twins.size_eq]
  · intro other beyond
    have isOther : address < other := Nat.lt_of_lt_of_le bound beyond
    have twinOther : address < other + count := Nat.lt_of_lt_of_le isOther (Nat.le_add_right _ _)
    rw [get?_retain_of_ne (Nat.ne_of_gt isOther), get?_retain_of_ne (Nat.ne_of_gt twinOther)]
    exact twins.fresh other beyond
  · intro other allocation beyond found
    have isOther : address < other := Nat.lt_of_lt_of_le bound beyond
    rw [get?_retain_of_ne (Nat.ne_of_gt isOther)] at found
    exact twins.apart other allocation beyond found

theorem allocate {contents : List Value} (new : ∀ part ∈ contents, part.New old.slots.size)
    (twins : Twins old wider count (Value.addressesOfAll contents ++ held) store twin) :
    twin.slots.size = shift old.slots.size count store.slots.size ∧
      Twins old wider count (store.slots.size :: held) (store.allocate contents).2
        (twin.allocate (contents.map (Value.rename (shift old.slots.size count)))).2 := by
  have isNew : twin.slots.size = shift old.slots.size count store.slots.size := by
    rw [shift_of_le twins.growth.size_le, twins.size_eq]
  refine ⟨isNew, twins.growth.allocate, ?_, ?_, ?_, ?_⟩
  · have grown := twins.twinGrowth
    rw [List.map_append, ← Value.addressesOfAll_map_rename] at grown
    rw [List.map_cons, ← isNew]
    exact grown.allocate
  · rw [size_allocate, size_allocate, twins.size_eq]
    omega
  · intro other beyond
    rw [get?_allocate, get?_allocate, twins.size_eq]
    by_cases isLast : other = store.slots.size
    · rw [if_pos isLast, if_pos (congrArg (· + count) isLast)]
      rfl
    · rw [if_neg isLast, if_neg fun same => isLast (Nat.add_right_cancel same)]
      exact twins.fresh other beyond
  · intro other allocation beyond found
    rw [get?_allocate] at found
    split at found
    · cases found
      exact new
    · exact twins.apart other allocation beyond found

theorem put_fresh {held' : List Address} (twins : Twins old wider count held store twin)
    {twinAllocation : Allocation} {changed twinChanged : Option Allocation}
    (found : store.get? address = some allocation)
    (twinFound : twin.get? (shift old.slots.size count address) = some twinAllocation)
    (alike : twinChanged = changed.map (Allocation.rename (shift old.slots.size count)) ∨
      address < old.slots.size)
    (same : ∀ other ∈ changed, other.contents = allocation.contents)
    (growth : Growth old held' (store.put address changed))
    (twinGrowth : Growth wider (held'.map (shift old.slots.size count))
      (twin.put (shift old.slots.size count address) twinChanged)) :
    Twins old wider count held' (store.put address changed)
      (twin.put (shift old.slots.size count address) twinChanged) where
  growth := growth
  twinGrowth := twinGrowth
  size_eq := by rw [size_put, size_put, twins.size_eq]
  fresh other beyond := by
    have shifted : shift old.slots.size count other = other + count := shift_of_le beyond
    rw [get?_put found, get?_put twinFound, ← shifted]
    by_cases isAddress : other = address
    · subst isAddress
      rw [if_pos rfl, if_pos rfl]
      exact alike.resolve_right (Nat.not_lt.mpr beyond)
    · rw [if_neg isAddress, if_neg fun same => isAddress (shift_injective _ _ same), shifted]
      exact twins.fresh other beyond
  apart other present beyond here := by
    rw [get?_put found] at here
    split at here
    · rename_i isAddress
      rw [same present here]
      exact twins.apart address allocation (isAddress ▸ beyond) found
    · exact twins.apart other present beyond here

/-- Where a handle is given up in both stores, the allocations go together. What was there before stays. -/
theorem release (twins : Twins old wider count (addresses ++ held) store twin)
    (roomier : old.Roomier wider count) (sound : old.Sound) (widerSound : wider.Sound) :
    Twins old wider count held (store.release addresses)
      (twin.release (addresses.map (shift old.slots.size count))) := by
  fun_induction Store.release addresses store generalizing twin with
  | case1 store => simpa using twins
  | case2 address rest store dead ih =>
      have live : (store.get? address).isSome := twins.growth.isSome_of_mem (by simp)
      simp [dead] at live
  | case3 address rest store allocation found last ih =>
      have beyond := twins.growth.size_le_of_count_le_one sound found last
      have twinFound := twins.fresh address beyond
      rw [found, Option.map_some, ← shift_of_le beyond] at twinFound
      have twinBeyond := twins.twinGrowth.size_le_of_count_le_one widerSound twinFound last
      have freed := twins.put_fresh found twinFound (.inl rfl) (by simp) (twins.growth.free beyond found) (by
        rw [List.map_append, ← Value.addressesOfAll_map_rename]
        exact twins.twinGrowth.free twinBeyond twinFound)
      rw [List.map_cons, release_of_last twinFound last, Allocation.rename,
        Value.addressesOfAll_map_rename, ← List.map_append]
      apply ih
      rwa [List.append_assoc]
  | case4 address rest store allocation found more ih =>
      have bound : address < old.slots.size := by
        apply Nat.lt_of_not_le
        intro beyond
        exact more (Nat.le_of_eq (twins.growth.single address allocation beyond found))
      have twinLive : (twin.get? (shift old.slots.size count address)).isSome :=
        twins.twinGrowth.isSome_of_mem (by simp)
      obtain ⟨twinAllocation, twinFound⟩ := Option.isSome_iff_exists.mp twinLive
      -- Were there one handle to it in the other store, it would be new there.
      have twinMore : ¬ twinAllocation.count ≤ 1 := by
        intro last
        have twinBeyond := twins.twinGrowth.size_le_of_count_le_one widerSound twinFound last
        rw [roomier.size_eq] at twinBeyond
        exact Nat.not_lt.mpr twinBeyond (shift_lt_iff.mpr bound)
      have released := twins.put_fresh found twinFound (.inr bound) (by simp)
        (twins.growth.release_former found more) (twins.twinGrowth.release_former twinFound twinMore)
      rw [List.map_cons, release_of_more twinFound twinMore]
      exact ih released

theorem keyOfAddress (twins : Twins old wider count held store twin) (depth : Nat)
    (beyond : old.slots.size ≤ address) :
    Key.ofAddress true twin depth (shift old.slots.size count address) =
      Key.ofAddress true store depth address := by
  induction depth generalizing address with
  | zero => rfl
  | succ depth ih =>
      have same := twins.fresh address beyond
      rw [Key.ofAddress_succ, Key.ofAddress_succ, contents?, contents?, shift_of_le beyond, same]
      cases found : store.get? address with
      | none => rfl
      | some allocation =>
          simp only [Option.map_some, Allocation.rename, Option.getD_some, List.map_map]
          refine congrArg _ (List.map_congr_left fun content member => ?_)
          rw [Function.comp_apply, Value.key_rename]
          exact (twins.apart address allocation beyond found content member).key_congr fun other _ isNew => ih isNew

theorem handlesFrom_eq (twins : Twins old wider count held store twin) (widened : old.Widened wider count) :
    twin.handlesFrom wider.slots.size =
      (store.handlesFrom old.slots.size).map (shift old.slots.size count) := by
  have sameRoom : twin.slots.size - wider.slots.size = store.slots.size - old.slots.size := by
    rw [twins.size_eq, widened.size_eq]
    omega
  rw [Store.handlesFrom_eq, Store.handlesFrom_eq, sameRoom, List.map_flatMap]
  apply List.flatMap_congr
  intro step _
  have place : wider.slots.size + step = old.slots.size + step + count := by
    rw [widened.size_eq]
    omega
  rw [place, twins.fresh _ (Nat.le_add_right _ _)]
  cases store.get? (old.slots.size + step) with
  | none => rfl
  | some allocation => exact Value.addressesOfAll_map_rename _ allocation.contents

theorem keyOfAddress_eq (twins : Twins old wider count held store twin) {depth deeper : Nat}
    (beyond : old.slots.size ≤ address) (enough : address < depth) (further : address < deeper) :
    Key.ofAddress true store deeper address = Key.ofAddress true store depth address := by
  have apart : ∀ address contents, old.slots.size ≤ address → store.contents? address = some contents →
      ∀ part ∈ contents, part.New old.slots.size := by
    intro address contents beyond found
    obtain ⟨allocation, here, rfl⟩ := contents?_eq_some_iff.mp found
    exact twins.apart address allocation beyond here
  exact twins.growth.keyOfAddress_eq apart true beyond enough further

theorem partKey_eq (twins : Twins old wider count held store twin) {part : Value} (new : part.New old.slots.size)
    (isHeld : ∀ address ∈ part.addresses, address ∈ held) :
    twin.partKey (part.rename (shift old.slots.size count)) = store.partKey part := by
  have keys : ∀ value : Value, value.New old.slots.size → (∀ address ∈ value.addresses, address ∈ held) →
      twin.key (value.rename (shift old.slots.size count)) = store.key value := by
    intro value valueNew inHeld
    rw [key, key, Value.key_rename]
    apply valueNew.key_congr
    intro address inside isNew
    have live := twins.growth.isSome_of_mem (List.mem_append_left _ (inHeld address inside))
    have bound := lt_size_of_isSome live
    rw [Function.comp_apply, twins.keyOfAddress _ isNew]
    apply twins.keyOfAddress_eq isNew (Nat.lt_succ_of_lt bound)
    rw [depth, twins.size_eq]
    exact Nat.lt_succ_of_lt (Nat.lt_add_right _ bound)
  cases part with
  | node form parts =>
      have whole := keys (.node form parts) new isHeld
      simp only [Value.rename, Value.renameAll_eq_map] at whole ⊢
      cases form with
      | entry =>
          cases parts with
          | nil => exact whole
          | cons first rest =>
              cases new with
              | node _ each =>
                  exact keys first (each 0 first rfl (by simp [Form.treatment]))
                    fun address inside => isHeld address (List.mem_append_left _ inside)
      | _ => exact whole
  | _ => exact keys _ new isHeld

end Twins

/-- Copies that come only to what both stores hold alike stay in step. -/
theorem Roomier.lockstep (roomier : old.Roomier wider count) (sound : old.Sound) (widerSound : wider.Sound)
    {known : Address → Prop} (live : ∀ address, known address → (old.get? address).isSome)
    (alike : ∀ address, known address → ∃ contents others, old.contents? address = some contents ∧
      wider.contents? address = some others ∧ others.map Value.soothe = contents.map Value.soothe ∧
      ∀ other ∈ Value.addressesOfAll contents, known other) :
    Lockstep (shift old.slots.size count) known old.slots.size (Twins old wider count) where
  of_perm same twins :=
    ⟨twins.growth.of_perm same, twins.twinGrowth.of_perm (same.map _), twins.size_eq, twins.fresh, twins.apart⟩
  fixed address isKnown := shift_of_lt (lt_size_of_isSome (live address isKnown))
  retain address isKnown twins := twins.retain roomier (live address isKnown)
  allocate contents new twins := by
    obtain ⟨isNew, allocated⟩ := twins.allocate new
    exact ⟨twins.growth.size_le, isNew, allocated⟩
  release twins := twins.release roomier sound widerSound
  partKey part new isHeld twins := twins.partKey_eq new isHeld
  contents address isKnown twins := by
    obtain ⟨contents, others, found, otherFound, same, further⟩ := alike address isKnown
    have bound := lt_size_of_isSome (live address isKnown)
    have widerBound : address < wider.slots.size :=
      roomier.size_eq ▸ Nat.lt_of_lt_of_le bound (Nat.le_add_right _ _)
    refine ⟨contents, others, ?_, ?_, same, further⟩
    · rw [twins.growth.former_contents bound, found]
    · rw [twins.twinGrowth.former_contents widerBound, otherFound]

theorem Widened.lockstep (widened : old.Widened wider count) (sound : old.Sound) (widerSound : wider.Sound) :
    Lockstep (shift old.slots.size count) (fun address => (old.get? address).isSome) old.slots.size
      (Twins old wider count) := by
  refine widened.roomier.lockstep sound widerSound (fun _ live => live) ?_
  intro address live
  have same := widened.contents_eq address (lt_size_of_isSome live)
  obtain ⟨contents, found⟩ := exists_contents live
  rw [found, Option.map_some, Option.map_eq_some_iff] at same
  obtain ⟨others, othersFound, alike⟩ := same
  exact ⟨contents, others, found, othersFound, alike, fun other inside => sound.closed address other
    ⟨contents, found, inside⟩⟩

end Store

namespace Copying

variable {α β : Type} {copying other : Copying α}

/-- Whenever the first copy ends otherwise than for want of depth, the second one does the same. -/
def Extends (copying other : Copying α) : Prop :=
  ∀ store result later, copying store = (result, later) → result ≠ .error .depth →
    other store = (result, later)

namespace Extends

theorem refl (copying : Copying α) : copying.Extends copying :=
  fun _ _ _ made _ => made

theorem bind {rest further : α → Copying β} (first : copying.Extends other)
    (each : ∀ result, (rest result).Extends (further result)) :
    (copying >>= rest).Extends (other >>= further) := by
  intro store result later made enough
  rw [bind_apply] at made ⊢
  cases firstMade : copying store with
  | mk middle between =>
      rw [firstMade] at made
      cases middle with
      | error halt =>
          cases made
          rw [first store _ _ firstMade fun same => enough (by cases same; rfl)]
      | ok middle =>
          rw [first store _ _ firstMade (by simp)]
          exact each middle between result later made enough

theorem behind (first : copying.Extends other) (step : Nat) :
    (Copying.behind step copying).Extends (Copying.behind step other) := by
  intro store result later made enough
  rw [Copying.behind] at made ⊢
  cases firstMade : copying store with
  | mk middle between =>
      rw [firstMade] at made
      cases made
      rw [first store _ _ firstMade fun same => enough (by rw [same]; rfl)]

theorem orRelease (first : copying.Extends other) (addresses : List Address) :
    (Copying.orRelease addresses copying).Extends (Copying.orRelease addresses other) := by
  intro store result later made enough
  rw [Copying.orRelease] at made ⊢
  cases firstMade : copying store with
  | mk middle between =>
      rw [firstMade] at made
      cases middle with
      | error halt =>
          cases made
          rw [first store _ _ firstMade enough]
      | ok middle =>
          cases made
          rw [first store _ _ firstMade enough]

end Extends

end Copying

namespace Value

open Copying Store

variable {follow other : Address → Copying Address}

theorem copyParts_extends (treatment : Nat → Treatment) {values : List Value}
    (each : ∀ value ∈ values, (copyWith follow value).Extends (copyWith other value)) (step : Nat) :
    (copyParts follow treatment step values).Extends (copyParts other treatment step values) := by
  induction values generalizing step with
  | nil => exact .refl _
  | cons value values ih =>
      obtain ⟨eachFirst, eachOther⟩ := List.forall_mem_cons.mp each
      have first : (treat (Copying.behind step (copyWith follow value)) value (treatment step)).Extends
          (treat (Copying.behind step (copyWith other value)) value (treatment step)) := by
        cases treatment step with
        | deep => exact eachFirst.behind step
        | share => exact .refl _
        | reset => exact .refl _
      rw [copyParts, copyParts]
      apply first.bind
      intro copy
      apply ((ih eachOther (step + 1)).orRelease copy.addresses).bind
      exact fun copies => .refl _

theorem copyWith_extends (followed : ∀ address, (follow address).Extends (other address)) (value : Value) :
    (copyWith follow value).Extends (copyWith other value) := by
  induction value using Value.induct with
  | atom content => exact .refl _
  | static label text => exact .refl _
  | handle sharing address =>
      rw [copyWith, copyWith]
      exact (followed address).bind fun copy => .refl _
  | node form parts ih =>
      by_cases isHeld : form = .refCell true
      · subst isHeld
        rw [copyWith, copyWith]
        exact .refl _
      · rw [copyWith, copyWith]
        · exact (copyParts_extends form.treatment ih 0).bind fun copies => .refl _
        · exact isHeld
        · exact isHeld

theorem copyAllocation_extends (depth : Nat) (address : Address) :
    (copyAllocation depth address).Extends (copyAllocation (depth + 1) address) := by
  induction depth generalizing address with
  | zero =>
      intro store result later made enough
      cases made
      exact absurd rfl enough
  | succ depth ih =>
      rw [copyAllocation, copyAllocation]
      apply (Extends.refl _).bind
      intro store
      apply (copyParts_extends _ _ 0).bind
      · exact fun copies => .refl _
      · exact fun value _ => copyWith_extends ih value

theorem copyTo_extends {depth deeper : Nat} (less : depth ≤ deeper) (value : Value) :
    (copyTo depth value).Extends (copyTo deeper value) := by
  induction deeper, less using Nat.le_induction with
  | base => exact .refl _
  | succ deeper less ih =>
      intro store result later made enough
      exact copyWith_extends (copyAllocation_extends deeper) value store result later
        (ih store result later made enough) enough

/-- A copy that comes to an end does the same in a store that others have added to. -/
theorem copy_inStep {old wider : Store} {count : Nat} {value twin : Value} (sound : old.Sound)
    (widerSound : wider.Sound) (widened : old.Widened wider count) (live : old.Live value)
    (same : twin.soothe = value.soothe) (ends : (value.copy.run old).1 ≠ .error .depth) :
    InStep (Twins old wider count) [] [] (New old.slots.size) addresses (rename (shift old.slots.size count))
      (value.copy.run old) (twin.copy.run wider) := by
  have deeper : old.depth ≤ wider.depth := by
    rw [Store.depth, Store.depth, widened.size_eq]
    omega
  have further : copyTo wider.depth value old = value.copy.run old :=
    copyTo_extends deeper value old _ _ rfl ends
  have inStep := copyTo_inStep (widened.lockstep sound widerSound) wider.depth live same widened.roomier.twins_refl
  rwa [further] at inStep

end Value

end Replica
