import Replica.Proofs.Memory.Attempt

/-!
Two copies in one memory, in both orders. Each comes to the same in whatever order they are made, and what they
leave differs in where the new allocations stand only.
-/

namespace Replica

open Store

/-- The two blocks of `count` and of `other` addresses from `first` on, in the other order. -/
def exchange (first count other address : Nat) : Nat :=
  if address < first then address
  else if address < first + count then address + other
  else if address < first + count + other then address - count
  else address

section Exchange

variable {first count other address : Nat}

theorem exchange_of_lt (before : address < first) : exchange first count other address = address :=
  if_pos before

theorem exchange_of_lt_add (inside : address < first + count) :
    exchange first count other address = shift first other address := by
  unfold exchange shift
  grind

theorem exchange_shift (inside : address < first + other) :
    exchange first count other (shift first count address) = address := by
  unfold exchange shift
  grind

theorem exchange_of_le (beyond : first + count + other ≤ address) :
    exchange first count other address = address := by
  unfold exchange
  grind

theorem exchange_exchange (first count other address : Nat) :
    exchange first other count (exchange first count other address) = address := by
  unfold exchange
  grind

theorem exchange_injective (first count other : Nat) : Function.Injective (exchange first count other) := by
  intro address place same
  rw [← exchange_exchange first count other address, same, exchange_exchange]

end Exchange

namespace Memory

variable {memory after last : Memory}

theorem mem_iff_lookup {bindings : List (String × Value)}
    (sorted : bindings.Pairwise fun first second => first.1 < second.1) {name : String} {value : Value} :
    (name, value) ∈ bindings ↔ bindings.lookup name = some value := by
  induction bindings with
  | nil => simp
  | cons first rest ih =>
      obtain ⟨firstName, firstValue⟩ := first
      obtain ⟨least, restSorted⟩ := List.pairwise_cons.mp sorted
      rw [List.mem_cons, lookup_cons, Prod.mk.injEq]
      by_cases isFirst : name = firstName
      · subst isFirst
        have absent : (name, value) ∉ rest := fun member => lt_irrefl name (least _ member)
        simp [absent, eq_comm]
      · simp [isFirst, ih restSorted]

/-- Variables that stand in order are given by what each of them holds. -/
theorem bindings_ext {bindings others : List (String × Value)}
    (sorted : bindings.Pairwise fun first second => first.1 < second.1)
    (othersSorted : others.Pairwise fun first second => first.1 < second.1)
    (same : ∀ name, others.lookup name = bindings.lookup name) : others = bindings := by
  have nodup {list : List (String × Value)} (sorted : list.Pairwise fun first second => first.1 < second.1) :
      list.Nodup := sorted.imp fun less same => absurd less (by simp [same])
  have perm : others.Perm bindings := by
    rw [List.perm_ext_iff_of_nodup (nodup othersSorted) (nodup sorted)]
    rintro ⟨name, value⟩
    rw [mem_iff_lookup othersSorted, mem_iff_lookup sorted, same]
  apply perm.eq_of_pairwise _ othersSorted sorted
  exact fun one other _ _ less greater => absurd (less.trans greater) (by simp)

theorem lookup_map_rename (f : Address → Address) (bindings : List (String × Value)) (name : String) :
    (bindings.map fun binding => (binding.1, binding.2.rename f)).lookup name =
      (bindings.lookup name).map (Value.rename f) := by
  induction bindings with
  | nil => rfl
  | cons first rest ih =>
      rw [List.map_cons, lookup_cons, lookup_cons, ih]
      split <;> rfl

namespace Attempt

variable {first second : Attempt memory}

/-- An attempt to make the same copy in another memory. -/
structure Repeats (again : Attempt after) (second : Attempt memory) : Prop where
  name_eq : again.name = second.name
  source_eq : again.source = second.source

/-- What two copies lead to, made one behind the other. The allocations of the second one stand behind those of
the first. -/
structure Both (first second : Attempt memory) (last : Memory) : Prop where
  sorted : last.bindings.Pairwise fun first second => first.1 < second.1
  lookup_eq : ∀ name, last.lookup name =
    if name = first.name then first.result.toOption
    else if name = second.name then
      second.result.toOption.map (Value.rename (shift memory.store.slots.size first.room))
    else (memory.lookup name).map fun value => second.spoil name (first.spoil name value)
  size_eq : last.store.slots.size = memory.store.slots.size + first.room + second.room
  labels_eq : last.store.labels = memory.store.labels
  former : ∀ address, address < memory.store.slots.size →
    last.store.get? address = (memory.store.get? address).map fun allocation =>
      ⟨allocation.count + first.raise address + second.raise address,
        second.touch address (first.touch address allocation.contents)⟩
  near : ∀ address, memory.store.slots.size ≤ address → address < memory.store.slots.size + first.room →
    last.store.get? address = first.later.get? address
  far : ∀ address, memory.store.slots.size ≤ address →
    last.store.get? (address + first.room) =
      (second.later.get? address).map (Allocation.rename (shift memory.store.slots.size first.room))

namespace Leads

theorem copy_twins (leads : first.Leads after) (second : Attempt memory) (sound : memory.Sound)
    (afterSound : after.Sound) {result : Except Halt Value} {later : Store}
    (made : (first.spoil second.source second.value).copy.run after.store = (result, later)) :
    result = second.result.map (Value.rename (shift memory.store.slots.size first.room)) ∧
      Twins memory.store after.store first.room second.handles second.later later := by
  have ends : (second.value.copy.run memory.store).1 ≠ .error .depth := by
    rw [second.made]
    exact second.ends
  have inStep := Value.copy_inStep sound.store afterSound.store (leads.widened sound) (sound.live second.found)
    (first.soothe_spoil sound second.found) ends
  rw [second.made, made] at inStep
  exact inStep.result_eq

/-- The second copy comes to an end in the memory that the first one has led to as well. -/
theorem exists_again (leads : first.Leads after) (different : second.name ≠ first.name) (sound : memory.Sound)
    (afterSound : after.Sound) : ∃ again : Attempt after, again.Repeats second := by
  obtain ⟨⟨result, later⟩, made⟩ :
      ∃ run, (first.spoil second.source second.value).copy.run after.store = run := ⟨_, rfl⟩
  obtain ⟨same, _⟩ := leads.copy_twins second sound afterSound made
  have ends : result ≠ .error .depth := by
    rw [same]
    intro stopped
    cases ended : second.result with
    | ok copy =>
        rw [ended] at stopped
        cases stopped
    | error halt =>
        rw [ended] at stopped
        cases stopped
        exact second.ends ended
  refine ⟨⟨second.name, second.source, first.spoil second.source second.value, result, later, ?_, ?_, made, ends⟩,
    rfl, rfl⟩
  · rw [leads.lookup_eq, if_neg (first.source_ne_name second), second.found, Option.map_some]
  · rw [leads.lookup_eq, if_neg different, second.unused, Option.map_none]

variable {again : Attempt after} (leads : first.Leads after) (repeats : again.Repeats second)
  (sound : memory.Sound) (afterSound : after.Sound)
include leads repeats

theorem value_eq : again.value = first.spoil second.source second.value := by
  have found := again.found
  rw [repeats.source_eq, leads.lookup_eq, if_neg (first.source_ne_name second), second.found, Option.map_some,
    Option.some.injEq] at found
  exact found.symm

include sound afterSound

theorem again_twins :
    again.result = second.result.map (Value.rename (shift memory.store.slots.size first.room)) ∧
      Twins memory.store after.store first.room second.handles second.later again.later := by
  apply leads.copy_twins second sound afterSound
  rw [← leads.value_eq repeats]
  exact again.made

theorem again_refusal : again.refusal = second.refusal := by
  have ended := (leads.again_twins repeats sound afterSound).1
  unfold refusal
  rw [ended]
  cases second.result <;> rfl

theorem again_trail : again.trail = second.trail := by
  have ended := (leads.again_twins repeats sound afterSound).1
  unfold trail
  rw [ended]
  cases second.result <;> rfl

theorem again_toOption : again.result.toOption =
    second.result.toOption.map (Value.rename (shift memory.store.slots.size first.room)) := by
  rw [(leads.again_twins repeats sound afterSound).1]
  cases second.result <;> rfl

theorem again_spoil (name : String) : again.spoil name = second.spoil name := by
  funext value
  rw [spoil, leads.again_trail repeats sound afterSound, repeats.source_eq, spoil]

theorem again_touch (address : Address) : again.touch address = second.touch address := by
  have widened := leads.widened sound
  rw [touch, leads.again_trail repeats sound afterSound, leads.value_eq repeats]
  exact widened.soil_eq sound.store (sound.live second.found) (first.soothe_spoil sound second.found) _ _

theorem again_raise (address : Address) : again.raise address =
    ((second.handles ++ second.later.handlesFrom memory.store.slots.size).map
      (shift memory.store.slots.size first.room)).count address := by
  obtain ⟨_, twins⟩ := leads.again_twins repeats sound afterSound
  have handles : again.handles = second.handles.map (shift memory.store.slots.size first.room) := by
    rw [Attempt.handles, leads.again_toOption repeats sound afterSound, Attempt.handles]
    cases second.result.toOption <;> simp
  rw [raise, handles, twins.handlesFrom_eq (leads.widened sound), List.map_append]

theorem again_raise_of_lt {address : Address} (bound : address < memory.store.slots.size) :
    again.raise address = second.raise address := by
  have counted := List.count_map_of_injective
    (second.handles ++ second.later.handlesFrom memory.store.slots.size) _
    (shift_injective memory.store.slots.size first.room) address
  rw [shift_of_lt bound] at counted
  rw [leads.again_raise repeats sound afterSound, counted, raise]

theorem again_raise_of_le {address : Address} (beyond : memory.store.slots.size ≤ address)
    (bound : address < memory.store.slots.size + first.room) : again.raise address = 0 := by
  rw [leads.again_raise repeats sound afterSound, List.count_eq_zero]
  intro member
  obtain ⟨other, _, same⟩ := List.mem_map.mp member
  have before := shift_lt_iff.mp (same ▸ bound)
  rw [shift_of_lt before] at same
  exact absurd beyond (Nat.not_le.mpr (same ▸ before))

variable (further : again.Leads last)
include further

theorem lookup_again (different : second.name ≠ first.name) (name : String) : last.lookup name =
    if name = first.name then first.result.toOption
    else if name = second.name then
      second.result.toOption.map (Value.rename (shift memory.store.slots.size first.room))
    else (memory.lookup name).map fun value => second.spoil name (first.spoil name value) := by
  rw [further.lookup_eq, leads.lookup_eq, repeats.name_eq, leads.again_spoil repeats sound afterSound,
    leads.again_toOption repeats sound afterSound]
  by_cases isFirst : name = first.name
  · have isOther : name ≠ second.name := by
      rw [isFirst]
      exact different.symm
    have notSource : name ≠ second.source := by
      rw [isFirst]
      exact (first.source_ne_name second).symm
    rw [if_neg isOther, if_pos isFirst, if_pos isFirst, second.spoil_of_ne notSource, Option.map_id]
    rfl
  · rw [if_neg isFirst, if_neg isFirst, Option.map_map]
    rfl

theorem get?_again (address : Address) : last.store.get? address =
    (again.later.get? address).map fun allocation =>
      { allocation with contents := second.touch address allocation.contents } := by
  rw [further.get?_eq, leads.again_touch repeats sound afterSound]

/-- What the first copy has left gets more handles and more poison, and stays as it is otherwise. -/
theorem get?_again_of_lt {address : Address} (bound : address < memory.store.slots.size + first.room) :
    last.store.get? address = (first.later.get? address).map fun allocation =>
      ⟨allocation.count + again.raise address,
        second.touch address (first.touch address allocation.contents)⟩ := by
  have growth := again.growth afterSound
  have inside : address < after.store.slots.size := (leads.widened sound).size_eq ▸ bound
  rw [leads.get?_again repeats sound afterSound further, growth.former address inside, leads.get?_eq,
    Option.map_map, Option.map_map]
  rfl

theorem both (different : second.name ≠ first.name) : Both first second last where
  sorted := further.sorted
  lookup_eq := leads.lookup_again repeats sound afterSound further different
  size_eq := by
    obtain ⟨_, twins⟩ := leads.again_twins repeats sound afterSound
    rw [further.size_eq, twins.size_eq, second.size_later sound]
    omega
  labels_eq := further.labels_eq.trans leads.labels_eq
  former address bound := by
    rw [leads.get?_again_of_lt repeats sound afterSound further (Nat.lt_add_right _ bound),
      (first.growth sound).former address bound, leads.again_raise_of_lt repeats sound afterSound bound,
      Option.map_map]
    rfl
  near address beyond bound := by
    rw [leads.get?_again_of_lt repeats sound afterSound further bound,
      leads.again_raise_of_le repeats sound afterSound beyond bound,
      first.touch_of_size_le sound beyond, second.touch_of_size_le sound beyond]
    simp
  far address beyond := by
    obtain ⟨_, twins⟩ := leads.again_twins repeats sound afterSound
    rw [leads.get?_again repeats sound afterSound further, twins.fresh address beyond,
      second.touch_of_size_le sound (Nat.le_add_right_of_le beyond), Option.map_map]
    rfl

end Leads

theorem lt_size_of_result (sound : memory.Sound) (attempt : Attempt memory) {copy : Value}
    (made : attempt.result.toOption = some copy) {address : Address} (inside : address ∈ copy.addresses) :
    address < memory.store.slots.size + attempt.room := by
  have growth := attempt.growth sound
  rw [handles, made, Option.elim_some] at growth
  rw [← attempt.size_later sound]
  exact lt_size_of_isSome (growth.isSome_of_mem (List.mem_append_left _ inside))

theorem lt_of_later (sound : memory.Sound) (attempt : Attempt memory) {address other : Address}
    {allocation : Allocation} (beyond : memory.store.slots.size ≤ address)
    (found : attempt.later.get? address = some allocation)
    (inside : other ∈ Value.addressesOfAll allocation.contents) : other < memory.store.slots.size + attempt.room := by
  have below := (attempt.growth sound).descends address allocation beyond found other inside
  rw [← attempt.size_later sound]
  exact Nat.lt_trans below (lt_size_of_get? found)

namespace Both

variable {other : Memory} (both : Both first second last) (reverse : Both second first other)
  (sound : memory.Sound)
include both reverse sound

theorem lookup_exchanged (different : second.name ≠ first.name) (name : String) :
    other.lookup name = (last.lookup name).map
      (Value.rename (exchange memory.store.slots.size first.room second.room)) := by
  rw [both.lookup_eq, reverse.lookup_eq]
  -- Either copy stands behind the other where it is made later, and all else is found where it was.
  by_cases isFirst : name = first.name
  · have isOther : name ≠ second.name := by
      rw [isFirst]
      exact different.symm
    rw [if_neg isOther, if_pos isFirst, if_pos isFirst]
    cases made : first.result.toOption with
    | none => rfl
    | some copy =>
        apply congrArg some
        apply Value.rename_congr
        intro address inside
        exact (exchange_of_lt_add (first.lt_size_of_result sound made inside)).symm
  · rw [if_neg isFirst, if_neg isFirst]
    by_cases isSecond : name = second.name
    · rw [if_pos isSecond, if_pos isSecond]
      cases made : second.result.toOption with
      | none => rfl
      | some copy =>
          rw [Option.map_some, Option.map_some, Value.rename_rename, Value.rename_of_fixed]
          intro address inside
          exact exchange_shift (second.lt_size_of_result sound made inside)
    · rw [if_neg isSecond, if_neg isSecond]
      cases found : memory.lookup name with
      | none => rfl
      | some value =>
          rw [Option.map_some, Option.map_some, Option.map_some, spoil_comm, Value.rename_of_fixed]
          intro address inside
          rw [addresses_spoil, addresses_spoil] at inside
          exact exchange_of_lt (sound.lt_size found inside)

/-- What was there before both copies has been counted and spoilt by both of them. -/
theorem get?_exchanged_former {address : Nat} (isFormer : address < memory.store.slots.size) :
    other.store.get? (exchange memory.store.slots.size first.room second.room address) =
      (last.store.get? address).map
        (Allocation.rename (exchange memory.store.slots.size first.room second.room)) := by
  rw [exchange_of_lt isFormer, both.former address isFormer, reverse.former address isFormer]
  cases found : memory.store.get? address with
  | none => rfl
  | some allocation =>
      rw [Option.map_some, Option.map_some, Option.map_some, Allocation.rename_of_fixed]
      · rw [touch_comm, Nat.add_right_comm]
      · intro place inside
        rw [addressesOfAll_touch, addressesOfAll_touch] at inside
        have held : memory.store.contents? address = some allocation.contents :=
          contents?_eq_some_iff.mpr ⟨allocation, found, rfl⟩
        exact exchange_of_lt (lt_size_of_isSome (sound.store.closed address place ⟨_, held, inside⟩))

/-- What the first copy has made stands behind what the second one has made if that comes first. -/
theorem get?_exchanged_near {address : Nat} (beyond : memory.store.slots.size ≤ address)
    (isFirst : address < memory.store.slots.size + first.room) :
    other.store.get? (exchange memory.store.slots.size first.room second.room address) =
      (last.store.get? address).map
        (Allocation.rename (exchange memory.store.slots.size first.room second.room)) := by
  rw [exchange_of_lt_add isFirst, shift_of_le beyond, both.near address beyond isFirst, reverse.far address beyond]
  cases found : first.later.get? address with
  | none => rfl
  | some allocation =>
      apply congrArg some
      apply Allocation.rename_congr
      intro place inside
      exact (exchange_of_lt_add (first.lt_of_later sound beyond found inside)).symm

theorem get?_exchanged_far {place : Nat} (beyond : memory.store.slots.size ≤ place)
    (bound : place < memory.store.slots.size + second.room) :
    other.store.get? (exchange memory.store.slots.size first.room second.room (place + first.room)) =
      (last.store.get? (place + first.room)).map
        (Allocation.rename (exchange memory.store.slots.size first.room second.room)) := by
  have back : exchange memory.store.slots.size first.room second.room
      (shift memory.store.slots.size first.room place) = place := exchange_shift bound
  rw [shift_of_le beyond] at back
  rw [back, both.far place beyond, reverse.near place beyond bound]
  cases found : second.later.get? place with
  | none => rfl
  | some allocation =>
      rw [Option.map_some, Option.map_some, Allocation.rename_rename, Allocation.rename_of_fixed]
      intro target inside
      exact exchange_shift (second.lt_of_later sound beyond found inside)

theorem get?_exchanged (address : Nat) :
    other.store.get? (exchange memory.store.slots.size first.room second.room address) =
      (last.store.get? address).map
        (Allocation.rename (exchange memory.store.slots.size first.room second.room)) := by
  -- The address is one of four kinds: former, new by either copy, or beyond both stores.
  by_cases isFormer : address < memory.store.slots.size
  · exact both.get?_exchanged_former reverse sound isFormer
  have beyond := Nat.le_of_not_lt isFormer
  by_cases isFirst : address < memory.store.slots.size + first.room
  · exact both.get?_exchanged_near reverse sound beyond isFirst
  by_cases isSecond : address < memory.store.slots.size + first.room + second.room
  · obtain ⟨place, rfl⟩ : ∃ place, address = place + first.room :=
      ⟨address - first.room, (Nat.sub_add_cancel (by omega)).symm⟩
    exact both.get?_exchanged_far reverse sound (by omega) (by omega)
  · have outside := Nat.le_of_not_lt isSecond
    rw [exchange_of_le outside, get?_eq_none_of_size_le, get?_eq_none_of_size_le]
    · rfl
    · rwa [both.size_eq]
    · rw [reverse.size_eq]
      omega

theorem renamed (different : second.name ≠ first.name) :
    last.Renamed (exchange memory.store.slots.size first.room second.room) other where
  injective := exchange_injective _ _ _
  bindings_eq := by
    apply bindings_ext _ reverse.sorted
    · intro name
      rw [lookup_map_rename]
      exact both.lookup_exchanged reverse sound different name
    · rw [List.pairwise_map]
      exact both.sorted
  store := {
    size_eq := by
      rw [both.size_eq, reverse.size_eq]
      omega
    labels_eq := reverse.labels_eq.trans both.labels_eq.symm
    get?_eq := both.get?_exchanged reverse sound }

end Both

theorem copy_refusal (attempt : Attempt memory) :
    (memory.copy attempt.name attempt.source none).1 = attempt.refusal := by
  rw [copy_eq attempt.found, attempt.made, refusal]
  rcases attempt.result with (_ | _) | _ <;> rfl

theorem copies_both (first second : Attempt memory) (different : second.name ≠ first.name)
    (sound : memory.Sound) :
    let after := (memory.copy first.name first.source none).2
    (after.copy second.name second.source none).1 = second.refusal ∧
      Both first second (after.copy second.name second.source none).2 := by
  intro after
  have leads : first.Leads after := first.leads sound
  have afterSound : after.Sound := sound.copy first.name first.source none
  obtain ⟨again, repeats⟩ := leads.exists_again different sound afterSound
  have further := again.leads afterSound
  have refused := again.copy_refusal
  rw [repeats.name_eq, repeats.source_eq] at further refused
  exact ⟨refused.trans (leads.again_refusal repeats sound afterSound),
    leads.both repeats sound afterSound further different⟩

end Attempt

/-- Two copies that come to an end, into different variables that are not in use, come to the same in both
orders. The memories behind them are the same but for the places of the new allocations, which pictures do not
show. -/
theorem copies_commute {firstName firstSource secondName secondSource : String} {firstValue secondValue : Value}
    (sound : memory.Sound) (firstFound : memory.lookup firstSource = some firstValue)
    (secondFound : memory.lookup secondSource = some secondValue)
    (firstEnds : (firstValue.copy.run memory.store).1 ≠ .error .depth)
    (secondEnds : (secondValue.copy.run memory.store).1 ≠ .error .depth)
    (firstUnused : memory.lookup firstName = none) (secondUnused : memory.lookup secondName = none)
    (different : secondName ≠ firstName) :
    let early := memory.copy firstName firstSource none
    let last := early.2.copy secondName secondSource none
    let reverse := memory.copy secondName secondSource none
    let final := reverse.2.copy firstName firstSource none
    early.1 = final.1 ∧ last.1 = reverse.1 ∧
      (∃ rename : Address → Address, Function.Bijective rename ∧
        (∀ address < memory.store.slots.size, rename address = address) ∧ last.2.Renamed rename final.2) ∧
      final.2.picture = last.2.picture := by
  intro early last reverse final
  let first : Attempt memory := ⟨firstName, firstSource, firstValue, _, _, firstFound, firstUnused, rfl, firstEnds⟩
  let second : Attempt memory :=
    ⟨secondName, secondSource, secondValue, _, _, secondFound, secondUnused, rfl, secondEnds⟩
  obtain ⟨lastRefusal, both⟩ := first.copies_both second different sound
  obtain ⟨finalRefusal, backward⟩ := second.copies_both first different.symm sound
  have renamed := both.renamed backward sound different
  have bijective : Function.Bijective (exchange memory.store.slots.size first.room second.room) :=
    ⟨exchange_injective _ _ _, fun address => ⟨_, exchange_exchange _ _ _ address⟩⟩
  exact ⟨first.copy_refusal.trans finalRefusal.symm, lastRefusal.trans second.copy_refusal.symm,
    ⟨_, bijective, fun address before => exchange_of_lt before, renamed⟩, renamed.picture_eq⟩

theorem sound_latched : latched.Sound := by
  have sorted : (latched.bindings.map Prod.fst).Pairwise (· < ·) := by decide +kernel
  refine ⟨List.pairwise_map.mp sorted, ?_, (sound_nested true).counted⟩
  intro address
  have handles : [] ++ handlesOf latched.bindings ++ latched.store.handlesFrom 0 = [0, 1, 0] := rfl
  rw [handles]
  match address with
  | 0 => exact Nat.le_refl 2
  | 1 => exact Nat.le_refl 1
  | address + 2 => exact Nat.zero_le _

/-- Both copies lock the same mutex and stop at the cell in it, so that the second one finds it poisoned. -/
theorem copies_commute_latched :
    latched.Sound ∧ latched.lookup "source" = some (.node (.mutex false) [.handle .rc 1]) ∧
      latched.lookup "left" = none ∧ latched.lookup "right" = none ∧
      let early := latched.copy "left" "source" none
      let last := early.2.copy "right" "source" none
      let reverse := latched.copy "right" "source" none
      let final := reverse.2.copy "left" "source" none
      early.1 = final.1 ∧ last.1 = reverse.1 ∧ reverse.1 = some .panic ∧
        final.2.picture = last.2.picture := by
  have sound := sound_latched
  have found : latched.lookup "source" = some (.node (.mutex false) [.handle .rc 1]) := rfl
  have unused : latched.lookup "left" = none ∧ latched.lookup "right" = none := ⟨rfl, rfl⟩
  have live := sound.live found
  have ends := Value.copy_ne_depth sound.store (acyclic_nested true) live
  obtain ⟨early, last, _, same⟩ :=
    copies_commute sound found found ends ends unused.1 unused.2 (by decide)
  refine ⟨sound, found, unused.1, unused.2, early, last, ?_, same⟩
  have halted := Value.halt_copy sound.store live
  have isHeld : Value.haltWith (latched.store.haltAt latched.store.depth) (.node (.mutex false) [.handle .rc 1]) =
      some (.held [0, 0]) := rfl
  rw [isHeld] at halted
  rw [copy_eq found]
  generalize (Value.node (.mutex false) [.handle .rc 1]).copy.run latched.store = run at halted
  rcases run with ⟨_ | _, later⟩ <;> cases halted
  rfl

end Memory

end Replica
