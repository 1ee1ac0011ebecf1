import Replica.Proofs.Memory.Poison
import Replica.Proofs.Memory.Twins

/-!
What poisoning does to what other copies see. A trail to a held cell passes only mutexes that copies never look
at the poison of, and it passes the same allocations whatever is poisoned. Of two trails it does not matter
which one is poisoned first.
-/

namespace Replica

namespace Value

theorem poisonAlong_node (step : Nat) (trail : Trail) (form : Form) (parts : List Value) :
    (node form parts).poisonAlong (step :: trail) =
      .node (if step < parts.length then form.poisoned else form)
        (parts.modify step (poisonAlong trail)) := by
  rw [poisonAlong]
  cases found : parts[step]? with
  | none =>
      have beyond := List.getElem?_eq_none_iff.mp found
      rw [if_neg (Nat.not_lt.mpr beyond), List.modify_eq_self beyond]
  | some part =>
      obtain ⟨inside, rfl⟩ := List.getElem?_eq_some_iff.mp found
      rw [if_pos inside, List.modify_eq_set_getElem?, found]
      rfl

theorem poisonContents_cons (step : Nat) (trail : Trail) (contents : List Value) :
    poisonContents (step :: trail) contents = contents.modify step (poisonAlong trail) := by
  rw [poisonContents]
  cases found : contents[step]? with
  | none => rw [List.modify_eq_self (List.getElem?_eq_none_iff.mp found)]
  | some part =>
      rw [List.modify_eq_set_getElem?, found]
      rfl

@[simp]
theorem addresses_poisonAlong (trail : Trail) (value : Value) :
    (value.poisonAlong trail).addresses = value.addresses := by
  induction trail generalizing value with
  | nil => cases value <;> rfl
  | cons step trail ih =>
      cases value with
      | node form parts =>
          rw [poisonAlong]
          split
          · rfl
          · rename_i part found
            exact Store.addressesOfAll_set found (ih part)
      | _ => rfl

theorem addressesOfAll_poisonContents (trail : Trail) (contents : List Value) :
    addressesOfAll (poisonContents trail contents) = addressesOfAll contents := by
  cases trail with
  | nil => rfl
  | cons step trail =>
      rw [poisonContents]
      split
      · rfl
      · rename_i part found
        exact Store.addressesOfAll_set found (addresses_poisonAlong trail part)

theorem modify_comm {α : Type} {change other : α → α} (commute : ∀ item, change (other item) = other (change item))
    (items : List α) (step place : Nat) :
    (items.modify place other).modify step change = (items.modify step change).modify place other := by
  apply List.ext_getElem?
  intro index
  simp only [List.getElem?_modify]
  cases items[index]? with
  | none => rfl
  | some item =>
      simp only [Option.map_eq_map, Option.map_some]
      split <;> split <;> simp [commute]

theorem poisonAlong_comm (trail other : Trail) (value : Value) :
    (value.poisonAlong other).poisonAlong trail = (value.poisonAlong trail).poisonAlong other := by
  induction trail generalizing other value with
  | nil => cases value <;> rfl
  | cons step trail ih =>
      cases other with
      | nil => cases value <;> rfl
      | cons place other =>
          cases value with
          | node form parts =>
              simp only [poisonAlong_node, List.length_modify, node.injEq]
              refine ⟨?_, modify_comm (ih other) parts step place⟩
              split <;> split <;> rfl
          | _ => rfl

theorem poisonContents_comm (trail other : Trail) (contents : List Value) :
    poisonContents trail (poisonContents other contents) =
      poisonContents other (poisonContents trail contents) := by
  cases trail with
  | nil => rfl
  | cons step trail =>
      cases other with
      | nil => rfl
      | cons place other =>
          simp only [poisonContents_cons]
          exact modify_comm (poisonAlong_comm trail other) contents step place

end Value

namespace Store

variable {store old wider : Store} {trail rest : Trail} {value twin : Value} {address : Address} {count : Nat}
  {contents : List Value}

theorem HeldAt.soothe_poisonAlong (held : store.HeldAt trail value) :
    (value.poisonAlong trail).soothe = value.soothe := by
  induction trail generalizing value with
  | nil => cases value <;> rfl
  | cons step trail ih =>
      cases value with
      | node form parts =>
          obtain ⟨isDeep, part, found, partHeld⟩ := held
          have sameTreatment := Form.treatment_eq (Form.soothed_poisoned form)
          have unshared : form.treatment (0 + step) ≠ .share := by
            rw [Nat.zero_add, isDeep]
            simp
          rw [Value.poisonAlong, found]
          simp only [Value.soothe, Form.soothed_poisoned, sameTreatment]
          rw [Value.sootheParts_set found unshared (ih partHeld)]
      | _ => rfl

/-- Of an allocation that a trail to a held cell enters, the contents are soothed to the same. -/
theorem HeldAt.soothe_poisonContents (held : store.HeldAt trail value)
    (enters : store.Enters trail value address rest) (found : store.contents? address = some contents) :
    (Value.poisonContents rest contents).map Value.soothe = contents.map Value.soothe := by
  obtain ⟨step, behind, others, part, rfl, present, here, partHeld⟩ := held.of_enters enters
  rw [found, Option.some.injEq] at present
  subst present
  rw [Value.poisonContents, here]
  exact List.map_set_of_eq here partHeld.soothe_poisonAlong

theorem exists_of_map_eq {α β : Type} {f : α → β} {items others : List α} {item : α} {step : Nat}
    (same : others.map f = items.map f) (found : items[step]? = some item) :
    ∃ other, others[step]? = some other ∧ f other = f item := by
  have there := congrArg (·[step]?) same
  simpa [found, List.getElem?_map, Option.map_eq_some_iff] using there

theorem Widened.enters (widened : old.Widened wider count) (sound : old.Sound) (live : old.Live value)
    (same : twin.soothe = value.soothe) (enters : old.Enters trail value address rest) :
    wider.Enters trail twin address rest := by
  induction enters generalizing twin with
  | here =>
      obtain rfl := Value.eq_handle_of_soothe same
      exact .here
  | @part form parts step trail rest part address found behind ih =>
      obtain ⟨otherForm, twins, rfl, _, partsSame⟩ := Value.exists_node_of_soothe same
      obtain ⟨twinPart, twinFound, partSame⟩ := Value.exists_part_of_sootheParts partsSame found
      have partLive : old.Live part := fun other inside =>
        live other (Value.mem_addressesOfAll.mpr ⟨part, List.mem_of_getElem? found, inside⟩)
      exact .part twinFound (ih partLive partSame)
  | @content sharing holder contents step trail rest part address held found behind ih =>
      obtain rfl := Value.eq_handle_of_soothe same
      have holderLive : (old.get? holder).isSome := live holder (by simp [Value.addresses])
      have contentsSame := widened.contents_eq holder (lt_size_of_isSome holderLive)
      rw [held, Option.map_some, Option.map_eq_some_iff] at contentsSame
      obtain ⟨others, othersHeld, alike⟩ := contentsSame
      obtain ⟨twinPart, twinFound, partSame⟩ := exists_of_map_eq alike found
      exact .content othersHeld twinFound
        (ih (sound.live_of_contents held (List.mem_of_getElem? found)) partSame)

theorem Widened.of_enters (widened : old.Widened wider count) (sound : old.Sound) (live : old.Live value)
    (same : twin.soothe = value.soothe) (enters : wider.Enters trail twin address rest) :
    old.Enters trail value address rest := by
  induction enters generalizing value with
  | here =>
      obtain rfl := Value.eq_handle_of_soothe same.symm
      exact .here
  | part found behind ih =>
      obtain ⟨form, parts, rfl, _, partsSame⟩ := Value.exists_node_of_soothe same.symm
      obtain ⟨part, here, partSame⟩ := Value.exists_part_of_sootheParts partsSame found
      have partLive : old.Live part := fun other inside =>
        live other (Value.mem_addressesOfAll.mpr ⟨part, List.mem_of_getElem? here, inside⟩)
      exact .part here (ih partLive partSame.symm)
  | @content sharing holder others step trail rest twinPart address held found behind ih =>
      obtain rfl := Value.eq_handle_of_soothe same.symm
      have holderLive : (old.get? holder).isSome := live holder (by simp [Value.addresses])
      have contentsSame := widened.contents_eq holder (lt_size_of_isSome holderLive)
      rw [held, Option.map_some, eq_comm, Option.map_eq_some_iff] at contentsSame
      obtain ⟨contents, present, alike⟩ := contentsSame
      obtain ⟨part, here, partSame⟩ := exists_of_map_eq alike found
      exact .content present here
        (ih (sound.live_of_contents present (List.mem_of_getElem? here)) partSame.symm)

theorem Enters.lt_size (sound : store.Sound) (live : store.Live value)
    (enters : store.Enters trail value address rest) : address < store.slots.size := by
  induction enters with
  | here => exact lt_size_of_isSome (live _ (by simp [Value.addresses]))
  | part found _ ih =>
      apply ih
      exact fun other inside =>
        live other (Value.mem_addressesOfAll.mpr ⟨_, List.mem_of_getElem? found, inside⟩)
  | content held found _ ih => exact ih (sound.live_of_contents held (List.mem_of_getElem? found))

open Classical in
/-- What becomes of the contents of an allocation if it is entered with some rest of a trail still to go. -/
noncomputable def soilSome (entered : Trail → Prop) : List Value → List Value :=
  if some : ∃ rest, entered rest then Value.poisonContents some.choose else id

/-- What becomes of the contents at an address when the mutexes along a trail are poisoned. -/
noncomputable def soil (store : Store) (trail : Trail) (value : Value) (address : Address) :
    List Value → List Value :=
  soilSome (store.Enters trail value address)

theorem soilSome_comm (entered other : Trail → Prop) (contents : List Value) :
    soilSome entered (soilSome other contents) = soilSome other (soilSome entered contents) := by
  unfold soilSome
  split <;> split
  · exact Value.poisonContents_comm _ _ contents
  · rfl
  · rfl
  · rfl

@[simp]
theorem addressesOfAll_soil (store : Store) (trail : Trail) (value : Value) (address : Address)
    (contents : List Value) :
    Value.addressesOfAll (store.soil trail value address contents) = Value.addressesOfAll contents := by
  unfold soil soilSome
  split
  · exact Value.addressesOfAll_poisonContents _ contents
  · rfl

theorem soil_of_unentered (never : ∀ rest, ¬ store.Enters trail value address rest) :
    store.soil trail value address = id :=
  dif_neg (not_exists.mpr never)

theorem Widened.soil_eq (widened : old.Widened wider count) (sound : old.Sound) (live : old.Live value)
    (same : twin.soothe = value.soothe) (trail : Trail) (address : Address) :
    wider.soil trail twin address = old.soil trail value address := by
  have entered : wider.Enters trail twin address = old.Enters trail value address := by
    funext rest
    exact propext ⟨widened.of_enters sound live same, widened.enters sound live same⟩
  rw [soil, entered, soil]

theorem HeldAt.soothe_soil (held : store.HeldAt trail value) (found : store.contents? address = some contents) :
    (store.soil trail value address contents).map Value.soothe = contents.map Value.soothe := by
  unfold soil soilSome
  split
  · rename_i entered
    exact held.soothe_poisonContents entered.choose_spec found
  · rfl

theorem PoisonedAlong.get?_eq {after : Store} (poisoned : store.PoisonedAlong after trail value)
    (address : Address) :
    after.get? address = (store.get? address).map fun allocation =>
      { allocation with contents := store.soil trail value address allocation.contents } := by
  unfold soil soilSome
  split
  · rename_i entered
    exact poisoned.entered address _ entered.choose_spec
  · rename_i never
    rw [poisoned.apart address (not_exists.mp never)]
    simp

end Store

end Replica
