import Replica.Proofs.Memory.Conservation
import Replica.Proofs.Memory.Twins

/-!
The keys of copies. In any store, with circles or without, a copy that is made is found by the key of its original,
since it holds the same at new addresses. Copies that are made one after another leave each other's keys alone.
-/

namespace Replica

namespace Value

/-- What a part of a collection is found by: of an entry its key. -/
def sought : Value → Value
  | .node .entry (key :: _) => key
  | value => value

theorem partKey_eq (store : Store) (value : Value) : store.partKey value = store.key value.sought := by
  unfold sought
  split
  · rfl
  · rename_i other
    unfold Store.partKey
    split
    · exact (other _ _ rfl).elim
    · rfl

theorem mem_addresses_of_sought {value : Value} {address : Address} (member : address ∈ value.sought.addresses) :
    address ∈ value.addresses := by
  unfold sought at member
  split at member
  · exact List.mem_append_left _ member
  · exact member

theorem Apart.sought {first : Address} {kind : Form → Prop} {value : Value} (apart : value.Apart first kind) :
    value.sought.Apart first kind := by
  unfold Value.sought
  split
  · cases apart with
    | node _ each => exact each 0 _ rfl (by simp [Form.treatment])
  · exact apart

/-- Copies of values, each made in the store that the one before it left. -/
inductive InTurn (copying : Value → Copying Value) : Store → List Value → List Value → Store → Prop
  | nil {store : Store} : InTurn copying store [] [] store
  | cons {store middle later : Store} {value copy : Value} {values copies : List Value}
      (made : (copying value).run store = (.ok copy, middle)) (rest : InTurn copying middle values copies later) :
      InTurn copying store (value :: values) (copy :: copies) later

end Value

namespace Store

open Copying

variable {old store later : Store} {held : List Address} {address : Address}

theorem Growth.live_of_held {value : Value} (growth : Growth old held store)
    (isHeld : ∀ address ∈ value.addresses, address ∈ held) : store.Live value :=
  fun address member => growth.isSome_of_mem (List.mem_append_left _ (isHeld address member))

theorem Follows.keyOfAddress_eq (follows : later.Follows store)
    (closed : ∀ address other, later.PointsTo address other → (later.get? other).isSome)
    (bounded : ∀ address other, store.PointsTo address other → other < store.slots.size) (cells : Bool)
    (depth : Nat) (bound : address < store.slots.size) (live : (later.get? address).isSome) :
    Key.ofAddress cells later depth address = Key.ofAddress cells store depth address := by
  induction depth generalizing address with
  | zero => rfl
  | succ depth ih =>
      obtain ⟨contents, found⟩ := exists_contents live
      have before := follows.contents address contents bound found
      rw [Key.ofAddress_succ, Key.ofAddress_succ, found, before]
      refine congrArg _ (List.map_congr_left fun content member => Value.key_congr fun other inside => ?_)
      have points : other ∈ Value.addressesOfAll contents := Value.mem_addressesOfAll.mpr ⟨content, member, inside⟩
      exact ih (bounded address other ⟨contents, before, points⟩) (closed address other ⟨contents, found, points⟩)

/-- An offshoot of a store stays one, and what was in it before stays as it was. -/
theorem Sound.offshoot_lockstep (sound : old.Sound) (base : Store) :
    Lockstep id (fun address => (old.get? address).isSome) old.slots.size
      fun held store twin => twin = store ∧ Offshoot old (fun _ => True) held store ∧ store.Follows base where
  of_perm same keeping := ⟨keeping.1, keeping.2.1.of_perm same, keeping.2.2⟩
  fixed _ _ := rfl
  retain address live keeping := by
    obtain ⟨rfl, offshoot, follows⟩ := keeping
    refine ⟨rfl, ?_, (follows_retain address _).trans follows⟩
    exact offshoot.retainAll (by simpa using live : ∀ other ∈ [address], (old.get? other).isSome)
  allocate contents new keeping := by
    obtain ⟨rfl, offshoot, follows⟩ := keeping
    have same : contents.map (Value.rename id) = contents := Value.map_rename_of_fixed fun _ _ => rfl
    refine ⟨offshoot.growth.size_le, rfl, by rw [same], offshoot.allocate new, ?_⟩
    exact (follows_allocate contents _).trans follows
  release keeping := by
    obtain ⟨rfl, offshoot, follows⟩ := keeping
    exact ⟨by rw [List.map_id], offshoot.release sound, (follows_release _ _).trans follows⟩
  partKey part _ _ keeping := by rw [keeping.1, Value.rename_id]
  contents address live keeping := sound.lockstep.contents address live ⟨keeping.1, keeping.2.1.growth⟩

end Store

namespace Value

open Store Copying

variable {old store later middle : Store} {held before after : List Address} {depth : Nat} {value copy : Value}
  {values copies : List Value} {form : Form} {parts : List Value}

/-- What a copy of a value is, and what it leaves in the store. -/
structure Grown (old store : Store) (held : List Address) (copy : Value) (later : Store) : Prop where
  offshoot : Offshoot old (fun _ => True) (copy.addresses ++ held) later
  isNew : copy.New old.slots.size
  follows : later.Follows store

theorem copyTo_grown (sound : old.Sound) (live : old.Live value)
    (offshoot : Offshoot old (fun _ => True) held store) (made : copyTo depth value store = (.ok copy, later)) :
    Grown old store held copy later := by
  have inStep := copyTo_inStep (sound.offshoot_lockstep store) depth live rfl ⟨rfl, offshoot, .refl store⟩
  rw [made] at inStep
  obtain ⟨_, isNew, _, grown, follows⟩ := inStep
  exact ⟨grown, isNew, follows⟩

/-! What has happened when a copy has been made. -/

theorem copyParts_deep_eq_ok_iff {step : Nat} :
    copyParts (copyAllocation depth) (fun _ => .deep) step values store = (.ok copies, later) ↔
      InTurn (copyTo depth) store values copies later := by
  induction values generalizing step store copies with
  | nil =>
      constructor
      · intro made
        cases made
        exact .nil
      · intro made
        cases made
        rfl
  | cons value values ih =>
      rw [copyParts_cons_eq_ok_iff]
      constructor
      · rintro ⟨copy, middle, others, copied, othersMade, rfl⟩
        exact .cons (Copying.behind_eq_ok_iff.mp copied) (ih.mp othersMade)
      · intro made
        cases made with
        | cons copied rest => exact ⟨_, _, _, Copying.behind_eq_ok_iff.mpr copied, ih.mpr rest, rfl⟩

theorem copyTo_handle_eq_ok_iff {sharing : Sharing} {address : Address} :
    copyTo depth (.handle sharing address) store = (.ok copy, later) ↔
      ∃ new, copyAllocation depth address store = (.ok new, later) ∧ copy = .handle sharing new := by
  rw [copyTo, copyWith]
  constructor
  · intro made
    obtain ⟨new, middle, followed, final⟩ := Copying.bind_eq_ok_iff.mp made
    cases final
    exact ⟨new, followed, rfl⟩
  · rintro ⟨new, followed, rfl⟩
    exact Copying.bind_eq_ok_iff.mpr ⟨new, later, followed, rfl⟩

theorem copyAllocation_eq_ok_iff {address new : Address} :
    copyAllocation (depth + 1) address store = (.ok new, later) ↔
      ∃ copies middle, InTurn (copyTo depth) store ((store.contents? address).getD []) copies middle ∧
        new = middle.slots.size ∧ later = (middle.allocate copies).2 := by
  rw [copyAllocation_succ]
  constructor
  · intro made
    obtain ⟨copies, middle, copied, allocated⟩ := Copying.bind_eq_ok_iff.mp made
    cases allocated
    exact ⟨copies, middle, copyParts_deep_eq_ok_iff.mp copied, rfl, rfl⟩
  · rintro ⟨copies, middle, copied, rfl, rfl⟩
    exact Copying.bind_eq_ok_iff.mpr ⟨copies, middle, copyParts_deep_eq_ok_iff.mpr copied, rfl⟩

theorem copyTo_node_eq_ok_iff (owning : Tree.Owning form) :
    copyTo depth (.node form parts) store = (.ok copy, later) ↔
      form ≠ .refCell true ∧ ∃ copies middle, InTurn (copyTo depth) store parts copies middle ∧
        (copy, later) = middle.assemble form.copied copies := by
  by_cases isHeld : form = .refCell true
  · subst isHeld
    rw [copyTo, copyWith]
    constructor
    · intro made
      cases made
    · rintro ⟨free, _⟩
      exact absurd rfl free
  · rw [copyTo, copyWith, owning.treatment]
    · constructor
      · intro made
        obtain ⟨copies, middle, copied, assembled⟩ := Copying.bind_eq_ok_iff.mp made
        refine ⟨isHeld, copies, middle, copyParts_deep_eq_ok_iff.mp copied, ?_⟩
        cases assembled
        rfl
      · rintro ⟨_, copies, middle, copied, assembled⟩
        refine Copying.bind_eq_ok_iff.mpr ⟨copies, middle, copyParts_deep_eq_ok_iff.mpr copied, ?_⟩
        cases assembled
        rfl
    · exact isHeld

theorem exists_parts_of_copyTo (made : copyTo depth (.node form parts) store = (.ok copy, later)) :
    ∃ kept, copy = .node form.copied kept := by
  by_cases isHeld : form = .refCell true
  · subst isHeld
    rw [copyTo, copyWith] at made
    cases made
  · rw [copyTo, copyWith] at made
    · obtain ⟨copies, middle, _, assembled⟩ := Copying.bind_eq_ok_iff.mp made
      cases assembled
      exact ⟨_, rfl⟩
    · exact isHeld

namespace InTurn

theorem imp {copying other : Value → Copying Value}
    (each : ∀ value ∈ values, ∀ store copy later, (copying value).run store = (.ok copy, later) →
      (other value).run store = (.ok copy, later))
    (made : InTurn copying store values copies later) : InTurn other store values copies later := by
  induction made with
  | nil => exact .nil
  | cons copied _ ih =>
      obtain ⟨first, others⟩ := List.forall_mem_cons.mp each
      exact .cons (first _ _ _ copied) (ih others)

theorem length_eq {copying : Value → Copying Value} (made : InTurn copying store values copies later) :
    copies.length = values.length := by
  induction made with
  | nil => rfl
  | cons _ _ ih => simp [ih]

/-- All copies are new, and what one of them holds is left alone by those behind it. -/
theorem grown (sound : old.Sound) (live : ∀ value ∈ values, old.Live value)
    (offshoot : Offshoot old (fun _ => True) held store) (made : InTurn (copyTo depth) store values copies later) :
    Offshoot old (fun _ => True) (addressesOfAll copies ++ held) later ∧
      (∀ copy ∈ copies, copy.New old.slots.size) ∧ later.Follows store := by
  induction made generalizing held with
  | nil => exact ⟨offshoot, by simp, .refl _⟩
  | @cons store middle later value copy values copies copied rest ih =>
      obtain ⟨liveFirst, liveOthers⟩ := List.forall_mem_cons.mp live
      have first := copyTo_grown sound liveFirst offshoot copied
      obtain ⟨grown, new, follows⟩ := ih liveOthers first.offshoot
      refine ⟨?_, List.forall_mem_cons.mpr ⟨first.isNew, new⟩, follows.trans first.follows⟩
      rw [← List.append_assoc] at grown
      exact grown.of_perm (List.perm_append_comm.append_right held)

end InTurn

section Keys

variable (sound : old.Sound)
include sound

theorem key_eq_of_follows (earlier : Offshoot old (fun _ => True) before store)
    (grown : Offshoot old (fun _ => True) after later) (follows : later.Follows store)
    (isNew : copy.New old.slots.size) (wasLive : store.Live copy) (isLive : later.Live copy) (cells : Bool)
    {enough deeper : Nat} (isEnough : store.slots.size ≤ enough) (isDeeper : store.slots.size ≤ deeper) :
    Key.ofValue cells (Key.ofAddress cells later deeper) copy =
      Key.ofValue cells (Key.ofAddress cells store enough) copy := by
  apply isNew.key_congr
  intro address member beyond
  have bound := lt_size_of_isSome (wasLive address member)
  rw [follows.keyOfAddress_eq (grown.growth.closed sound) (earlier.growth.bounded sound) cells deeper bound
    (isLive address member)]
  exact earlier.growth.keyOfAddress_eq earlier.apart cells beyond (Nat.lt_of_lt_of_le bound isEnough)
    (Nat.lt_of_lt_of_le bound isDeeper)

/-- Copies that are made one after another are what each is when it is made, if it stays so as long as it is there. -/
theorem InTurn.forall₂ (related : Store → Value → Value → Prop)
    (stays : ∀ {before after : List Address} {store later : Store} {value copy : Value},
      Offshoot old (fun _ => True) before store → Offshoot old (fun _ => True) after later →
        later.Follows store → copy.New old.slots.size → store.Live copy → later.Live copy →
          related store value copy → related later value copy)
    (live : ∀ value ∈ values, old.Live value) (offshoot : Offshoot old (fun _ => True) held store)
    (each : ∀ value ∈ values, ∀ held store copy later, Offshoot old (fun _ => True) held store →
      copyTo depth value store = (.ok copy, later) → related later value copy)
    (made : InTurn (copyTo depth) store values copies later) : List.Forall₂ (related later) values copies := by
  induction made generalizing held with
  | nil => exact .nil
  | @cons store middle later value copy values copies copied rest ih =>
      obtain ⟨eachFirst, eachOther⟩ := List.forall_mem_cons.mp each
      obtain ⟨liveFirst, liveOthers⟩ := List.forall_mem_cons.mp live
      have first := copyTo_grown sound liveFirst offshoot copied
      obtain ⟨grown, new, follows⟩ := rest.grown sound liveOthers first.offshoot
      have wasLive : middle.Live copy := first.offshoot.growth.live_of_held (by simp +contextual)
      have isLive : later.Live copy := grown.growth.live_of_held (by simp +contextual)
      refine .cons ?_ (ih liveOthers first.offshoot eachOther)
      exact stays first.offshoot grown follows first.isNew wasLive isLive
        (eachFirst held store copy middle offshoot copied)

/-- What is seen of copies that are made one after another, if it stays the same as long as they are there. -/
theorem InTurn.map_eq {β : Type} {seen : Store → Value → β} {expected : Value → β}
    (stays : ∀ {before after : List Address} {store later : Store} {copy : Value},
      Offshoot old (fun _ => True) before store → Offshoot old (fun _ => True) after later →
        later.Follows store → copy.New old.slots.size → store.Live copy → later.Live copy →
          seen later copy = seen store copy)
    (live : ∀ value ∈ values, old.Live value) (offshoot : Offshoot old (fun _ => True) held store)
    (each : ∀ value ∈ values, ∀ held store copy later, Offshoot old (fun _ => True) held store →
      copyTo depth value store = (.ok copy, later) → seen later copy = expected value)
    (made : InTurn (copyTo depth) store values copies later) :
    copies.map (seen later) = values.map expected := by
  symm
  apply List.map_eq_of_forall₂
  refine InTurn.forall₂ sound (fun store value copy => expected value = seen store copy) ?_ live offshoot ?_ made
  · intro before after store later value copy earlier grown follows isNew wasLive isLive same
    exact same.trans (stays earlier grown follows isNew wasLive isLive).symm
  · exact fun value member held store copy later offshoot made =>
      (each value member held store copy later offshoot made).symm

omit sound in
theorem key_assemble {cells : Bool} (assembled : (copy, later) = middle.assemble form.copied copies) :
    Key.ofValue cells (Key.ofAddress cells later later.slots.size) copy =
      Key.ofValue cells (Key.ofAddress cells middle middle.slots.size) (.node form copies) := by
  cases assembled
  -- A form that keys see into is no collection, so that nothing is dropped.
  cases form with
  | tuple | vector | box | refCell =>
      have stays : middle.release (addressesOfAll []) = middle := release_nil middle
      simp only [Form.copied, Store.gather, Form.gather, stays]
  | _ => rfl

/-- What copies of allocations up to some depth do to keys. Looking deeper changes none of them. -/
def KeepsKeys (old : Store) (cells : Bool) (depth : Nat) : Prop :=
  ∀ address held store new later deeper, (old.get? address).isSome → Offshoot old (fun _ => True) held store →
    copyAllocation depth address store = (.ok new, later) → depth ≤ deeper →
      Key.ofAddress cells later later.slots.size new = Key.ofAddress cells old deeper address

theorem copyTo_key_of_keepsKeys {cells : Bool} {deeper : Nat} (keeps : KeepsKeys old cells depth)
    (further : depth ≤ deeper) (live : old.Live value) (offshoot : Offshoot old (fun _ => True) held store)
    (made : copyTo depth value store = (.ok copy, later)) :
    Key.ofValue cells (Key.ofAddress cells later later.slots.size) copy =
      Key.ofValue cells (Key.ofAddress cells old deeper) value := by
  induction value using Value.induct generalizing held store copy later with
  | atom content =>
      cases made
      rfl
  | static label text =>
      cases made
      rfl
  | handle sharing address =>
      obtain ⟨new, followed, rfl⟩ := copyTo_handle_eq_ok_iff.mp made
      cases sharing with
      | rc =>
          exact keeps address held store new later deeper (live address (by simp [addresses])) offshoot followed further
      | _ => rfl
  | node form parts ih =>
      by_cases owning : Tree.Owning form
      · obtain ⟨_, copies, middle, inTurn, assembled⟩ := (copyTo_node_eq_ok_iff owning).mp made
        have liveParts : ∀ part ∈ parts, old.Live part := live_of_part live
        rw [key_assemble assembled]
        apply key_node_congr
        apply inTurn.map_eq sound _ liveParts offshoot
        · exact fun part member held store copy later offshoot made =>
            ih part member (liveParts part member) offshoot made
        · exact fun earlier grown follows isNew wasLive isLive =>
            key_eq_of_follows sound earlier grown follows isNew wasLive isLive cells (Nat.le_refl _) follows.size_le
      · -- A struct with shared fields has no order.
        simp only [Tree.Owning, not_forall, not_not] at owning
        obtain ⟨counter, rfl⟩ := owning
        rw [copyTo, copyWith] at made
        · obtain ⟨copies, middle, copied, assembled⟩ := Copying.bind_eq_ok_iff.mp made
          cases assembled
          rfl
        · simp

theorem copyAllocation_key (cells : Bool) (depth : Nat) : KeepsKeys old cells depth := by
  induction depth with
  | zero =>
      intro address held store new later deeper live offshoot made further
      cases made
  | succ depth ih =>
      intro address held store new later deeper live offshoot made further
      have bound := lt_size_of_isSome live
      obtain ⟨contents, found⟩ := exists_contents live
      obtain ⟨copies, middle, inTurn, rfl, rfl⟩ := copyAllocation_eq_ok_iff.mp made
      rw [offshoot.growth.former_contents bound, found, Option.getD_some] at inTurn
      have liveParts : ∀ part ∈ contents, old.Live part := fun part member => sound.live_of_contents found member
      obtain ⟨grown, new, _⟩ := inTurn.grown sound liveParts offshoot
      obtain ⟨deeper, rfl⟩ := Nat.exists_eq_succ_of_ne_zero (Nat.ne_zero_of_lt further)
      have keys := inTurn.map_eq sound
        (fun earlier grown follows isNew wasLive isLive =>
          key_eq_of_follows sound earlier grown follows isNew wasLive isLive cells (Nat.le_refl _) follows.size_le)
        liveParts offshoot fun part member held store copy later offshoot made =>
          copyTo_key_of_keepsKeys sound ih (Nat.le_of_succ_le_succ further) (liveParts part member) offshoot made
      have here : (middle.allocate copies).2.contents? middle.slots.size = some copies := by
        simp [contents?, get?_allocate]
      rw [size_allocate, Key.ofAddress_succ, Key.ofAddress_succ, found, here, Option.getD_some, Option.getD_some, ← keys]
      refine congrArg _ (List.map_congr_left fun copy member => ?_)
      have allocated := grown.allocate new
      have wasLive : middle.Live copy := grown.growth.live_of_held fun other inside =>
        List.mem_append_left _ (mem_addressesOfAll.mpr ⟨copy, member, inside⟩)
      have isLive : (middle.allocate copies).2.Live copy := fun other inside =>
        allocated.growth.closed sound middle.slots.size other
          ⟨copies, here, mem_addressesOfAll.mpr ⟨copy, member, inside⟩⟩
      exact key_eq_of_follows sound grown allocated (follows_allocate copies middle) (new copy member) wasLive isLive cells
        (Nat.le_refl _) (Nat.le_refl _)

theorem keyOf_copyTo (cells : Bool) (enough : depth ≤ old.depth) (live : old.Live value)
    (offshoot : Offshoot old (fun _ => True) held store) (made : copyTo depth value store = (.ok copy, later)) :
    Key.ofValue cells (Key.ofAddress cells later later.depth) copy =
      Key.ofValue cells (Key.ofAddress cells old old.depth) value := by
  have grown := copyTo_grown sound live offshoot made
  have isLive : later.Live copy := grown.offshoot.growth.live_of_held (by simp +contextual)
  rw [← copyTo_key_of_keepsKeys sound (copyAllocation_key sound cells depth) enough live offshoot made]
  exact key_eq_of_follows sound grown.offshoot grown.offshoot (.refl later) grown.isNew isLive isLive cells
    (Nat.le_refl _) (Nat.le_succ _)

/-- A copy is found by the key of its original. -/
theorem key_copyTo (enough : depth ≤ old.depth) (live : old.Live value)
    (offshoot : Offshoot old (fun _ => True) held store) (made : copyTo depth value store = (.ok copy, later)) :
    later.key copy = old.key value ∧ later.fixedKey copy = old.fixedKey value :=
  ⟨keyOf_copyTo sound true enough live offshoot made, keyOf_copyTo sound false enough live offshoot made⟩

theorem soughtKey_copyTo (cells : Bool) (enough : depth ≤ old.depth) (live : old.Live value)
    (offshoot : Offshoot old (fun _ => True) held store) (made : copyTo depth value store = (.ok copy, later)) :
    Key.ofValue cells (Key.ofAddress cells later later.depth) copy.sought =
      Key.ofValue cells (Key.ofAddress cells old old.depth) value.sought := by
  have whole := keyOf_copyTo sound cells enough live offshoot made
  cases value with
  | atom content =>
      cases made
      exact whole
  | static label text =>
      cases made
      exact whole
  | handle sharing address =>
      obtain ⟨new, _, rfl⟩ := copyTo_handle_eq_ok_iff.mp made
      exact whole
  | node form parts =>
      obtain ⟨kept, rfl⟩ := exists_parts_of_copyTo made
      cases form with
      | entry =>
          have liveParts : ∀ part ∈ parts, old.Live part := live_of_part live
          obtain ⟨_, copies, middle, inTurn, assembled⟩ := (copyTo_node_eq_ok_iff (by simp [Tree.Owning])).mp made
          have stays : middle.release (addressesOfAll []) = middle := release_nil middle
          simp only [Store.assemble, Store.gather, Form.copied, Form.gather, stays, Prod.mk.injEq, node.injEq,
            true_and] at assembled
          obtain ⟨rfl, rfl⟩ := assembled
          -- The key is copied first, and the copy of the value leaves it alone.
          cases inTurn with
          | nil => exact whole
          | @cons _ between _ key keyCopy rest restCopies keyMade restMade =>
              obtain ⟨liveKey, liveRest⟩ := List.forall_mem_cons.mp liveParts
              have first := copyTo_grown sound liveKey offshoot keyMade
              obtain ⟨grown, _, follows⟩ := restMade.grown sound liveRest first.offshoot
              have wasLive : between.Live keyCopy := first.offshoot.growth.live_of_held (by simp +contextual)
              have isLive : later.Live keyCopy := grown.growth.live_of_held (by simp +contextual)
              have kept := key_eq_of_follows sound first.offshoot grown follows first.isNew wasLive isLive cells
                (Nat.le_succ _) (Nat.le_succ_of_le follows.size_le)
              exact Eq.trans kept (keyOf_copyTo sound cells enough liveKey offshoot keyMade)
      | _ => exact whole

theorem partKey_copyTo (enough : depth ≤ old.depth) (live : old.Live value)
    (offshoot : Offshoot old (fun _ => True) held store) (made : copyTo depth value store = (.ok copy, later)) :
    later.partKey copy = old.partKey value := by
  rw [partKey_eq, partKey_eq]
  exact soughtKey_copyTo sound true enough live offshoot made

theorem partKey_eq_of_follows (earlier : Offshoot old (fun _ => True) before store)
    (grown : Offshoot old (fun _ => True) after later) (follows : later.Follows store)
    (isNew : copy.New old.slots.size) (wasLive : store.Live copy) (isLive : later.Live copy) :
    later.partKey copy = store.partKey copy := by
  rw [partKey_eq, partKey_eq]
  exact key_eq_of_follows sound earlier grown follows isNew.sought
    (fun address member => wasLive address (mem_addresses_of_sought member))
    (fun address member => isLive address (mem_addresses_of_sought member)) true (Nat.le_succ _)
    (Nat.le_succ_of_le follows.size_le)

theorem InTurn.partKeys_eq (enough : depth ≤ old.depth) (live : ∀ value ∈ values, old.Live value)
    (offshoot : Offshoot old (fun _ => True) held store) (made : InTurn (copyTo depth) store values copies later) :
    copies.map later.partKey = values.map old.partKey := by
  apply made.map_eq sound (partKey_eq_of_follows sound) live offshoot
  exact fun value member held store copy later offshoot made =>
    partKey_copyTo sound enough (live value member) offshoot made

/-- What is copied up to some depth is copied in the same way without that bound. -/
theorem InTurn.of_copyTo (enough : depth ≤ store.depth) (live : ∀ value ∈ values, old.Live value)
    (offshoot : Offshoot old (fun _ => True) held store) (made : InTurn (copyTo depth) store values copies later) :
    InTurn Value.copy store values copies later := by
  induction made generalizing held with
  | nil => exact .nil
  | @cons store middle later value copy values copies copied rest ih =>
      obtain ⟨liveFirst, liveOthers⟩ := List.forall_mem_cons.mp live
      have first := copyTo_grown sound liveFirst offshoot copied
      have further : store.depth ≤ middle.depth := Nat.succ_le_succ first.follows.size_le
      refine .cons ?_ (ih (Nat.le_trans enough further) liveOthers first.offshoot)
      exact copyTo_extends enough value store _ _ copied (by simp)

theorem partKey_assemble (grown : Offshoot old (fun _ => True) (addressesOfAll copies ++ held) middle)
    (new : ∀ copy ∈ copies, copy.New old.slots.size) :
    ∀ part ∈ (middle.gather form copies).kept,
      (middle.assemble form copies).2.partKey part = middle.partKey part := by
  have assembled : Offshoot old (fun _ => True) ((middle.assemble form copies).1.addresses ++ held)
      (middle.assemble form copies).2 :=
    (assemble_offshoot sound trivial (fun step part found _ => new part (List.mem_of_getElem? found)) grown).1
  have isNew : ∀ part ∈ (middle.gather form copies).kept, part.New old.slots.size :=
    Form.forall_gather (fun _ _ => Apart.absorb) form new
  have conserved := gather_addresses_perm middle form copies
  intro part member
  have inside : ∀ address ∈ part.addresses, address ∈ addressesOfAll (middle.gather form copies).kept :=
    fun address here => mem_addressesOfAll.mpr ⟨part, member, here⟩
  apply partKey_eq_of_follows sound grown assembled (follows_release _ middle) (isNew part member)
  · apply grown.growth.live_of_held
    exact fun address here => List.mem_append_left _
      (conserved.mem_iff.mp (List.mem_append_right _ (inside address here)))
  · apply assembled.growth.live_of_held
    exact fun address here => List.mem_append_left _ (inside address here)

/-- How a node is copied: part by part, each found by the key of its original, and what comes of that is put
together. -/
theorem copy_node_cases (owning : Tree.Owning form) (live : old.Live (.node form parts))
    (made : (node form parts).copy.run old = (.ok copy, later)) :
    ∃ copies middle, InTurn Value.copy old parts copies middle ∧
      copies.map middle.partKey = parts.map old.partKey ∧
      copy = .node form.copied (middle.gather form.copied copies).kept ∧
      ∀ part ∈ (middle.gather form.copied copies).kept, later.partKey part = middle.partKey part := by
  have liveParts : ∀ part ∈ parts, old.Live part := live_of_part live
  obtain ⟨_, copies, middle, inTurn, assembled⟩ := (copyTo_node_eq_ok_iff owning).mp made
  obtain ⟨grown, new, _⟩ := inTurn.grown sound liveParts (.refl old _)
  refine ⟨copies, middle, inTurn.of_copyTo sound (Nat.le_refl _) liveParts (.refl old _),
    inTurn.partKeys_eq sound (Nat.le_refl _) liveParts (.refl old _), ?_⟩
  cases assembled
  exact ⟨rfl, partKey_assemble sound grown new⟩

end Keys

end Value

end Replica
