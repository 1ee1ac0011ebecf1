import Replica.Proofs.Memory.Apart
import Replica.Proofs.Memory.Independence

/-!
What a copy leaves as it was. In any store, with circles or without, a copy that is made changes nothing
but the counts of what its own parts hold handles to, and those handles stand in shared fields. When it is
given up, everything is as before.
-/

namespace Replica

namespace Store

open Value

variable {old store later : Store} {held addresses : List Address} {kind : Form → Prop}
  {contents : List Value}

/-- How a store grows by a copy: what is new in it is apart from what was there. -/
structure Offshoot (old : Store) (kind : Form → Prop) (held : List Address) (store : Store) : Prop where
  growth : Growth old held store
  apart : ∀ address contents, old.slots.size ≤ address → store.contents? address = some contents →
    ∀ part ∈ contents, part.Apart old.slots.size kind

/-- All nodes that a value leads to have some property. -/
def Throughout (holds : Form → List Value → Prop) (store : Store) (value : Value) : Prop :=
  ∀ trail form parts, store.follow? trail value = some (.node form parts) → holds form parts

namespace Throughout

variable {holds : Form → List Value → Prop} {value inner : Value} {form : Form} {parts : List Value}
  {address : Address} {sharing : Sharing}

theorem self (throughout : store.Throughout holds (.node form parts)) : holds form parts :=
  throughout [] form parts rfl

theorem of_child {step : Nat} (throughout : store.Throughout holds value)
    (found : store.child? value step = some inner) : store.Throughout holds inner := by
  intro trail form parts reached
  apply throughout (step :: trail) form parts
  rw [follow?, found, Option.bind_some]
  exact reached

theorem of_part (throughout : store.Throughout holds (.node form parts)) (member : inner ∈ parts) :
    store.Throughout holds inner := by
  obtain ⟨step, found⟩ := List.mem_iff_getElem?.mp member
  exact throughout.of_child found

theorem of_contents (throughout : store.Throughout holds (.handle sharing address))
    (found : store.contents? address = some contents) (member : inner ∈ contents) :
    store.Throughout holds inner := by
  obtain ⟨step, here⟩ := List.mem_iff_getElem?.mp member
  have reached : store.child? (.handle sharing address) step = some inner := by
    rw [child?, found, Option.bind_some, here]
  exact throughout.of_child reached

end Throughout

/-- All nodes that a value leads to are of some kind. -/
def LeadsTo (kind : Form → Prop) (store : Store) (value : Value) : Prop :=
  ∀ trail form parts, store.follow? trail value = some (.node form parts) → kind form

namespace LeadsTo

variable {form : Form} {parts : List Value} {inner : Value} {address : Address} {sharing : Sharing}

theorem self (leads : store.LeadsTo kind (.node form parts)) : kind form :=
  leads [] form parts rfl

theorem of_part (leads : store.LeadsTo kind (.node form parts)) (member : inner ∈ parts) :
    store.LeadsTo kind inner :=
  Throughout.of_part leads member

theorem of_contents (leads : store.LeadsTo kind (.handle sharing address))
    (found : store.contents? address = some contents) (member : inner ∈ contents) :
    store.LeadsTo kind inner :=
  Throughout.of_contents leads found member

end LeadsTo

theorem contents?_retain (address other : Address) (store : Store) :
    (store.retain address).contents? other = store.contents? other := by
  cases found : store.get? address with
  | none => simp [retain, found]
  | some allocation =>
      rw [retain_of_get? found, contents?, contents?, get?_put found]
      split
      · rename_i isAddress
        rw [isAddress, found]
        rfl
      · rfl

theorem contents?_retainAll (addresses : List Address) (other : Address) (store : Store) :
    (store.retainAll addresses).contents? other = store.contents? other := by
  induction addresses generalizing store with
  | nil => rfl
  | cons address addresses ih => exact (ih _).trans (contents?_retain address other store)

namespace Offshoot

theorem refl (old : Store) (kind : Form → Prop) : Offshoot old kind [] old where
  growth := .refl old
  apart address contents beyond found := by
    rw [contents?, get?_eq_none_of_size_le beyond] at found
    cases found

theorem of_perm (offshoot : Offshoot old kind held store) (perm : held.Perm addresses) :
    Offshoot old kind addresses store :=
  ⟨offshoot.growth.of_perm perm, offshoot.apart⟩

theorem retainAll (offshoot : Offshoot old kind held store)
    (live : ∀ address ∈ addresses, (old.get? address).isSome) :
    Offshoot old kind (addresses ++ held) (store.retainAll addresses) where
  growth := offshoot.growth.retainAll live
  apart address contents beyond found := by
    rw [contents?_retainAll] at found
    exact offshoot.apart address contents beyond found

theorem release (offshoot : Offshoot old kind (addresses ++ held) store) (sound : old.Sound) :
    Offshoot old kind held (store.release addresses) where
  growth := offshoot.growth.release sound
  apart address contents beyond found := offshoot.apart address contents beyond (release_contents found)

theorem allocate (offshoot : Offshoot old kind (addressesOfAll contents ++ held) store)
    (apart : ∀ part ∈ contents, part.Apart old.slots.size kind) :
    Offshoot old kind (store.slots.size :: held) (Store.allocate contents store).2 where
  growth := offshoot.growth.allocate
  apart address changed beyond found := by
    obtain ⟨allocation, here, rfl⟩ := contents?_eq_some_iff.mp found
    rw [get?_allocate] at here
    split at here
    · cases here
      exact apart
    · exact offshoot.apart address _ beyond (contents?_eq_some_iff.mpr ⟨allocation, here, rfl⟩)

end Offshoot

end Store

namespace Copying

variable {α β : Type} {copying : Copying α} {rest : α → Copying β} {store last : Store} {result : α} {final : β}

theorem bind_eq_ok_iff :
    (copying >>= rest) store = (.ok final, last) ↔
      ∃ middle later, copying store = (.ok middle, later) ∧ rest middle later = (.ok final, last) := by
  rw [bind_apply]
  rcases copying store with ⟨halt | middle, later⟩
  · constructor
    · intro impossible
      cases impossible
    · rintro ⟨_, _, impossible, _⟩
      cases impossible
  · constructor
    · exact fun made => ⟨middle, later, rfl, made⟩
    · rintro ⟨_, _, same, made⟩
      cases same
      exact made

theorem behind_eq_ok_iff {step : Nat} :
    behind step copying store = (.ok result, last) ↔ copying store = (.ok result, last) := by
  rw [behind]
  rcases copying store with ⟨halt | result, later⟩
  · constructor <;> intro impossible <;> cases impossible
  · rfl

theorem orRelease_eq_ok_iff {addresses : List Address} :
    orRelease addresses copying store = (.ok result, last) ↔ copying store = (.ok result, last) := by
  rw [orRelease]
  rcases copying store with ⟨halt | result, later⟩
  · constructor <;> intro impossible <;> cases impossible
  · rfl

end Copying

namespace Value

open Store

variable {old store later : Store} {held : List Address} {kind : Form → Prop} {depth : Nat}
  {follow : Address → Copying Address}

/-- A way to copy allocations makes a new one of each, and nothing but offshoots of the store. -/
def Sprouts (old : Store) (kind : Form → Prop) (follow : Address → Copying Address) : Prop :=
  ∀ sharing address held store copy later, (old.get? address).isSome →
    old.LeadsTo kind (.handle sharing address) → Offshoot old kind held store →
      follow address store = (.ok copy, later) →
        Offshoot old kind (copy :: held) later ∧ old.slots.size ≤ copy

theorem copyParts_cons_eq_ok_iff {treatment : Nat → Treatment} {step : Nat} {value : Value}
    {values copies : List Value} :
    copyParts follow treatment step (value :: values) store = (.ok copies, later) ↔
      ∃ copy middle others,
        treat (Copying.behind step (copyWith follow value)) value (treatment step) store = (.ok copy, middle) ∧
          copyParts follow treatment (step + 1) values middle = (.ok others, later) ∧ copies = copy :: others := by
  rw [copyParts]
  constructor
  · intro made
    obtain ⟨copy, middle, treated, rest⟩ := Copying.bind_eq_ok_iff.mp made
    obtain ⟨others, last, othersMade, final⟩ := Copying.bind_eq_ok_iff.mp rest
    cases final
    exact ⟨copy, middle, others, treated, Copying.orRelease_eq_ok_iff.mp othersMade, rfl⟩
  · rintro ⟨copy, middle, others, treated, othersMade, rfl⟩
    refine Copying.bind_eq_ok_iff.mpr ⟨copy, middle, treated, ?_⟩
    exact Copying.bind_eq_ok_iff.mpr ⟨others, later, Copying.orRelease_eq_ok_iff.mpr othersMade, rfl⟩

section Copies

variable (sound : old.Sound)
include sound

theorem assemble_offshoot {form : Form} {parts : List Value} (ofKind : kind form)
    (each : ∀ step part, parts[step]? = some part → form.treatment step ≠ .share →
      part.Apart old.slots.size kind)
    (offshoot : Offshoot old kind (addressesOfAll parts ++ held) store) :
    Offshoot old kind ((store.assemble form parts).1.addresses ++ held) (store.assemble form parts).2 ∧
      (store.assemble form parts).1.Apart old.slots.size kind := by
  have conserved := gather_addresses_perm store form parts
  constructor
  · apply Offshoot.release _ sound
    rw [← List.append_assoc]
    exact offshoot.of_perm (conserved.symm.append_right held)
  · exact .gather ofKind each store

omit sound in
theorem treat_offshoot (plain : kind .vector) {copying : Copying Value} {value copy : Value}
    {treatment : Treatment} (live : old.Live value) (offshoot : Offshoot old kind held store)
    (copied : ∀ copy later, copying store = (.ok copy, later) →
      Offshoot old kind (copy.addresses ++ held) later ∧ copy.Apart old.slots.size kind)
    (made : treat copying value treatment store = (.ok copy, later)) :
    Offshoot old kind (copy.addresses ++ held) later ∧
      (treatment ≠ .share → copy.Apart old.slots.size kind) := by
  cases treatment with
  | deep =>
      obtain ⟨grown, apart⟩ := copied copy later made
      exact ⟨grown, fun _ => apart⟩
  | share =>
      cases made
      exact ⟨offshoot.retainAll live, fun impossible => absurd rfl impossible⟩
  | reset =>
      cases made
      exact ⟨offshoot, fun _ => .node plain (by simp)⟩

omit sound in
theorem copyParts_offshoot (plain : kind .vector) {treatment : Nat → Treatment}
    {values copies : List Value}
    (each : ∀ value ∈ values, ∀ held store copy later, Offshoot old kind held store →
      copyWith follow value store = (.ok copy, later) →
        Offshoot old kind (copy.addresses ++ held) later ∧ copy.Apart old.slots.size kind)
    (live : ∀ value ∈ values, old.Live value) {first : Nat} (offshoot : Offshoot old kind held store)
    (made : copyParts follow treatment first values store = (.ok copies, later)) :
    Offshoot old kind (addressesOfAll copies ++ held) later ∧
      ∀ step copy, copies[step]? = some copy → treatment (first + step) ≠ .share →
        copy.Apart old.slots.size kind := by
  induction values generalizing first held store copies later with
  | nil =>
      cases made
      exact ⟨offshoot, by simp⟩
  | cons value values ih =>
      obtain ⟨eachFirst, eachOther⟩ := List.forall_mem_cons.mp each
      obtain ⟨liveFirst, liveOther⟩ := List.forall_mem_cons.mp live
      obtain ⟨copy, middle, others, treated, othersMade, rfl⟩ := copyParts_cons_eq_ok_iff.mp made
      obtain ⟨grown, apart⟩ := treat_offshoot plain liveFirst offshoot
        (fun copy later copied => eachFirst held store copy later offshoot
          (Copying.behind_eq_ok_iff.mp copied)) treated
      obtain ⟨grownFurther, othersApart⟩ := ih eachOther liveOther grown othersMade
      constructor
      · rw [← List.append_assoc] at grownFurther
        exact grownFurther.of_perm (List.perm_append_comm.append_right held)
      · intro step part found treated
        cases step with
        | zero =>
            cases found
            exact apart treated
        | succ step =>
            apply othersApart step part found
            rwa [Nat.add_assoc, Nat.add_comm 1 step]

theorem copyWith_offshoot (stable : ∀ form, kind form → kind form.copied) (plain : kind .vector)
    (sprouts : Sprouts old kind follow) {value copy : Value} (live : old.Live value)
    (leads : old.LeadsTo kind value) (offshoot : Offshoot old kind held store)
    (made : copyWith follow value store = (.ok copy, later)) :
    Offshoot old kind (copy.addresses ++ held) later ∧ copy.Apart old.slots.size kind := by
  induction value using Value.induct generalizing held store copy later with
  | atom content =>
      rw [copyWith] at made
      cases made
      exact ⟨offshoot, .atom content⟩
  | static label text =>
      rw [copyWith] at made
      cases made
      exact ⟨offshoot, .static label text⟩
  | handle sharing address =>
      rw [copyWith] at made
      obtain ⟨new, middle, followed, final⟩ := Copying.bind_eq_ok_iff.mp made
      cases final
      obtain ⟨grown, isNew⟩ := sprouts sharing address held store new _
        (live address (by simp [addresses])) leads offshoot followed
      exact ⟨grown, .handle sharing isNew⟩
  | node form parts ih =>
      -- A cell that somebody changes would have halted the copy.
      have open' : form ≠ .refCell true := by
        rintro rfl
        rw [copyWith] at made
        cases made
      rw [copyWith] at made
      · obtain ⟨copies, last, copied, assembled⟩ := Copying.bind_eq_ok_iff.mp made
        have liveParts : ∀ part ∈ parts, old.Live part := live_of_part live
        obtain ⟨grown, apart⟩ := copyParts_offshoot plain
          (fun part member held store copy later offshoot made =>
            ih part member (liveParts part member) (leads.of_part member) offshoot made)
          liveParts offshoot copied
        have ofKind := stable form leads.self
        have assembledApart := assemble_offshoot sound ofKind
          (fun step part found treated => apart step part found (by
            rwa [Nat.zero_add, ← Form.treatment_copied])) grown
        cases assembled
        exact assembledApart
      · exact open'

theorem copyAllocation_sprouts (stable : ∀ form, kind form → kind form.copied) (plain : kind .vector)
    (depth : Nat) : Sprouts old kind (copyAllocation depth) := by
  induction depth with
  | zero =>
      intro sharing address held store copy later live leads offshoot made
      cases made
  | succ depth ih =>
      intro sharing address held store copy later live leads offshoot made
      have bound := lt_size_of_isSome live
      obtain ⟨contents, found⟩ := exists_contents live
      have here : (store.contents? address).getD [] = contents := by
        rw [offshoot.growth.former_contents bound, found, Option.getD_some]
      rw [copyAllocation_succ, here] at made
      obtain ⟨copies, last, copied, allocated⟩ := Copying.bind_eq_ok_iff.mp made
      have liveParts : ∀ part ∈ contents, old.Live part := fun part member =>
        sound.live_of_contents found member
      obtain ⟨grown, apart⟩ := copyParts_offshoot plain
        (fun part member held store copy later offshoot made =>
          copyWith_offshoot sound stable plain ih (liveParts part member)
            (leads.of_contents found member) offshoot made)
        liveParts offshoot copied
      have allApart : ∀ part ∈ copies, part.Apart old.slots.size kind := by
        intro part member
        obtain ⟨step, inside⟩ := List.mem_iff_getElem?.mp member
        exact apart step part inside (by simp)
      cases allocated
      exact ⟨grown.allocate allApart, grown.growth.size_le⟩

variable (kind) in
/-- A copy that is made is an offshoot of the store, whatever else is in the store. -/
theorem copy_offshoot (stable : ∀ form, kind form → kind form.copied) (plain : kind .vector)
    {value copy : Value} (live : old.Live value) (leads : old.LeadsTo kind value)
    (made : value.copy.run old = (.ok copy, later)) :
    Offshoot old kind copy.addresses later ∧ copy.Apart old.slots.size kind := by
  have sprouts := copyAllocation_sprouts sound stable plain old.depth
  have result := copyWith_offshoot sound stable plain sprouts live leads (.refl old kind) made
  rwa [List.append_nil] at result

end Copies

end Value

namespace Store

/-- Whatever is new is reached from what is held. -/
theorem Growth.exists_holder {old store : Store} {held : List Address} (growth : Growth old held store)
    {address : Address} (beyond : old.slots.size ≤ address) (present : (store.get? address).isSome) :
    ∃ first ∈ held, Relation.ReflTransGen store.PointsTo first address := by
  generalize left : store.slots.size - address = distance
  -- The one handle to a new allocation is held, or it is in an allocation that is newer still.
  induction distance using Nat.strongRecOn generalizing address with
  | ind distance ih =>
      obtain ⟨allocation, found⟩ := Option.isSome_iff_exists.mp present
      have counted := growth.fresh address beyond
      rw [count_of_get? found, growth.single address allocation beyond found] at counted
      have member : address ∈ held ++ store.handlesFrom old.slots.size := by
        rw [← List.count_pos_iff, ← counted]
        exact Nat.one_pos
      rcases List.mem_append.mp member with isHeld | inside
      · exact ⟨address, isHeld, .refl⟩
      · obtain ⟨holder, holding, holderBeyond, here, contained⟩ := mem_handlesFrom.mp inside
        have above : address < holder := growth.descends holder holding holderBeyond here address contained
        have holderBound := lt_size_of_get? here
        have holderPresent : (store.get? holder).isSome := by
          rw [here]
          rfl
        obtain ⟨first, isHeld, path⟩ := ih (store.slots.size - holder)
          (left ▸ Nat.sub_lt_sub_left (Nat.lt_trans above holderBound) above) holderBeyond
          holderPresent rfl
        have points : store.PointsTo holder address :=
          ⟨holding.contents, contents?_eq_some_iff.mpr ⟨holding, here, rfl⟩, contained⟩
        exact ⟨first, isHeld, path.tail points⟩

end Store

namespace Memory

open Store

theorem filter_insert (name : String) (value : Value) (bindings : List (String × Value)) :
    (insert name value bindings).filter (·.1 ≠ name) = bindings.filter (·.1 ≠ name) := by
  induction bindings with
  | nil => simp [insert]
  | cons first rest ih =>
      rw [insert]
      split
      · rename_i isFirst
        simp [← isFirst]
      · split
        · rw [List.filter_cons, if_neg (by simp)]
        · rw [List.filter_cons, List.filter_cons, ih]

theorem filter_of_unused {bindings : List (String × Value)} {name : String}
    (unused : bindings.lookup name = none) : bindings.filter (·.1 ≠ name) = bindings := by
  rw [List.filter_eq_self]
  intro binding member
  have different := List.lookup_eq_none_iff.mp unused binding member
  rw [bne_iff_ne] at different
  exact decide_eq_true (Ne.symm different)

theorem store_withCopy {memory : Memory} {name : String} (unused : memory.lookup name = none)
    (copy : Value) (later : Store) : (memory.withCopy name copy later).store = later := by
  have released : (memory.withCopy name copy later).store =
      later.release ((memory.lookup name).elim [] Value.addresses) := rfl
  rw [released, unused, Option.elim_none, release_nil]

/-- A copy that is made changes nothing that was there but counts. The count of what was there grows by the
handles in the copy and in the allocations that came with it, all of which the copy leads to. Such handles
stand in shared fields only, so that there are none if the value leads to no such field. When the copy is
dropped, everything is as it was. -/
theorem copy_conserves {memory : Memory} {value copy : Value} {later : Store} {name : String}
    (sound : memory.store.Sound) (live : memory.store.Live value)
    (made : value.copy.run memory.store = (.ok copy, later)) (unused : memory.lookup name = none) :
    let size := memory.store.slots.size
    let copied := memory.withCopy name copy later
    (copied.lookup name = some copy ∧
        ∀ other, other ≠ name → copied.lookup other = memory.lookup other) ∧
      (∀ address, address < size →
        copied.store.get? address = (memory.store.get? address).map fun allocation =>
          { allocation with
            count := allocation.count +
              (copy.addresses ++ copied.store.handlesFrom size).count address }) ∧
      (∀ address, size ≤ address → (copied.store.get? address).isSome →
        ∃ first ∈ copy.addresses, Relation.ReflTransGen copied.store.PointsTo first address) ∧
      (copy.Apart size (fun _ => True) ∧
        ∀ address contents, size ≤ address → copied.store.contents? address = some contents →
          ∀ part ∈ contents, part.Apart size fun _ => True) ∧
      (memory.store.LeadsTo (fun form => ¬ form.Shares) value →
        ∀ address, address < size → copied.store.get? address = memory.store.get? address) ∧
      ∃ dropped, copied.drop name = .ok dropped ∧ dropped.bindings = memory.bindings ∧
        dropped.store.labels = memory.store.labels ∧
        ∀ address, dropped.store.get? address = memory.store.get? address := by
  intro size copied
  have store : copied.store = later := store_withCopy unused copy later
  have found : copied.lookup name = some copy := by
    exact (lookup_assign name copy _ name).trans (if_pos rfl)
  obtain ⟨⟨growth, inStore⟩, inCopy⟩ := Value.copy_offshoot (fun _ => True) sound
    (fun _ _ => trivial) trivial live (fun _ _ _ _ => trivial) made
  rw [store]
  refine ⟨⟨found, ?_⟩, growth.former, ?_, ⟨inCopy, inStore⟩, ?_, ?_⟩
  · intro other isOther
    exact (lookup_assign name copy _ other).trans (if_neg isOther)
  · exact fun address beyond present => growth.exists_holder beyond present
  · intro owning address bound
    obtain ⟨⟨_, storeApart⟩, apart⟩ := Value.copy_offshoot (fun form => ¬ form.Shares) sound
      (fun _ => Form.not_shares_copied) Form.not_shares_vector live owning made
    have none : address ∉ copy.addresses ++ later.handlesFrom size := by
      intro member
      apply Nat.not_le.mpr bound
      rcases List.mem_append.mp member with inCopy | inStore
      · exact apart.size_le_of_mem inCopy
      · obtain ⟨holder, allocation, beyond, here, inside⟩ := mem_handlesFrom.mp inStore
        obtain ⟨part, isPart, held⟩ := Value.mem_addressesOfAll.mp inside
        have contents := contents?_eq_some_iff.mpr ⟨allocation, here, rfl⟩
        exact (storeApart holder allocation.contents beyond contents part isPart).size_le_of_mem held
    rw [growth.former address bound, List.count_eq_zero.mpr none]
    simp
  · have given : Growth memory.store [] (later.release copy.addresses) := by
      apply Growth.release _ sound
      rwa [List.append_nil]
    refine ⟨⟨copied.bindings.filter (·.1 ≠ name), copied.store.release copy.addresses⟩, ?_, ?_, ?_, ?_⟩
    · rw [drop, found]
    · exact (filter_insert name copy memory.bindings).trans (filter_of_unused unused)
    · rw [store]
      exact given.labels_eq
    · rw [store]
      exact given.get?_eq

/-- A struct with a shared and an owned cell. The owned one leads to the shared one as well. -/
def parted (counter : UInt32) (cached : List Value) (owned : Address) : Value :=
  .node (.strategies counter) [.handle .rc 0, .node .vector cached, .handle .rc owned]

/-- The struct, and beside it a cell that leads to itself. -/
def ring : Memory :=
  ⟨[("ring", .handle .rc 2), ("v", parted 7 [.text "seen"] 1)],
    ⟨#[some ⟨2, [.node (.refCell false) [.text "core"]]⟩,
      some ⟨1, [.node (.refCell false) [.handle .rc 0]]⟩,
      some ⟨2, [.node (.refCell false) [.handle .rc 2]]⟩], 0⟩⟩

/-- The store of the ring when the struct has been copied. -/
def ringCopied : Store :=
  ⟨#[some ⟨3, [.node (.refCell false) [.text "core"]]⟩,
    some ⟨1, [.node (.refCell false) [.handle .rc 0]]⟩,
    some ⟨2, [.node (.refCell false) [.handle .rc 2]]⟩,
    some ⟨1, [.node (.refCell false) [.text "core"]]⟩,
    some ⟨1, [.node (.refCell false) [.handle .rc 3]]⟩], 0⟩

theorem copy_parted :
    (parted 7 [.text "seen"] 1).copy.run ring.store = (.ok (parted 8 [] 4), ringCopied) := by
  have stepped : (parted 7 [.text "seen"] 1).copy.run ring.store =
      (let first := release [] (ring.store.retain 0)
      let second := release [] (first.allocate [.node (.refCell false) [.text "core"]]).2
      let third := release [] (second.allocate [.node (.refCell false) [.handle .rc first.slots.size]]).2
      (.ok (parted 8 [] second.slots.size), third)) := rfl
  rw [stepped]
  simp only [release_nil]
  rfl

theorem pointsTo_ring {address other : Address} (points : ring.store.PointsTo address other) :
    other = 0 ∨ other = 2 := by
  obtain ⟨contents, found, inside⟩ := points
  match address with
  | 0 =>
      cases found
      simp [Value.addressesOfAll, Value.text, Value.addresses] at inside
  | 1 | 2 =>
      cases found
      simp only [Value.addressesOfAll, Value.addresses, List.append_nil, List.mem_singleton] at inside
      simp [inside]
  | address + 3 => simp [ring, contents?, get?] at found

theorem sound_ring : ring.store.Sound where
  closed address other points := by
    rcases pointsTo_ring points with rfl | rfl <;> rfl
  counted address allocation found := by
    match address with
    | 0 | 1 | 2 =>
        cases found
        decide
    | address + 3 => simp [ring, get?] at found

theorem live_parted : ring.store.Live (parted 7 [.text "seen"] 1) := by
  intro address member
  simp only [parted, Value.text, Value.addresses, Value.addressesOfAll, List.append_nil,
    List.nil_append, List.singleton_append, List.mem_cons, List.not_mem_nil, or_false] at member
  rcases member with rfl | rfl <;> rfl

theorem copy_conserves_ring :
    ring.store.Sound ∧ ring.store.Live (parted 7 [.text "seen"] 1) ∧ ring.lookup "c" = none ∧
      (parted 7 [.text "seen"] 1).copy.run ring.store = (.ok (parted 8 [] 4), ringCopied) ∧
      let copied := ring.withCopy "c" (parted 8 [] 4) ringCopied
      copied.store.get? 0 = some ⟨3, [.node (.refCell false) [.text "core"]]⟩ ∧
        copied.store.get? 2 = ring.store.get? 2 ∧
        ∃ dropped, copied.drop "c" = .ok dropped ∧ dropped.bindings = ring.bindings ∧
          ∀ address, dropped.store.get? address = ring.store.get? address := by
  have unused : ring.lookup "c" = none := by decide +kernel
  obtain ⟨_, former, _, _, _, dropped, dropping, sameBindings, _, same⟩ :=
    copy_conserves sound_ring live_parted copy_parted unused
  have handles : (parted 8 [] 4).addresses ++
      (ring.withCopy "c" (parted 8 [] 4) ringCopied).store.handlesFrom ring.store.slots.size =
        [0, 4, 3] := by
    rw [store_withCopy unused]
    rfl
  refine ⟨sound_ring, live_parted, unused, copy_parted, ?_, ?_, dropped, dropping, sameBindings, same⟩
  · rw [former 0 (by decide), handles]
    rfl
  · rw [former 2 (by decide), handles]
    rfl

end Memory

end Replica
