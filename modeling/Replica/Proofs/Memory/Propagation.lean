import Replica.Proofs.Memory.Neatness

/-!
Copies of what is neat. They are neat again, and so is all that they bring into the store. What is found by its key
is found by the same key in the copy, and structs have cells of their own there.
-/

namespace Replica

open Store

namespace Form

/-- Parts fit into the copy's form as into the original's. -/
theorem fits_copied {follow : Address → Key} {form : Form} {part : Value} (fits : Value.Fits follow form part) :
    Value.Fits follow form.copied part := by
  cases form with
  | mutex | rwLock | strategies | account | library => exact trivial
  | _ => exact fits

theorem shelved_copied {form : Form} {step : Nat} : form.copied.Shelved step ↔ form.Shelved step := by
  cases form with
  | strategies counter =>
      match step with
      | 0 => exact .rfl
      | 1 => exact .rfl
      | 2 => exact .rfl
      | step + 3 => exact .rfl
  | library name =>
      match step with
      | 0 => exact .rfl
      | step + 1 => exact .rfl
  | _ => exact .rfl

theorem not_reset_of_shelved {form : Form} {step : Nat} (isShelved : form.Shelved step) :
    form.treatment step ≠ .reset := by
  cases form with
  | strategies counter =>
      match step with
      | 0 => simp [treatment]
      | 1 => exact isShelved.elim
      | step + 2 => simp [treatment]
  | library name => simp [treatment]
  | _ => exact isShelved.elim

end Form

theorem Store.size_retainAll (addresses : List Address) (store : Store) :
    (store.retainAll addresses).slots.size = store.slots.size := by
  induction addresses generalizing store with
  | nil => rfl
  | cons address addresses ih => exact (ih _).trans (size_retain address store)

namespace Value

/-- How a copy stands for its original in another store: it fits where that fits, and it leads to a cell of its own
if that does. -/
structure Stands (old later : Store) (value copy : Value) : Prop where
  fits : ∀ form, Fits old.fixed form value → Fits later.fixed form copy
  shelf : ∀ address, value = .handle .rc address → old.Shelf address →
    ∃ new, copy = .handle .rc new ∧ later.Shelf new

variable {old store later middle : Store} {held base : List Value} {depth : Nat} {value copy : Value}
  {values copies parts : List Value} {form : Form}

theorem Stands.of_follows (stands : Stands old middle value copy) (follows : later.Follows middle)
    (sound : middle.Sound) (laterSound : later.Sound) (wasLive : middle.Live copy) (isLive : later.Live copy) :
    Stands old later value copy where
  fits form fits := by
    apply (stands.fits form fits).imp
    exact fun address member ordered =>
      follows.fixed_eq sound laterSound (wasLive address member) (isLive address member) ordered
  shelf address isHandle isShelf := by
    obtain ⟨new, rfl, newShelf⟩ := stands.shelf address isHandle isShelf
    exact ⟨new, rfl, newShelf.of_follows follows (isLive new (by simp [addresses]))⟩

/-- A part that is shared stands for itself. -/
theorem Stands.refl (old : Store) (value : Value) : Stands old old value value :=
  ⟨fun _ fits => fits, fun address isHandle isShelf => ⟨address, isHandle, isShelf⟩⟩

/-- Copies of a value leave the store tended, and stand for it. -/
def CopiedNeatly (base : List Value) (old : Store) (depth : Nat) (value : Value) : Prop :=
  ∀ held store copy later, Offshoot old (fun _ => True) (addressesOfAll held) store → Tended (held ++ base) store →
    copyTo depth value store = (.ok copy, later) →
      Tended (copy :: (held ++ base)) later ∧ Stands old later value copy

theorem exists_entry_of_copyTo {key content : Value}
    (made : copyTo depth (.node .entry [key, content]) store = (.ok copy, later)) :
    ∃ newKey newContent, copy = .node .entry [newKey, newContent] := by
  obtain ⟨_, copies, middle, inTurn, assembled⟩ := (copyTo_node_eq_ok_iff (by simp [Tree.Owning])).mp made
  obtain ⟨newKey, newContent, rfl⟩ := List.length_eq_two.mp inTurn.length_eq
  cases assembled
  exact ⟨newKey, newContent, rfl⟩

theorem exists_cell_of_copyTo {isHeld : Bool} {content : Value}
    (made : copyTo depth (.node (.refCell isHeld) [content]) store = (.ok copy, later)) :
    ∃ newHeld newContent, copy = .node (.refCell newHeld) [newContent] := by
  obtain ⟨_, copies, middle, inTurn, assembled⟩ := (copyTo_node_eq_ok_iff (by simp [Tree.Owning])).mp made
  obtain ⟨newContent, rfl⟩ := List.length_eq_one_iff.mp inTurn.length_eq
  cases assembled
  exact ⟨isHeld, newContent, rfl⟩

/-- What a copy is found by fits wherever that fits which the original is found by. -/
theorem fits_copyTo (sound : old.Sound) (enough : depth ≤ old.depth) (live : old.Live value)
    {handles : List Address} (offshoot : Offshoot old (fun _ => True) handles store)
    (made : copyTo depth value store = (.ok copy, later)) (fits : Fits old.fixed form value) :
    Fits later.fixed form copy := by
  cases form with
  | hashSet | priorityQueue =>
      have ordered : (old.fixedKey value).isOrdered := fits
      rw [← (key_copyTo sound enough live offshoot made).2] at ordered
      exact ordered
  | hashMap =>
      obtain ⟨key, content, rfl, ordered⟩ := fits
      obtain ⟨newKey, newContent, rfl⟩ := exists_entry_of_copyTo made
      have sameKey : Key.ofValue false later.fixed newKey = Key.ofValue false old.fixed key :=
        soughtKey_copyTo sound false enough live offshoot made
      exact ⟨newKey, newContent, rfl, sameKey.symm ▸ ordered⟩
  | treeMap =>
      obtain ⟨key, content, rfl⟩ := fits
      exact exists_entry_of_copyTo made
  | _ => exact trivial

section Copies

variable (oldTended : Tended base old)
include oldTended

/-- What is shared is neat where the store has grown, and stands for itself. -/
theorem stands_of_shared (neat : old.Neat value) (live : old.Live value)
    (offshoot : Offshoot old (fun _ => True) (addressesOfAll held) store) (tended : Tended (held ++ base) store) :
    Tended (value :: (held ++ base)) (store.retainAll value.addresses) ∧
      Stands old (store.retainAll value.addresses) value value := by
  have sound := oldTended.exact.sound
  have grown := (offshoot.retainAll live).growth
  have exact : Exact (addressesOfAll (value :: (held ++ base))) (store.retainAll value.addresses) := by
    have counts := oldTended.exact.growth grown
    rwa [List.append_assoc, ← addressesOfAll_append] at counts
  have follows := follows_retainAll value.addresses store
  have isLive : (store.retainAll value.addresses).Live value :=
    exact.live fun address member => List.mem_append_left _ member
  constructor
  · apply tended.follow_same follows (Nat.le_of_eq (size_retainAll _ _)) exact
    refine List.forall_mem_cons.mpr ⟨.inr ?_, fun _ member => .inl member⟩
    exact neat.of_follows grown.follows sound exact.sound live isLive
  · exact (Stands.refl old value).of_follows grown.follows sound exact.sound live isLive

theorem treat_tended {treatment : Treatment} {copying : Copying Value} (neat : old.Neat value) (live : old.Live value)
    (offshoot : Offshoot old (fun _ => True) (addressesOfAll held) store) (tended : Tended (held ++ base) store)
    (copied : ∀ copy later, copying store = (.ok copy, later) →
      Tended (copy :: (held ++ base)) later ∧ later.Follows store ∧ Stands old later value copy)
    (made : treat copying value treatment store = (.ok copy, later)) :
    Tended (copy :: (held ++ base)) later ∧ later.Follows store ∧
      (treatment ≠ .reset → Stands old later value copy) := by
  cases treatment with
  | deep =>
      obtain ⟨laterTended, follows, stands⟩ := copied copy later made
      exact ⟨laterTended, follows, fun _ => stands⟩
  | share =>
      cases made
      obtain ⟨laterTended, stands⟩ := stands_of_shared oldTended neat live offshoot tended
      exact ⟨laterTended, follows_retainAll _ _, fun _ => stands⟩
  | reset =>
      cases made
      have given : Tended ([] ++ (held ++ base)) store := tended
      exact ⟨given.remake (neat_childless fun _ => not_false) (.refl _), .refl store, fun impossible => absurd rfl impossible⟩

/-- What is new where a value has been copied is tended, as long as it was so before. -/
theorem copyTo_tended (copied : CopiedNeatly base old depth value) (live : old.Live value)
    (offshoot : Offshoot old (fun _ => True) (addressesOfAll held) store) (tended : Tended (held ++ base) store)
    (made : copyTo depth value store = (.ok copy, later)) :
    Tended (copy :: (held ++ base)) later ∧ later.Follows store ∧ Stands old later value copy := by
  obtain ⟨laterTended, stands⟩ := copied held store copy later offshoot tended made
  exact ⟨laterTended, (copyTo_grown oldTended.exact.sound live offshoot made).follows, stands⟩

theorem copyParts_tended {treatment : Nat → Treatment} (neat : ∀ value ∈ values, old.Neat value)
    (live : ∀ value ∈ values, old.Live value) (each : ∀ value ∈ values, CopiedNeatly base old depth value)
    {first : Nat} (offshoot : Offshoot old (fun _ => True) (addressesOfAll held) store)
    (tended : Tended (held ++ base) store)
    (made : copyParts (copyAllocation depth) treatment first values store = (.ok copies, later)) :
    Tended (copies ++ (held ++ base)) later ∧ later.Follows store ∧ copies.length = values.length ∧
      ∀ step copy, copies[step]? = some copy → ∃ value, values[step]? = some value ∧
        (treatment (first + step) ≠ .reset → Stands old later value copy) := by
  induction values generalizing first held store copies later with
  | nil =>
      cases made
      exact ⟨tended, .refl store, rfl, by simp⟩
  | cons value values ih =>
      obtain ⟨neatFirst, neatOther⟩ := List.forall_mem_cons.mp neat
      obtain ⟨liveFirst, liveOther⟩ := List.forall_mem_cons.mp live
      obtain ⟨eachFirst, eachOther⟩ := List.forall_mem_cons.mp each
      obtain ⟨copy, middle, others, treated, othersMade, rfl⟩ := copyParts_cons_eq_ok_iff.mp made
      have grown : ∀ copy later, copyTo depth value store = (.ok copy, later) →
          Grown old store (addressesOfAll held) copy later :=
        fun copy later => copyTo_grown oldTended.exact.sound liveFirst offshoot
      have middleOffshoot : Offshoot old (fun _ => True) (addressesOfAll (copy :: held)) middle :=
        (treat_offshoot trivial liveFirst offshoot (fun copy later copied =>
          ⟨(grown copy later (Copying.behind_eq_ok_iff.mp copied)).offshoot,
            (grown copy later (Copying.behind_eq_ok_iff.mp copied)).isNew⟩) treated).1
      obtain ⟨middleTended, middleFollows, stands⟩ := treat_tended oldTended neatFirst liveFirst offshoot tended
        (fun copy later copied =>
          copyTo_tended oldTended eachFirst liveFirst offshoot tended (Copying.behind_eq_ok_iff.mp copied)) treated
      have given : Tended ((copy :: held) ++ base) middle := middleTended
      obtain ⟨laterTended, follows, asMany, othersStand⟩ :=
        ih neatOther liveOther eachOther middleOffshoot given othersMade
      refine ⟨laterTended.of_perm List.perm_middle, follows.trans middleFollows, congrArg (· + 1) asMany, ?_⟩
      intro step part found
      cases step with
      | zero =>
          cases found
          refine ⟨value, rfl, fun treated => ?_⟩
          -- The others are copied after the first, which stands for its original as long as it is there.
          apply (stands treated).of_follows follows middleTended.exact.sound laterTended.exact.sound
          · exact middleTended.live (by simp)
          · exact laterTended.live (by simp)
      | succ step =>
          obtain ⟨original, there, standsOther⟩ := othersStand step part found
          refine ⟨original, there, fun treated => standsOther ?_⟩
          rwa [Nat.add_assoc, Nat.add_comm 1 step]

omit oldTended in
/-- What is put together of copies is neat: each stands for a part of what is copied. -/
theorem neat_of_stands (neat : old.Neat (.node form parts)) (copiesNeat : ∀ copy ∈ copies, middle.Neat copy)
    (asMany : copies.length = parts.length)
    (stands : ∀ step copy, copies[step]? = some copy → ∃ value, parts[step]? = some value ∧
      (form.treatment step ≠ .reset → Stands old middle value copy)) :
    middle.Neat (.node form.copied (middle.gather form.copied copies).kept) := by
  have shelves : ∀ step, form.copied.Shelved step →
      ∃ address, copies[step]? = some (.handle .rc address) ∧ middle.Shelf address := by
    intro step shelvedCopy
    have isShelved := Form.shelved_copied.mp shelvedCopy
    obtain ⟨address, here, isShelf⟩ := neat.exists_shelf isShelved
    have inside : step < copies.length := asMany ▸ (List.getElem?_eq_some_iff.mp here).1
    have found : copies[step]? = some copies[step] := List.getElem?_eq_getElem inside
    obtain ⟨value, there, stand⟩ := stands step copies[step] found
    obtain rfl := Option.some.inj (there.symm.trans here)
    obtain ⟨new, isNew, newShelf⟩ := (stand (Form.not_reset_of_shelved isShelved)).shelf address rfl isShelf
    exact ⟨new, found.trans (congrArg some isNew), newShelf⟩
  by_cases unshelved : ∀ step, ¬ form.Shelved step
  · apply neat_gather fun step => mt Form.shelved_copied.mp (unshelved step)
    intro copy member
    obtain ⟨step, found⟩ := List.mem_iff_getElem?.mp member
    obtain ⟨value, there, stand⟩ := stands step copy found
    have treated : form.treatment step ≠ .reset := by
      cases form with
      | strategies => exact absurd trivial (unshelved 0)
      | _ => simp [Form.treatment]
    exact ⟨copiesNeat copy member,
      Form.fits_copied ((stand treated).fits form (neat.tidy.fits value (List.mem_of_getElem? there)))⟩
  · -- Structs with cells of their own keep their parts where they are.
    cases form with
    | strategies | library =>
        exact .node (tidy_of_shown (by simp [Form.HidesOrder, Form.copied]) (by exact fun _ _ => trivial)) shelves
          copiesNeat
    | _ => exact absurd (fun _ => not_false) unshelved

/-- Copies of allocations up to some depth are neat, and cells of structs are copied to such. -/
def CopiesNeatly (base : List Value) (old : Store) (depth : Nat) : Prop :=
  ∀ sharing address, old.Live (.handle sharing address) → CopiedNeatly base old depth (.handle sharing address)

theorem copiedNeatly_of_handles (enough : depth ≤ old.depth) (handles : CopiesNeatly base old depth)
    (neat : old.Neat value) (live : old.Live value) : CopiedNeatly base old depth value := by
  have sound := oldTended.exact.sound
  induction value using Value.induct with
  | atom content =>
      intro held store copy later offshoot tended made
      cases made
      have given : Tended ([] ++ (held ++ base)) store := tended
      exact ⟨given.remake (.atom content) (.refl _), fun form => fits_copyTo sound enough live offshoot rfl, by simp⟩
  | static label text =>
      intro held store copy later offshoot tended made
      cases made
      have given : Tended ([] ++ (held ++ base)) store := tended
      exact ⟨given.remake (.static label text) (.refl _), fun form => fits_copyTo sound enough live offshoot rfl, by simp⟩
  | handle sharing address => exact handles sharing address live
  | node form parts ih =>
      intro held store copy later offshoot tended made
      have fits : ∀ other, Fits old.fixed other (.node form parts) → Fits later.fixed other copy :=
        fun _ => fits_copyTo sound enough live offshoot made
      have liveParts : ∀ part ∈ parts, old.Live part := live_of_part live
      have free : form ≠ .refCell true := by
        rintro rfl
        rw [copyTo, copyWith] at made
        cases made
      rw [copyTo, copyWith] at made
      · obtain ⟨copies, middle, copied, assembled⟩ := Copying.bind_eq_ok_iff.mp made
        obtain ⟨middleTended, _, asMany, stands⟩ := copyParts_tended oldTended neat.inside liveParts
          (fun part member => ih part member (neat.inside part member) (liveParts part member)) offshoot tended copied
        simp only [Nat.zero_add] at stands
        have copiesNeat : ∀ copy ∈ copies, middle.Neat copy := fun copy member =>
          middleTended.each copy (List.mem_append_left _ member)
        have gathered := middleTended.assemble_of_neat (neat_of_stands neat copiesNeat asMany stands)
        cases assembled
        exact ⟨gathered, fits, by simp⟩
      · exact free

theorem copiesNeatly (enough : depth ≤ old.depth) : CopiesNeatly base old depth := by
  have sound := oldTended.exact.sound
  induction depth with
  | zero =>
      intro sharing address live held store copy later offshoot tended made
      obtain ⟨new, followed, _⟩ := copyTo_handle_eq_ok_iff.mp made
      cases followed
  | succ depth ih =>
      intro sharing address live held store copy later offshoot tended made
      have fits : ∀ form, Fits old.fixed form (.handle sharing address) → Fits later.fixed form copy :=
        fun _ => fits_copyTo sound enough live offshoot made
      have here := live address (by simp [addresses])
      have bound := lt_size_of_isSome here
      obtain ⟨contents, found⟩ := exists_contents here
      obtain ⟨new, followed, rfl⟩ := copyTo_handle_eq_ok_iff.mp made
      obtain ⟨copies, middle, inTurn, rfl, rfl⟩ := copyAllocation_eq_ok_iff.mp followed
      rw [offshoot.growth.former_contents bound, found, Option.getD_some] at inTurn
      have liveParts : ∀ part ∈ contents, old.Live part := fun part member => sound.live_of_contents found member
      have handles := ih (Nat.le_of_succ_le enough)
      have copied : copyParts (copyAllocation depth) (fun _ => .deep) 0 contents store = (.ok copies, middle) :=
        copyParts_deep_eq_ok_iff.mpr inTurn
      obtain ⟨middleTended, _, _⟩ := copyParts_tended oldTended (oldTended.stored address contents found) liveParts
        (fun part member => copiedNeatly_of_handles oldTended (Nat.le_of_succ_le enough) handles
          (oldTended.stored address contents found part member) (liveParts part member))
        offshoot tended copied
      refine ⟨middleTended.allocate sharing, fits, ?_⟩
      rintro other isHandle ⟨isHeld, content, shelf⟩
      cases isHandle
      obtain rfl : [.node (.refCell isHeld) [content]] = contents := by simpa [shelf] using found
      cases inTurn with
      | cons cellMade rest =>
          cases rest
          obtain ⟨newHeld, newContent, rfl⟩ := exists_cell_of_copyTo cellMade
          exact ⟨_, rfl, newHeld, newContent, by simp [contents?, get?_allocate]⟩

/-- Copies of what is neat are neat. -/
theorem copiedNeatly (enough : depth ≤ old.depth) (neat : old.Neat value) (live : old.Live value) :
    CopiedNeatly base old depth value :=
  copiedNeatly_of_handles oldTended enough (copiesNeatly oldTended enough) neat live

end Copies

end Value

end Replica
