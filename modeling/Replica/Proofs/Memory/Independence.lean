import Replica.Proofs.Memory.Footprint
import Replica.Proofs.Memory.Reachable

/-!
Independence of copies. A copy shares nothing with what was there before, and so no write through the
one is seen through the other.
-/

namespace Replica

open Store

namespace Memory

theorem Sound.lt_size {memory : Memory} (sound : memory.Sound) {name : String} {value : Value}
    (found : memory.lookup name = some value) {address : Address} (member : address ∈ value.addresses) :
    address < memory.store.slots.size :=
  lt_size_of_isSome (sound.live found address member)

theorem Sound.former_lt_size {memory : Memory} (sound : memory.Sound) {name : String} {address : Address}
    (member : address ∈ (memory.lookup name).elim [] Value.addresses) :
    address < memory.store.slots.size := by
  cases found : memory.lookup name with
  | none => simp [found] at member
  | some value =>
      rw [found] at member
      exact sound.lt_size found member

theorem lookup_assign (name : String) (value : Value) (memory : Memory) (other : String) :
    (memory.assign name value).lookup other = if other = name then some value else memory.lookup other :=
  lookup_insert name value memory.bindings other

/-- The memory when a copy has been made and put into a variable. -/
def withCopy (name : String) (copy : Value) (later : Store) (memory : Memory) : Memory :=
  ({ memory with store := later } : Memory).assign name copy

theorem copy_eq_withCopy {memory : Memory} {name source : String} {value copy : Value} {later : Store}
    (found : memory.lookup source = some value) (made : value.copy.run memory.store = (.ok copy, later)) :
    memory.copy name source none = (none, memory.withCopy name copy later) := by
  rw [copy_eq found, made]
  rfl

section Copies

variable {memory : Memory} {value copy : Value} {later : Store} (sound : memory.Sound)
  (acyclic : memory.store.Acyclic) (live : memory.store.Live value)
  (owning : (memory.store.unfold value).Everywhere fun form _ => Tree.Owning form)
  (made : value.copy.run memory.store = (.ok copy, later))
include sound acyclic live owning made

theorem new_of_pointsTo {address other : Address} (isNew : memory.store.slots.size ≤ address)
    (points : later.PointsTo address other) : memory.store.slots.size ≤ other := by
  obtain ⟨tree, growth⟩ := Value.tree_of_copy_ok sound.store acyclic live made
  obtain ⟨contents, held, inside⟩ := points
  have present : (later.get? address).isSome := isSome_of_contents held
  have member := (mem_identities_copy_iff sound.store acyclic live made owning address).mpr
    (growth.mem_newIn_iff.mpr ⟨isNew, present⟩)
  have further := (growth.acyclic sound.store acyclic).mem_identities_of_pointsTo member
    ⟨contents, held, inside⟩
  exact size_le_of_mem_copy sound.store acyclic live made owning further

theorem sided_copy (name : String) :
    Sided (· = name) (memory.store.slots.size ≤ ·) (memory.withCopy name copy later)
      (memory.withCopy name copy later) := by
  obtain ⟨tree, growth⟩ := Value.tree_of_copy_ok sound.store acyclic live made
  refine ⟨⟨Nat.le_refl _, ?_, ?_, fun _ _ => rfl⟩, ?_, fun _ _ => rfl⟩
  · intro address beyond
    have size : (memory.withCopy name copy later).store.slots.size = later.slots.size :=
      size_release _ later
    rw [size] at beyond
    exact Nat.le_trans growth.size_le beyond
  · intro address contents isNew held part member other inside
    have before : later.contents? address = some contents := release_contents held
    exact new_of_pointsTo sound acyclic live owning made isNew
      ⟨contents, before, Value.mem_addressesOfAll.mpr ⟨part, member, inside⟩⟩
  · rintro other rfl held found address member
    rw [withCopy, lookup_assign, if_pos rfl] at found
    cases found
    exact size_le_of_mem_copy sound.store acyclic live made owning (mem_identities_of_mem_addresses member)

/-- What neither is new nor comes after the copy. -/
theorem sided_others (name : String) :
    Sided (· ≠ name) (fun address => ¬ address ∈ (later.unfold copy).identities)
      { memory.withCopy name copy later with store := later } (memory.withCopy name copy later) := by
  obtain ⟨tree, growth⟩ := Value.tree_of_copy_ok sound.store acyclic live made
  have reaches := mem_identities_copy_iff sound.store acyclic live made owning
  have former : ∀ address, address < memory.store.slots.size →
      ¬ address ∈ (later.unfold copy).identities := by
    intro address bound member
    exact Nat.not_lt.mpr (size_le_of_mem_copy sound.store acyclic live made owning member) bound
  have unchanged : Confined (fun address => ¬ address ∈ (later.unfold copy).identities) later later := by
    refine ⟨Nat.le_refl _, ?_, ?_, fun _ _ => rfl⟩
    · intro address beyond member
      have present := (growth.mem_newIn_iff.mp ((reaches address).mp member)).2
      exact Nat.not_lt.mpr beyond (lt_size_of_isSome present)
    · intro address contents absent held part member other inside
      have present : (later.get? address).isSome := isSome_of_contents held
      have bound : address < memory.store.slots.size := by
        apply Nat.lt_of_not_le
        exact fun isNew => absent ((reaches address).mpr (growth.mem_newIn_iff.mpr ⟨isNew, present⟩))
      exact former other (growth.lt_size_of_pointsTo sound.store bound
        ⟨contents, held, Value.mem_addressesOfAll.mpr ⟨part, member, inside⟩⟩)
  refine ⟨unchanged.release fun address member => former address (sound.former_lt_size member), ?_, ?_⟩
  · intro other isOther held found address member
    rw [withCopy, lookup_assign, if_neg isOther] at found
    exact former address (sound.lt_size found member)
  · exact fun _ _ => rfl

end Copies

theorem unfold_withCopy {memory : Memory} {value copy : Value} {later : Store} (sound : memory.Sound)
    (acyclic : memory.store.Acyclic) (live : memory.store.Live value)
    (made : value.copy.run memory.store = (.ok copy, later)) {name other : String} {held : Value}
    (isOther : other ≠ name) (found : memory.lookup other = some held) :
    (memory.withCopy name copy later).lookup other = some held ∧
      (memory.withCopy name copy later).store.unfold held = memory.store.unfold held := by
  obtain ⟨tree, growth⟩ := Value.tree_of_copy_ok sound.store acyclic live made
  have grown : Backed (copy.addresses ++ []) { memory with store := later } := Backed.growth sound growth
  have copiedSound : (memory.withCopy name copy later).Sound := grown.assign name
  have foundStill : (memory.withCopy name copy later).lookup other = some held := by
    rw [withCopy, lookup_assign, if_neg isOther]
    exact found
  have released : (memory.withCopy name copy later).store.Follows later := follows_release _ later
  refine ⟨foundStill, ?_⟩
  rw [← growth.unfold_former sound.store acyclic (sound.live found)]
  apply released.unfold_eq (growth.acyclic sound.store acyclic) copiedSound.store.closed
    (growth.bounded sound.store) _ (copiedSound.live foundStill)
  exact fun address member => Nat.lt_of_lt_of_le (sound.lt_size found member) growth.size_le

/-- All that a copy reaches is new, and no write on one side changes what is on the other: neither do
writes through the copy change what any other variable holds, nor do writes through these change the
copy, as long as what is written refers only to variables of the side that is written through. -/
theorem copy_independent {memory : Memory} {value copy : Value} {later : Store} (sound : memory.Sound)
    (acyclic : memory.store.Acyclic) (live : memory.store.Live value)
    (owning : (memory.store.unfold value).Everywhere fun form _ => Tree.Owning form)
    (made : value.copy.run memory.store = (.ok copy, later)) (name : String) :
    let copied := memory.withCopy name copy later
    (∀ address ∈ (later.unfold copy).identities, memory.store.get? address = none) ∧
      (∀ steps : List Step, (∀ step ∈ steps, step.Writes (· = name)) →
        ∀ other held, other ≠ name → memory.lookup other = some held →
          (copied.after steps).lookup other = some held ∧
            (copied.after steps).store.unfold held = memory.store.unfold held) ∧
      (∀ steps : List Step, (∀ step ∈ steps, step.Writes (· ≠ name)) →
        (copied.after steps).lookup name = some copy ∧
          (copied.after steps).store.unfold copy = later.unfold copy) := by
  obtain ⟨tree, growth⟩ := Value.tree_of_copy_ok sound.store acyclic live made
  have laterAcyclic := growth.acyclic sound.store acyclic
  refine ⟨?_, ?_, ?_⟩
  · intro address member
    exact get?_eq_none_of_size_le (size_le_of_mem_copy sound.store acyclic live made owning member)
  · -- The writes stay in what is new.
    intro steps writes other held isOther found
    have sided := (sided_copy sound acyclic live owning made name).after writes
    obtain ⟨foundStill, sameStill⟩ := unfold_withCopy sound acyclic live made isOther found
    refine ⟨(sided.others other isOther).trans foundStill, ?_⟩
    rw [← sameStill]
    apply sided.confined.unfold_eq (laterAcyclic.release _)
    · rintro address next old ⟨contents, present, inside⟩
      have points : later.PointsTo address next := ⟨contents, release_contents present, inside⟩
      exact Nat.not_le.mpr (growth.lt_size_of_pointsTo sound.store (Nat.lt_of_not_le old) points)
    · exact fun address member => Nat.not_le.mpr (sound.lt_size found member)
  · -- The writes stay in what the copy does not reach, be it new or not.
    intro steps writes
    have sided := (sided_others sound acyclic live owning made name).after writes
    have foundStill : (memory.withCopy name copy later).lookup name = some copy := by
      rw [withCopy, lookup_assign, if_pos rfl]
    refine ⟨(sided.others name (by simp)).trans foundStill, ?_⟩
    apply sided.confined.unfold_eq laterAcyclic
    · intro address next member points
      simp only [not_not] at member ⊢
      exact laterAcyclic.mem_identities_of_pointsTo member points
    · intro address member
      simp only [not_not]
      exact mem_identities_of_mem_addresses member

/-- A variable with a lock around a shared cell. -/
def vault : Memory :=
  ⟨[("v", .locked true)], .nested false⟩

theorem sound_vault : vault.Sound := by
  refine ⟨List.pairwise_singleton _ _, ?_, (sound_nested false).counted⟩
  intro address
  have handles : [] ++ handlesOf vault.bindings ++ vault.store.handlesFrom 0 = [1, 0, 0] := rfl
  rw [handles]
  match address with
  | 0 => exact Nat.le_refl 2
  | 1 => exact Nat.le_refl 1
  | address + 2 => exact Nat.zero_le _

theorem copy_independent_vault :
    vault.Sound ∧ vault.store.Acyclic ∧ vault.store.Live (.locked true) ∧
      ((vault.store.unfold (.locked true)).Everywhere fun form _ => Tree.Owning form) ∧
      ∃ copy later, (Value.locked true).copy.run vault.store = (.ok copy, later) ∧
        let write (name : String) : List Step :=
          [.act name [0, 0, 0, 0] .set (some (.list [.text "str", .text "new"])) none]
        (∀ address ∈ (later.unfold copy).identities, vault.store.get? address = none) ∧
        ((vault.withCopy "c" copy later).after (write "c")).store.unfold (.locked true) =
          vault.store.unfold (.locked true) ∧
        ((vault.withCopy "c" copy later).after (write "v")).store.unfold copy = later.unfold copy := by
  have acyclic := acyclic_nested false
  have live := Value.live_locked false true
  have memberwise := Tree.memberwise_locked true
  have owning := memberwise.imp fun _ _ memberwise => memberwise.orderly.owning
  obtain ⟨tree, made, _⟩ := Tree.exists_alike_copy memberwise
  obtain ⟨copy, later, copied, _⟩ := Value.copy_of_tree_ok sound_vault.store acyclic live made
  obtain ⟨new, others, own⟩ := copy_independent sound_vault acyclic live owning copied "c"
  refine ⟨sound_vault, acyclic, live, owning, copy, later, copied, new, ?_, ?_⟩
  · refine (others _ ?_ "v" _ (by decide) rfl).2
    simp [Step.Writes, Datum.names, Datum.referred, Datum.namesOfAll]
  · exact (own _ (by simp [Step.Writes, Datum.names, Datum.referred, Datum.namesOfAll])).2

/-- A variable that shares a cell, and one that has a cell of its own. -/
def lender : Memory :=
  ⟨[("a", .handle .rc 0), ("v", .node (.refCell false) [.text "x"])],
    ⟨#[some ⟨1, [.node (.refCell false) [.text "one"]]⟩], 0⟩⟩

theorem not_pointsTo_lender (address other : Address) : ¬ lender.store.PointsTo address other := by
  rintro ⟨contents, found, inside⟩
  cases address with
  | zero =>
      cases found
      simp [Value.addressesOfAll, Value.text, Value.addresses] at inside
  | succ address => simp [lender, contents?, get?] at found

theorem acyclic_lender : lender.store.Acyclic := by
  apply acyclic_of_rank id
  intro address other points
  exact (not_pointsTo_lender address other points).elim

theorem sound_lender : lender.Sound := by
  refine ⟨List.pairwise_pair.mpr (by decide +kernel), ?_, ?_⟩
  · intro address
    have handles : [] ++ handlesOf lender.bindings ++ lender.store.handlesFrom 0 = [0] := rfl
    rw [handles]
    match address with
    | 0 => exact Nat.le_refl 1
    | address + 1 => exact Nat.zero_le _
  · intro address allocation found
    cases address with
    | zero =>
        cases found
        exact Nat.one_pos
    | succ address => simp [lender, get?] at found

/-- What the memory becomes when a handle to the shared cell is put into a copy of the other one. -/
def lending (copied : Value) (count : Nat) (text : String) : Memory :=
  ⟨[("a", .handle .rc 0), ("c", .node (.refCell false) [copied]), ("v", .node (.refCell false) [.text "x"])],
    ⟨#[some ⟨count, [.node (.refCell false) [.text text]]⟩], 0⟩⟩

/-- Where the writes may refer to all variables, what is written through the copy may be another handle to
what a variable shares, and the next write behind that handle changes what the variable holds. -/
theorem copy_not_independent :
    ∃ (value held copy : Value) (later : Store) (steps : List Step),
      lender.Sound ∧ lender.store.Acyclic ∧ lender.lookup "v" = some value ∧
      ((lender.store.unfold value).Everywhere fun form _ => Tree.Owning form) ∧
      value.copy.run lender.store = (.ok copy, later) ∧
      (∀ step ∈ steps, ∃ path action new key, step = .act "c" path action new key) ∧
      lender.lookup "a" = some held ∧
      ((lender.withCopy "c" copy later).after steps).store.unfold held ≠
        (lender.withCopy "c" copy later).store.unfold held := by
  let value : Value := .node (.refCell false) [.text "x"]
  let lend : Step := .act "c" [0] .set (some (.list [.text "ref", .text "a"])) none
  let write : Step := .act "c" [0, 0, 0] .set (some (.list [.text "str", .text "two"])) none
  have made : value.copy.run lender.store = (.ok value, lender.store) :=
    congrArg (Prod.mk _) (release_nil lender.store)
  have copied : lender.withCopy "c" value lender.store = lending (.text "x") 1 "one" :=
    congrArg (Memory.mk _) (release_nil lender.store)
  have lent : (lending (.text "x") 1 "one").step lend = (none, lending (.handle .rc 0) 2 "one") :=
    congrArg (fun store => (none, Memory.mk _ store)) (release_nil _)
  have written : (lending (.handle .rc 0) 2 "one").step write = (none, lending (.handle .rc 0) 2 "two") :=
    congrArg (fun store => (none, Memory.mk _ store)) (release_nil _)
  have different : Tree.shared .rc 0 [.node (.refCell false) [.atom (.text "two")]] ≠
      Tree.shared .rc 0 [.node (.refCell false) [.atom (.text "one")]] := by
    simp
  refine ⟨value, .handle .rc 0, value, lender.store, [lend, write], sound_lender, acyclic_lender, rfl, ?_,
    made, ?_, rfl, ?_⟩
  · simp [value, Value.text, Tree.Everywhere, Tree.EverywhereInAll, Tree.Owning]
  · simp [lend, write]
  · rw [copied, after, List.foldl_cons, lent, List.foldl_cons, written, List.foldl_nil]
    exact different

end Memory

end Replica
