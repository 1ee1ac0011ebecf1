import Replica.Proofs.Memory.Orderliness
import Replica.Proofs.Memory.Renewal

/-!
Structs with a shared handle that are copied over and over, each copy being made from the one before it. All copies
hold the same shared handle, and nobody looks behind it. What each of them owns it owns alone.
-/

namespace Replica

namespace Value

open Store

/-- A struct with a shared handle, a counter, a cache and a handle of its own. -/
def strategies (counter : UInt32) (shared : Address) (cache : Value) (owned : Address) : Value :=
  .node (.strategies counter) [.handle .rc shared, cache, .handle .rc owned]

variable {store later : Store} {counter : UInt32} {shared owned : Address} {cache copy : Value}
  {follow other : Address → Copying Address} {tree : Tree Unit}

/-- Of the allocations that a struct leads to, its copy comes to its own only. -/
theorem copyWith_strategies_congr (same : follow owned = other owned) :
    copyWith follow (strategies counter shared cache owned) =
      copyWith other (strategies counter shared cache owned) := by
  simp [strategies, copyWith, copyParts, Form.treatment, treat, same]

theorem ends_strategies (ends : store.Ends (.handle .rc owned)) :
    store.Ends (strategies counter shared cache owned) := by
  simpa [Ends, strategies, haltWith, haltParts, Form.treatment] using ends

/-- The shared handle is counted once more, and then the struct's own allocation is copied. -/
theorem copy_strategies_cases (made : (strategies counter shared cache owned).copy.run store = (.ok copy, later)) :
    ∃ own, copyTo store.depth (.handle .rc owned) (store.retain shared) = (.ok (.handle .rc own), later) ∧
      copy = strategies (counter + 1) shared (.node .vector []) own := by
  have run : copyWith (copyAllocation store.depth) (strategies counter shared cache owned) store = (.ok copy, later) :=
    made
  rw [strategies, copyWith] at run
  · obtain ⟨copies, middle, copied, assembled⟩ := Copying.bind_eq_ok_iff.mp run
    obtain ⟨first, _, _, firstMade, afterFirst, rfl⟩ := copyParts_cons_eq_ok_iff.mp copied
    obtain ⟨second, _, _, secondMade, afterSecond, rfl⟩ := copyParts_cons_eq_ok_iff.mp afterFirst
    obtain ⟨third, _, _, thirdMade, afterThird, rfl⟩ := copyParts_cons_eq_ok_iff.mp afterSecond
    cases firstMade
    cases secondMade
    cases afterThird
    have ownMade : copyTo store.depth (.handle .rc owned) (store.retain shared) = (.ok third, middle) :=
      Copying.behind_eq_ok_iff.mp thirdMade
    obtain ⟨own, followed, rfl⟩ := copyTo_handle_eq_ok_iff.mp ownMade
    have same : (copy, later) = (strategies (counter + 1) shared (.node .vector []) own, middle.release []) := by
      cases assembled
      rfl
    rw [release_nil, Prod.mk.injEq] at same
    obtain ⟨rfl, rfl⟩ := same
    exact ⟨own, ownMade, rfl⟩
  · simp

theorem live_owned (live : store.Live (strategies counter shared cache owned)) : store.Live (.handle .rc owned) :=
  live_of_part live _ (by simp)

theorem live_shared (live : store.Live (strategies counter shared cache owned)) : store.Live (.handle .rc shared) :=
  live_of_part live _ (by simp)

/-- There is a copy of a struct if nobody changes a cell that its own handle leads to. -/
theorem exists_copy_of_strategies (sound : store.Sound) (live : store.Live (strategies counter shared cache owned))
    (shows : store.Shows (.handle .rc owned) tree) (kept : tree.Everywhere Tree.Kept) :
    ∃ own later, (strategies counter shared cache owned).copy.run store =
        (.ok (strategies (counter + 1) shared (.node .vector []) own), later) ∧
      Offshoot store (fun form => ¬ form.Shares) [own, shared] later ∧ store.slots.size ≤ own ∧
      later.Shows (.handle .rc own) tree.unpoisoned := by
  have ends : store.Ends (.handle .rc owned) := shows.ends (kept.imp fun _ _ here => here.free)
  have leads : store.LeadsTo (fun form => ¬ form.Shares) (.handle .rc owned) := by
    refine shows.leadsTo (kept.imp ?_)
    rintro form trees here ⟨step, isShared⟩
    rw [here.orderly.owning.treatment] at isShared
    cases isShared
  have retained (kind : Form → Prop) : Offshoot store kind [shared] (store.retain shared) :=
    (Offshoot.refl store kind).retainAll (live_shared live)
  obtain ⟨copy, later, made⟩ := exists_copy_of_ends sound (ends_strategies ends) live
  obtain ⟨own, ownMade, rfl⟩ := copy_strategies_cases made
  obtain ⟨_, followed, same⟩ := copyTo_handle_eq_ok_iff.mp ownMade
  cases same
  have stable : ∀ form : Form, ¬ form.Shares → ¬ form.copied.Shares := fun _ => Form.not_shares_copied
  have sprouts : Sprouts store (fun form => ¬ form.Shares) (copyAllocation store.depth) :=
    copyAllocation_sprouts sound stable Form.not_shares_vector store.depth
  obtain ⟨offshoot, isNew⟩ := sprouts .rc owned [shared] (store.retain shared) own later
    (live_owned live owned (by simp [addresses])) leads (retained _) followed
  exact ⟨own, later, made, offshoot, isNew,
    shows_unpoisoned_of_copyTo sound (Nat.le_refl _) (live_owned live) (retained _) ownMade shows kept⟩

end Value

namespace Memory

open Store Value

/-- What memories have gained when copies have been made for the given variables, each with one handle more to the
shared allocation. Nothing else has changed, and what is new leads to nothing that was there. -/
structure Gains (shared : Address) (names : List String) (memory later : Memory) : Prop where
  size_le : memory.store.slots.size ≤ later.store.slots.size
  lookup : ∀ name, name ∉ names → later.lookup name = memory.lookup name
  former : ∀ address < memory.store.slots.size,
    later.store.get? address = (memory.store.get? address).map fun allocation =>
      { allocation with count := allocation.count + if address = shared then names.length else 0 }
  apart : ∀ address other, memory.store.slots.size ≤ address → later.store.PointsTo address other →
    memory.store.slots.size ≤ other

namespace Gains

variable {shared own : Address} {names others : List String} {name : String} {memory middle later : Memory}
  {store : Store} {address : Address}

theorem refl (shared : Address) (memory : Memory) : Gains shared [] memory memory where
  size_le := Nat.le_refl _
  lookup _ _ := rfl
  former address _ := by simp
  apart address other beyond points := absurd points.lt_size (Nat.not_lt.mpr beyond)

theorem former_contents (gains : Gains shared names memory later) (bound : address < memory.store.slots.size) :
    later.store.contents? address = memory.store.contents? address := by
  simp [contents?, gains.former address bound, Function.comp_def]

theorem count_eq (gains : Gains shared names memory later) (live : (memory.store.get? shared).isSome) :
    later.store.count shared = memory.store.count shared + names.length := by
  obtain ⟨allocation, found⟩ := Option.isSome_iff_exists.mp live
  have grown := gains.former shared (lt_size_of_isSome live)
  rw [found, Option.map_some, if_pos rfl] at grown
  rw [count_of_get? found, count_of_get? grown]

theorem follows (gains : Gains shared names memory later) : later.store.Follows memory.store where
  size_le := gains.size_le
  contents address contents bound found := by rwa [gains.former_contents bound] at found

theorem trans (first : Gains shared names memory middle) (second : Gains shared others middle later) :
    Gains shared (names ++ others) memory later where
  size_le := Nat.le_trans first.size_le second.size_le
  lookup name isOther := by
    rw [List.mem_append, not_or] at isOther
    rw [second.lookup name isOther.2, first.lookup name isOther.1]
  former address bound := by
    rw [second.former address (Nat.lt_of_lt_of_le bound first.size_le), first.former address bound, Option.map_map]
    congr 1
    funext allocation
    simp only [Function.comp_apply, Allocation.mk.injEq, and_true, List.length_append]
    split <;> omega
  apart address other beyond points := by
    by_cases bound : address < middle.store.slots.size
    · obtain ⟨contents, found, inside⟩ := points
      rw [second.former_contents bound] at found
      exact first.apart address other beyond ⟨contents, found, inside⟩
    · exact Nat.le_trans first.size_le (second.apart address other (Nat.le_of_not_lt bound) points)

theorem of_offshoot (offshoot : Offshoot memory.store (fun form => ¬ form.Shares) [own, shared] store)
    (isNew : memory.store.slots.size ≤ own) (unused : memory.lookup name = none) (copy : Value) :
    Gains shared [name] memory (memory.withCopy name copy store) := by
  have sameStore := store_withCopy unused copy store
  have beyond : ∀ address allocation, memory.store.slots.size ≤ address → store.get? address = some allocation →
      ∀ other ∈ addressesOfAll allocation.contents, memory.store.slots.size ≤ other := by
    intro address allocation isBeyond found other inside
    obtain ⟨part, member, here⟩ := mem_addressesOfAll.mp inside
    have found : store.contents? address = some allocation.contents := by rw [contents?, found, Option.map_some]
    exact (offshoot.apart address allocation.contents isBeyond found part member).size_le_of_mem here
  constructor
  · rw [sameStore]
    exact offshoot.growth.size_le
  · intro other isOther
    rw [withCopy, lookup_assign, if_neg (by simpa using isOther)]
    rfl
  · intro address bound
    -- Of the handles that are new, only the shared one leads to what was there.
    have new : (store.handlesFrom memory.store.slots.size).count address = 0 := by
      rw [List.count_eq_zero]
      intro member
      obtain ⟨holder, allocation, isBeyond, found, inside⟩ := mem_handlesFrom.mp member
      have := beyond holder allocation isBeyond found address inside
      omega
    have isOther : own ≠ address := Nat.ne_of_gt (Nat.lt_of_lt_of_le bound isNew)
    rw [sameStore, offshoot.growth.former address bound, List.count_append, new, List.count_cons_of_ne isOther,
      Nat.add_zero, List.count_singleton]
    by_cases isShared : address = shared
    · rw [if_pos isShared, if_pos (beq_iff_eq.mpr isShared.symm)]
      rfl
    · rw [if_neg isShared, if_neg (by simpa using Ne.symm isShared)]
  · rw [sameStore]
    rintro address other isBeyond ⟨contents, found, inside⟩
    obtain ⟨allocation, here, rfl⟩ := contents?_eq_some_iff.mp found
    exact beyond address allocation isBeyond here other inside

/-- What was there leads to nothing that is new. -/
theorem reached_lt (gains : Gains shared names memory later) (sound : memory.store.Sound)
    (bound : own < memory.store.slots.size) (path : Relation.ReflTransGen later.store.PointsTo own address) :
    address < memory.store.slots.size := by
  induction path with
  | refl => exact bound
  | tail _ points ih =>
      obtain ⟨contents, found, inside⟩ := points
      rw [gains.former_contents ih] at found
      exact lt_size_of_isSome (sound.closed _ _ ⟨contents, found, inside⟩)

theorem size_le_of_reached (gains : Gains shared names memory later) (isNew : memory.store.slots.size ≤ own)
    (path : Relation.ReflTransGen later.store.PointsTo own address) : memory.store.slots.size ≤ address := by
  induction path with
  | refl => exact isNew
  | tail _ points ih => exact gains.apart _ _ ih points

end Gains

/-- The copy of a struct: it has the same shared handle, the next number, an empty cache, and an allocation of its own
that is new and shows a tree. -/
structure Generation (shared : Address) (tree : Tree Unit) (counter : UInt32) (memory : Memory) (source name : String)
    (own : Address) (later : Memory) : Prop where
  made : memory.step (.copy name source none) = (none, later)
  found : later.lookup name = some (.strategies (counter + 1) shared (.node .vector []) own)
  isNew : memory.store.slots.size ≤ own
  shows : later.store.Shows (.handle .rc own) tree
  gains : Gains shared [name] memory later

/-- Copies of a struct, each made from the one before it. -/
inductive Generations (shared : Address) (tree : Tree Unit) :
    UInt32 → Memory → String → List String → List Address → Memory → Prop
  | nil {counter : UInt32} {memory : Memory} {source : String} :
      Generations shared tree counter memory source [] [] memory
  | cons {counter : UInt32} {memory middle later : Memory} {source name : String} {own : Address}
      {names : List String} {owns : List Address}
      (first : Generation shared tree counter memory source name own middle)
      (rest : Generations shared tree (counter + 1) middle name names owns later) :
      Generations shared tree counter memory source (name :: names) (own :: owns) later

variable {shared owned own : Address} {tree : Tree Unit} {counter : UInt32} {memory later : Memory}
  {source name : String} {names : List String} {owns : List Address} {cache : Value}

theorem Generation.tended (generation : Generation shared tree counter memory source name own later)
    (tended : Tended [] memory) : Tended [] later := by
  have stepped := Tended.invariant.step tended (.copy name source none)
  rwa [generation.made] at stepped

theorem exists_generation (tended : Tended [] memory)
    (found : memory.lookup source = some (.strategies counter shared cache owned))
    (shows : memory.store.Shows (.handle .rc owned) tree) (kept : tree.Everywhere Tree.Kept)
    (unused : memory.lookup name = none) :
    ∃ own later, Generation shared tree.unpoisoned counter memory source name own later := by
  obtain ⟨own, store, made, offshoot, isNew, shown⟩ :=
    exists_copy_of_strategies tended.exact.store.sound (tended.exact.live found) shows kept
  let copy := strategies (counter + 1) shared (.node .vector []) own
  refine ⟨own, memory.withCopy name copy store, copy_eq_withCopy found made, ?_, isNew, ?_,
    .of_offshoot offshoot isNew unused copy⟩
  · rw [withCopy, lookup_assign, if_pos rfl]
  · rwa [store_withCopy unused]

namespace Generations

theorem tended (generations : Generations shared tree counter memory source names owns later)
    (tended : Tended [] memory) : Tended [] later := by
  induction generations with
  | nil => exact tended
  | cons first _ ih => exact ih (first.tended tended)

theorem length_eq (generations : Generations shared tree counter memory source names owns later) :
    owns.length = names.length := by
  induction generations with
  | nil => rfl
  | cons _ _ ih => rw [List.length_cons, ih, List.length_cons]

theorem gains (generations : Generations shared tree counter memory source names owns later) :
    Gains shared names memory later := by
  induction generations with
  | nil => exact .refl shared _
  | cons first _ ih => exact first.gains.trans ih

theorem isNew (generations : Generations shared tree counter memory source names owns later) :
    ∀ own ∈ owns, memory.store.slots.size ≤ own := by
  induction generations with
  | nil => simp
  | cons first _ ih =>
      refine List.forall_mem_cons.mpr ⟨first.isNew, fun own member => ?_⟩
      exact Nat.le_trans first.gains.size_le (ih own member)

/-- All copies are kept, with numbers that are counted on and begin anew behind the greatest. -/
theorem found (generations : Generations shared tree counter memory source names owns later) (distinct : names.Nodup)
    {step : Nat} (isName : names[step]? = some name) (isOwn : owns[step]? = some own) :
    ∃ number : UInt32, number.toNat = (counter.toNat + (step + 1)) % 2 ^ 32 ∧
      later.lookup name = some (.strategies number shared (.node .vector []) own) := by
  induction generations generalizing step with
  | nil => cases isName
  | @cons counter memory middle later source head first names owns begun rest ih =>
      obtain ⟨isOther, distinctRest⟩ := List.nodup_cons.mp distinct
      cases step with
      | zero =>
          cases isName
          cases isOwn
          refine ⟨counter + 1, UInt32.toNat_add counter 1, ?_⟩
          rw [rest.gains.lookup name isOther]
          exact begun.found
      | succ step =>
          obtain ⟨number, counted, here⟩ := ih distinctRest isName isOwn
          refine ⟨number, ?_, here⟩
          rw [counted, UInt32.toNat_add, Nat.mod_add_mod]
          have one : (1 : UInt32).toNat = 1 := rfl
          rw [one, Nat.add_assoc, Nat.add_comm 1 (step + 1)]

theorem shows (generations : Generations shared tree counter memory source names owns later) (distinct : names.Nodup)
    (tended : Tended [] memory) : ∀ own ∈ owns, later.store.Shows (.handle .rc own) tree := by
  induction generations with
  | nil => simp
  | @cons counter memory middle later source head first names owns begun rest ih =>
      obtain ⟨isOther, distinctRest⟩ := List.nodup_cons.mp distinct
      have laterTended := rest.tended (begun.tended tended)
      refine List.forall_mem_cons.mpr ⟨?_, ih distinctRest (begun.tended tended)⟩
      have here : later.lookup head = some (.strategies (counter + 1) shared (.node .vector []) first) := by
        rw [rest.gains.lookup head isOther]
        exact begun.found
      exact begun.shows.of_follows rest.gains.follows laterTended.exact.store.sound
        (live_owned (laterTended.exact.live here))

/-- What one of the structs owns, no other leads to. -/
theorem pairwise (generations : Generations shared tree counter memory source names owns later)
    (tended : Tended [] memory) (bound : owned < memory.store.slots.size) :
    (owned :: owns).Pairwise later.store.Separate := by
  induction generations generalizing owned with
  | nil => exact List.pairwise_singleton _ _
  | @cons counter memory middle later source head first names owns begun rest ih =>
      have whole := Generations.cons begun rest
      have live := live_owned ((begun.tended tended).exact.live begun.found)
      have inside : first < middle.store.slots.size := lt_size_of_isSome (live first (by simp [addresses]))
      refine List.pairwise_cons.mpr ⟨?_, ih (begun.tended tended) inside⟩
      intro other member address fromOwned fromOther
      have former := whole.gains.reached_lt tended.exact.store.sound bound fromOwned
      have new := whole.gains.size_le_of_reached (whole.isNew other member) fromOther
      exact Nat.not_le_of_lt former new

end Generations

/-- If what the first of the structs owns can be copied, so can what its copies own. -/
theorem exists_generations (tended : Tended [] memory)
    (found : memory.lookup source = some (.strategies counter shared cache owned))
    (shows : memory.store.Shows (.handle .rc owned) tree) (kept : tree.Everywhere Tree.Kept) (distinct : names.Nodup)
    (unused : ∀ name ∈ names, memory.lookup name = none) :
    ∃ owns later, Generations shared tree.unpoisoned counter memory source names owns later := by
  induction names generalizing memory source counter cache owned tree with
  | nil => exact ⟨[], memory, .nil⟩
  | cons name names ih =>
      obtain ⟨isOther, distinctRest⟩ := List.nodup_cons.mp distinct
      obtain ⟨unusedFirst, unusedRest⟩ := List.forall_mem_cons.mp unused
      obtain ⟨own, middle, first⟩ := exists_generation tended found shows kept unusedFirst
      have stillUnused : ∀ other ∈ names, middle.lookup other = none := by
        intro other member
        rw [first.gains.lookup other (by rintro isName; simp_all)]
        exact unusedRest other member
      obtain ⟨owns, later, rest⟩ :=
        ih (first.tended tended) first.found first.shows (Tree.kept_unpoisoned kept) distinctRest stillUnused
      rw [Tree.unpoisoned_unpoisoned] at rest
      exact ⟨own :: owns, later, .cons first rest⟩

/-- A copy under a hold is made as in the memory where the cell is marked. -/
theorem copy_under_hold {hold : Option Hold} {cell : Option (String × Trail)} {value copy : Value} {store : Store}
    (marks : memory.exclusive hold = .ok cell) (found : (memory.mark true cell).lookup source = some value)
    (made : value.copy.run (memory.mark true cell).store = (.ok copy, store)) :
    (memory.copy name source hold).1 = none := by
  have present := memory.isSome_lookup_mark true cell source
  rw [found] at present
  obtain ⟨former, here⟩ := Option.isSome_iff_exists.mp present.symm
  simp only [Memory.copy, here, marks, found, Option.getD_some, made]

/-- Whatever the steps are, and whichever cell somebody changes, a struct with a shared handle may be copied any number
of times, each copy being made from the one before it, if its own handle leads to no such cell, to no circle, to no
struct that is not copied field by field, and to trees in order only. No copy looks behind the shared handle, and all
hold it: it is counted once more for each. The numbers are counted on, and begin anew behind the greatest. What each
of the copies owns shows the same, and leads to nothing that the original or another copy leads to, so that what is
written there changes none of the others. -/
theorem generations_own_apart {steps : List Step} {cell : Option (String × Trail)}
    (led : memory = (Memory.empty.after steps).mark true cell)
    (found : memory.lookup source = some (.strategies counter shared cache owned))
    (straight : ∀ address, Relation.ReflTransGen memory.store.PointsTo owned address →
      ¬ Relation.TransGen memory.store.PointsTo address address)
    (plain : ∀ trail form parts, memory.store.follow? trail (.handle .rc owned) = some (.node form parts) →
      form ≠ .refCell true ∧ ¬ form.Custom ∧ form.Ordered (parts.map memory.store.partKey))
    (distinct : names.Nodup) (unused : ∀ name ∈ names, memory.lookup name = none) :
    (∀ follow other : Address → Copying Address, follow owned = other owned →
      copyWith follow (.strategies counter shared cache owned) =
        copyWith other (.strategies counter shared cache owned)) ∧
    (∀ name hold, (Memory.empty.after steps).exclusive hold = .ok cell →
      ((Memory.empty.after steps).copy name source hold).1 = none) ∧
    ∃ tree owns later, Generations shared (Tree.unpoisoned tree) counter memory source names owns later ∧
      owns.length = names.length ∧ Gains shared names memory later ∧
      later.store.count shared = memory.store.count shared + names.length ∧
      (∀ (step : Nat) (name : String) (own : Address), names[step]? = some name → owns[step]? = some own →
        ∃ number : UInt32, number.toNat = (counter.toNat + (step + 1)) % 2 ^ 32 ∧
          later.lookup name = some (.strategies number shared (.node .vector []) own)) ∧
      memory.store.Shows (.handle .rc owned) tree ∧ later.store.Shows (.handle .rc owned) tree ∧
      (∀ own ∈ owns, later.store.Shows (.handle .rc own) tree.unpoisoned) ∧
      (owned :: owns).Nodup ∧
      (owned :: owns).Pairwise later.store.Separate ∧
      ∀ one ∈ owned :: owns, ∀ other ∈ owned :: owns, one ≠ other →
        ∀ address, Relation.ReflTransGen later.store.PointsTo one address →
          ∀ seen, later.store.Shows (.handle .rc other) seen →
            ∀ contents, (later.store.setContents address contents).Shows (.handle .rc other) seen := by
  have tended : Tended [] memory := by
    rw [led]
    exact (Tended.empty.after steps).mark true cell
  have sound := tended.exact.store.sound
  have live := tended.exact.live found
  have liveOwned := live_owned live
  have bound : owned < memory.store.slots.size := lt_size_of_isSome (liveOwned owned (by simp [addresses]))
  obtain ⟨tree, shows⟩ := exists_shows sound liveOwned (by simpa [addresses] using straight)
  have tidy : memory.store.Throughout (Tidy memory.store.fixed) (.handle .rc owned) := by
    intro trail form parts reached
    have neat : memory.store.Neat (.handle .rc owned) := .handle .rc owned
    exact (tended.stored.follow? reached neat).tidy
  have kept := shows.kept plain tidy
  -- All copies exist, and the rest is read off them.
  obtain ⟨owns, later, generations⟩ := exists_generations tended found shows kept distinct unused
  have apart := generations.pairwise tended bound
  have isOld : source ∉ names := fun member => by simp [unused source member] at found
  have stillFound := (generations.gains.lookup source isOld).trans found
  have laterTended := generations.tended tended
  refine ⟨fun _ _ => copyWith_strategies_congr, ?_, tree, owns, later, generations, generations.length_eq,
    generations.gains, ?_, fun _ _ _ => generations.found distinct, shows, ?_, generations.shows distinct tended,
    apart.imp Separate.ne, apart, fun _ isOne _ isOther different _ reached _ shown =>
      (apart.forall isOne isOther different).shows_setContents reached shown⟩
  · intro name hold marks
    obtain ⟨own, store, made, _⟩ := exists_copy_of_strategies sound live shows kept
    rw [led] at found made
    exact copy_under_hold marks found made
  · exact generations.gains.count_eq (live_shared live shared (by simp [addresses]))
  · exact shows.of_follows generations.gains.follows laterTended.exact.store.sound
      (live_owned (laterTended.exact.live stillFound))

/-! A struct whose number is the greatest, while somebody changes a cell that its shared handle leads to. -/

def leasing : List Step :=
  [.assign "cell" (.list [.text "rc", .list [.text "ref_cell", .list [.text "str", .text "common"]]]),
    .assign "first" (.list [.text "strategies", .list [.text "ref", .text "cell"], .text "4294967295",
      .list [.text "vec", .list [.text "bool", .text "true"]], .list [.text "str", .text "own"]])]

def lease (held : Bool) : Memory :=
  ⟨[("cell", .handle .rc 0), ("first", .strategies 4294967295 1 (.node .vector [.atom (.flag true)]) 2)],
    ⟨#[some ⟨2, [.node (.refCell held) [.text "common"]]⟩, some ⟨1, [.node (.refCell false) [.handle .rc 0]]⟩,
      some ⟨1, [.node (.refCell false) [.text "own"]]⟩], 0⟩⟩

theorem after_leasing : Memory.empty.after leasing = lease false := by
  let cell := (Store.empty.release []).allocate [.node (.refCell false) [.text "common"]]
  let shared := ((cell.2.release []).retain cell.1).allocate [.node (.refCell false) [.handle .rc cell.1]]
  let own := (shared.2.release []).allocate [.node (.refCell false) [.text "own"]]
  have run : Memory.empty.after leasing =
      ⟨[("cell", .handle .rc cell.1),
        ("first", .strategies 4294967295 shared.1 (.node .vector [.atom (.flag true)]) own.1)], own.2.release []⟩ := by
    rfl
  rw [run]
  simp only [cell, shared, own, release_nil]
  rfl

theorem mark_lease : lease true = (Memory.empty.after leasing).mark true (some ("cell", [0])) := by
  rw [after_leasing]
  rfl

theorem pointsTo_lease {address other : Address} (points : (lease true).store.PointsTo address other) :
    address = 1 ∧ other = 0 := by
  obtain ⟨contents, found, inside⟩ := points
  match address with
  | 0 | 2 =>
      cases found
      cases inside
  | 1 =>
      cases found
      exact ⟨rfl, List.mem_singleton.mp inside⟩
  | address + 3 => cases found

theorem plain_lease (trail : Trail) (form : Form) (parts : List Value)
    (reached : (lease true).store.follow? trail (.handle .rc 2) = some (.node form parts)) :
    form ≠ .refCell true ∧ ¬ form.Custom ∧ form.Ordered (parts.map (lease true).store.partKey) := by
  match trail with
  | [] => cases reached
  | [0] =>
      cases reached
      exact ⟨by simp, not_false, trivial⟩
  | [0, 0] => cases reached
  | 0 :: 0 :: _ :: _ => cases reached
  | 0 :: (_ + 1) :: _ => cases reached
  | (_ + 1) :: _ => cases reached

theorem generations_own_apart_lease :
    lease true = (Memory.empty.after leasing).mark true (some ("cell", [0])) ∧
      (lease true).lookup "first" = some (.strategies 4294967295 1 (.node .vector [.atom (.flag true)]) 2) ∧
      (∀ address, Relation.ReflTransGen (lease true).store.PointsTo 2 address →
        ¬ Relation.TransGen (lease true).store.PointsTo address address) ∧
      (∀ trail form parts, (lease true).store.follow? trail (.handle .rc 2) = some (.node form parts) →
        form ≠ .refCell true ∧ ¬ form.Custom ∧ form.Ordered (parts.map (lease true).store.partKey)) ∧
      ["second", "third"].Nodup ∧ (∀ name ∈ ["second", "third"], (lease true).lookup name = none) ∧
      (Memory.empty.after leasing).exclusive (some ⟨"cell", [0], true⟩) = .ok (some ("cell", [0])) ∧
      ((Memory.empty.after leasing).copy "second" "first" (some ⟨"cell", [0], true⟩)).1 = none ∧
      ∃ tree one two later,
        Generations 1 (Tree.unpoisoned tree) 4294967295 (lease true) "first" ["second", "third"] [one, two] later ∧
          later.store.count 1 = 3 ∧ later.lookup "second" = some (.strategies 0 1 (.node .vector []) one) ∧
          later.lookup "third" = some (.strategies 1 1 (.node .vector []) two) := by
  have found :
      (lease true).lookup "first" = some (.strategies 4294967295 1 (.node .vector [.atom (.flag true)]) 2) := by
    rfl
  have straight : ∀ address, Relation.ReflTransGen (lease true).store.PointsTo 2 address →
      ¬ Relation.TransGen (lease true).store.PointsTo address address := by
    have acyclic : (lease true).store.Acyclic := by
      apply acyclic_of_rank id
      intro address other points
      obtain ⟨rfl, rfl⟩ := pointsTo_lease points
      exact Nat.zero_lt_one
    exact fun address _ => acyclic address
  have distinct : ["second", "third"].Nodup := by decide
  have unused : ∀ name ∈ ["second", "third"], (lease true).lookup name = none :=
    List.forall_mem_cons.mpr ⟨rfl, List.forall_mem_singleton.mpr rfl⟩
  have marks : (Memory.empty.after leasing).exclusive (some ⟨"cell", [0], true⟩) = .ok (some ("cell", [0])) := by
    rw [after_leasing]
    rfl
  obtain ⟨_, held, tree, owns, later, generations, lengths, _, counted, each, _⟩ :=
    generations_own_apart mark_lease found straight plain_lease distinct unused
  obtain ⟨one, two, rfl⟩ := List.length_eq_two.mp lengths
  obtain ⟨number, isZero, second⟩ := each 0 "second" one rfl rfl
  obtain ⟨next, isOne, third⟩ := each 1 "third" two rfl rfl
  obtain rfl : number = 0 := UInt32.toNat_inj.mp isZero
  obtain rfl : next = 1 := UInt32.toNat_inj.mp isOne
  exact ⟨mark_lease, found, straight, plain_lease, distinct, unused, marks, held "second" _ marks, tree, one, two,
    later, generations, counted, second, third⟩

end Memory

end Replica
