import Replica.Proofs.Memory.KeyKeeping
import Replica.Proofs.Memory.Stopping
import Mathlib.Combinatorics.Pigeonhole

/-!
Copies that come to an end, whatever circles there are elsewhere in the store. An allocation that is copied through
some number of handles is copied through as many as the store has slots.
-/

namespace Replica

namespace Value

variable {follow other : Address → Option Halt} {treatment : Nat → Treatment} {value : Value} {values : List Value}
  {step : Nat}

theorem haltParts_eq_none_of_imp (each : ∀ value ∈ values, haltWith follow value = none → haltWith other value = none)
    (ends : haltParts follow treatment step values = none) : haltParts other treatment step values = none := by
  induction values generalizing step with
  | nil => rfl
  | cons value values ih =>
      obtain ⟨eachFirst, eachOther⟩ := List.forall_mem_cons.mp each
      rw [haltParts, Option.or_eq_none_iff] at ends ⊢
      refine ⟨?_, ih eachOther ends.2⟩
      have first := ends.1
      split
      · rename_i isDeep
        rw [if_pos isDeep, Option.map_eq_none_iff] at first
        rw [eachFirst first, Option.map_none]
      · rfl

theorem haltWith_eq_none_of_imp
    (followed : ∀ address ∈ value.addresses, follow address = none → other address = none)
    (ends : haltWith follow value = none) : haltWith other value = none := by
  induction value using Value.induct with
  | atom content => rfl
  | static label text => rfl
  | handle sharing address => exact followed address (by simp [addresses]) ends
  | node form parts ih =>
      rw [haltWith] at ends ⊢
      split
      · rename_i isHeld
        rw [if_pos isHeld] at ends
        cases ends
      · rename_i free
        rw [if_neg free] at ends
        apply haltParts_eq_none_of_imp _ ends
        exact fun part member => ih part member fun address inside =>
          followed address (mem_addressesOfAll.mpr ⟨part, member, inside⟩)

theorem haltParts_eq_none (each : ∀ value ∈ values, haltWith follow value = none) :
    haltParts follow treatment step values = none := by
  induction values generalizing step with
  | nil => rfl
  | cons value values ih =>
      obtain ⟨first, others⟩ := List.forall_mem_cons.mp each
      rw [haltParts, first, ih others]
      split <;> rfl

/-- Where everything is copied deep, each part has to be copied. -/
theorem haltParts_deep_eq_none_iff :
    haltParts follow (fun _ => .deep) step values = none ↔ ∀ value ∈ values, haltWith follow value = none := by
  constructor
  · intro ends
    induction values generalizing step with
    | nil => simp
    | cons value values ih =>
        rw [haltParts, if_pos rfl, Option.or_eq_none_iff, Option.map_eq_none_iff] at ends
        exact List.forall_mem_cons.mpr ⟨ends.1, ih ends.2⟩
  · exact haltParts_eq_none

end Value

namespace Store

open Value

variable {store : Store} {value : Value} {address : Address} {depth deeper : Nat}

theorem haltAt_eq_none_of_le (less : depth ≤ deeper) (ends : store.haltAt depth address = none) :
    store.haltAt deeper address = none :=
  (haltAt_of_le less (by simp [ends])).trans ends

theorem haltWith_eq_none_of_le (less : depth ≤ deeper) (ends : haltWith (store.haltAt depth) value = none) :
    haltWith (store.haltAt deeper) value = none :=
  haltWith_eq_none_of_imp (fun _ _ => haltAt_eq_none_of_le less) ends

/-- Whether an allocation is copied through just so many handles, and through no fewer. -/
def EndsAt (store : Store) (depth : Nat) (address : Address) : Prop :=
  store.haltAt (depth + 1) address = none ∧ store.haltAt depth address ≠ none

theorem EndsAt.exists_below (ends : store.EndsAt (depth + 1) address) : ∃ other, store.EndsAt depth other := by
  obtain ⟨copied, stopped⟩ := ends
  by_contra never
  apply stopped
  rw [haltAt] at copied ⊢
  apply haltParts_eq_none_of_imp _ copied
  intro value _ valueEnds
  apply haltWith_eq_none_of_imp _ valueEnds
  exact fun other _ here => by_contra fun further => never ⟨other, here, further⟩

theorem EndsAt.exists_of_le (ends : store.EndsAt deeper address) (less : depth ≤ deeper) :
    ∃ other, store.EndsAt depth other := by
  induction deeper, less using Nat.le_induction generalizing address with
  | base => exact ⟨address, ends⟩
  | succ deeper _ ih =>
      obtain ⟨other, below⟩ := ends.exists_below
      exact ih below

theorem EndsAt.lt_size (ends : store.EndsAt (depth + 1) address) : address < store.slots.size := by
  by_contra beyond
  apply ends.2
  rw [haltAt, contents?, get?_eq_none_of_size_le (Nat.le_of_not_lt beyond)]
  rfl

theorem EndsAt.unique (ends : store.EndsAt depth address) (again : store.EndsAt deeper address) : depth = deeper := by
  have notBefore {first second : Nat} (one : store.EndsAt first address) (two : store.EndsAt second address) :
      second ≤ first := by
    by_contra less
    exact two.2 (haltAt_eq_none_of_le (Nat.lt_of_not_le less) one.1)
  exact Nat.le_antisymm (notBefore again ends) (notBefore ends again)

/-- There are no more depths to end at than there are slots. -/
theorem EndsAt.le_size (ends : store.EndsAt depth address) : depth ≤ store.slots.size := by
  by_contra more
  have below : ∀ fewer, ∃ other, fewer ≤ store.slots.size → store.EndsAt (fewer + 1) other := by
    intro fewer
    by_cases inside : fewer ≤ store.slots.size
    · obtain ⟨other, here⟩ := ends.exists_of_le (by omega : fewer + 1 ≤ depth)
      exact ⟨other, fun _ => here⟩
    · exact ⟨0, fun less => absurd less inside⟩
  choose place endsAt using below
  have mapsTo : ∀ fewer ∈ Finset.range (store.slots.size + 1), place fewer ∈ Finset.range store.slots.size := by
    intro fewer member
    rw [Finset.mem_range] at member ⊢
    exact (endsAt fewer (Nat.le_of_lt_succ member)).lt_size
  obtain ⟨first, firstIn, second, secondIn, different, same⟩ :=
    Finset.exists_ne_map_eq_of_card_lt_of_maps_to (by simp) mapsTo
  rw [Finset.mem_range] at firstIn secondIn
  have firstEnds := endsAt first (Nat.le_of_lt_succ firstIn)
  have secondEnds := endsAt second (Nat.le_of_lt_succ secondIn)
  rw [same] at firstEnds
  exact different (Nat.succ_inj.mp (firstEnds.unique secondEnds))

theorem haltAt_depth (ends : store.haltAt depth address = none) : store.haltAt store.depth address = none := by
  induction depth with
  | zero => cases ends
  | succ depth ih =>
      by_cases sooner : store.haltAt depth address = none
      · exact ih sooner
      · have here : store.EndsAt depth address := ⟨ends, sooner⟩
        exact haltAt_eq_none_of_le (Nat.succ_le_succ here.le_size) ends

/-- A value whose copy does not stop. -/
def Ends (store : Store) (value : Value) : Prop :=
  haltWith (store.haltAt store.depth) value = none

theorem ends_of_haltWith (ends : haltWith (store.haltAt depth) value = none) : store.Ends value :=
  haltWith_eq_none_of_imp (fun _ _ => haltAt_depth) ends

theorem ends_node {form : Form} {parts : List Value} (free : form ≠ .refCell true)
    (each : ∀ part ∈ parts, store.Ends part) : store.Ends (.node form parts) := by
  rw [Ends, haltWith, if_neg free]
  exact haltParts_eq_none each

theorem ends_handle {sharing : Sharing} {contents : List Value} (found : store.contents? address = some contents)
    (each : ∀ content ∈ contents, store.Ends content) : store.Ends (.handle sharing address) := by
  have further : haltWith (store.haltAt (store.depth + 1)) (.handle sharing address) = none := by
    rw [haltWith, haltAt, found]
    exact haltParts_eq_none each
  exact ends_of_haltWith further

/-- If every part is copied deep, a copy that does not stop comes to all handles. -/
theorem haltWith_handle_of_leadsTo {follow : Address → Option Halt} (leads : store.LeadsTo Tree.Owning value)
    (ends : haltWith follow value = none) : ∀ address ∈ value.addresses, ∀ sharing,
      haltWith follow (.handle sharing address) = none ∧ store.LeadsTo Tree.Owning (.handle sharing address) := by
  induction value using Value.induct with
  | atom content => simp [addresses]
  | static label text => simp [addresses]
  | handle sharing address =>
      simp only [addresses, List.mem_singleton, forall_eq]
      refine fun sharing => ⟨ends, fun trail form parts reached => ?_⟩
      cases trail with
      | nil => cases reached
      | cons step trail => exact leads (step :: trail) form parts reached
  | node form parts ih =>
      rw [haltWith] at ends
      split at ends
      · cases ends
      · rw [leads.self.treatment, haltParts_deep_eq_none_iff] at ends
        intro address inside
        obtain ⟨part, member, within⟩ := mem_addressesOfAll.mp inside
        exact ih part member (leads.of_part member) (ends part member) address within

/-- What keyed collections are searched for: numbers, texts and other atoms, and what is made of them with tuples,
vectors, boxes, counted handles and cells that nobody changes. -/
inductive KeyLike (store : Store) : Value → Prop
  | atom (content : Atom) : KeyLike store (.atom content)
  | counted {address : Address} {contents : List Value} (found : store.contents? address = some contents)
      (each : ∀ content ∈ contents, KeyLike store content) : KeyLike store (.handle .rc address)
  | node {form : Form} {parts : List Value}
      (composite : form = .tuple ∨ form = .vector ∨ form = .box ∨ form = .refCell false)
      (each : ∀ part ∈ parts, KeyLike store part) : KeyLike store (.node form parts)

theorem KeyLike.ends (keyLike : store.KeyLike value) : store.Ends value := by
  induction keyLike with
  | atom content => rfl
  | counted found _ ih => exact ends_handle found ih
  | node composite _ ih =>
      apply ends_node _ ih
      rintro rfl
      simp at composite

end Store

namespace Copying

variable {α : Type} {copying : Copying α} {store : Store}

theorem exists_ok_of_halt (ends : halt (copying store) = none) :
    ∃ result later, copying store = (.ok result, later) := by
  match made : copying store with
  | (.ok result, later) => exact ⟨result, later, rfl⟩
  | (.error halt, later) =>
      rw [made] at ends
      cases ends

end Copying

namespace Value

open Store Copying

variable {old store : Store} {held : List Address} {value : Value} (sound : old.Sound)
include sound

/-- A copy that does not stop in a store does not stop where that store has grown by other copies. -/
theorem exists_copyTo_of_ends {depth : Nat} (ends : old.Ends value) (enough : old.depth ≤ depth)
    (live : old.Live value) (growth : Growth old held store) :
    ∃ copy later, copyTo depth value store = (.ok copy, later) := by
  apply exists_ok_of_halt
  rw [copyTo, halt_copyWith sound live (fun _ _ _ => halt_copyAllocation sound) growth]
  exact haltWith_eq_none_of_le enough ends

theorem exists_copy_of_ends (ends : old.Ends value) (live : old.Live value) :
    ∃ copy later, value.copy.run old = (.ok copy, later) :=
  exists_copyTo_of_ends sound ends (Nat.le_refl _) live (.refl old)

theorem haltWith_of_copyTo {depth : Nat} {copy : Value} {later : Store} (live : old.Live value) (growth : Growth old held store)
    (made : copyTo depth value store = (.ok copy, later)) : haltWith (old.haltAt depth) value = none := by
  have stops : halt (copyTo depth value store) = haltWith (old.haltAt depth) value :=
    halt_copyWith sound live (fun _ _ _ => halt_copyAllocation sound) growth
  rw [← stops, made]
  rfl

end Value

end Replica
