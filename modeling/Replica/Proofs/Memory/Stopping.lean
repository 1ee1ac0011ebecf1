import Replica.Proofs.Memory.Lockstep
import Replica.Proofs.Memory.Poison

/-!
Why a copy stops, as far as the store tells before the copy is made. Since an allocation stops a copy for one
reason only, the trail to a held cell that has stopped one enters no allocation twice, with circles or without.
-/

namespace Replica

namespace Value

mutual

/-- Why there is no copy of a value, if there is none. `follow` says so of allocations. -/
def haltWith (follow : Address → Option Halt) : Value → Option Halt
  | .atom _ => none
  | .static _ _ => none
  | .handle _ address => follow address
  | .node form parts =>
    if form = .refCell true then some (.held []) else haltParts follow form.treatment 0 parts

def haltParts (follow : Address → Option Halt) (treatment : Nat → Treatment) (step : Nat) :
    List Value → Option Halt
  | [] => none
  | value :: values =>
    (if treatment step = .deep then (haltWith follow value).map (Halt.behind step) else none).or
      (haltParts follow treatment (step + 1) values)

end

end Value

namespace Store

open Value

/-- Why there is no copy of an allocation through at the most `depth` handles. -/
def haltAt (store : Store) : (depth : Nat) → Address → Option Halt
  | 0, _ => some .depth
  | depth + 1, address =>
    haltParts (store.haltAt depth) (fun _ => .deep) 0 ((store.contents? address).getD [])

variable {store old : Store} {follow other : Address → Option Halt} {treatment : Nat → Treatment}
  {value : Value} {values : List Value} {address : Address} {trail rest : Trail} {step depth : Nat} {halt : Halt}

theorem exists_of_haltParts (halted : haltParts follow treatment step values = some halt) :
    ∃ place value inner, values[place]? = some value ∧ treatment (step + place) = .deep ∧
      haltWith follow value = some inner ∧ halt = inner.behind (step + place) := by
  induction values generalizing step with
  | nil => cases halted
  | cons value values ih =>
      rw [haltParts, Option.or_eq_some_iff] at halted
      rcases halted with here | ⟨_, further⟩
      · split at here
        · rename_i isDeep
          obtain ⟨inner, stopped, rfl⟩ := Option.map_eq_some_iff.mp here
          exact ⟨0, value, inner, rfl, isDeep, stopped, rfl⟩
        · cases here
      · obtain ⟨place, other, inner, found, isDeep, stopped, same⟩ := ih further
        rw [Nat.add_assoc, Nat.add_comm 1 place] at isDeep same
        exact ⟨place + 1, other, inner, found, isDeep, stopped, same⟩

theorem exists_of_haltParts_held (halted : haltParts follow treatment 0 values = some (.held trail)) :
    ∃ step behind value, trail = step :: behind ∧ values[step]? = some value ∧ treatment step = .deep ∧
      haltWith follow value = some (.held behind) := by
  obtain ⟨step, value, inner, found, isDeep, stopped, same⟩ := exists_of_haltParts halted
  rw [Nat.zero_add] at isDeep same
  cases inner with
  | depth => cases same
  | held behind =>
      cases same
      exact ⟨step, behind, value, rfl, found, isDeep, stopped⟩

theorem haltAt_held (halted : store.haltAt depth address = some (.held trail)) :
    ∃ fewer step behind contents value, depth = fewer + 1 ∧ trail = step :: behind ∧
      store.contents? address = some contents ∧ contents[step]? = some value ∧
      haltWith (store.haltAt fewer) value = some (.held behind) := by
  cases depth with
  | zero => cases halted
  | succ depth =>
      obtain ⟨step, behind, value, same, found, _, stopped⟩ := exists_of_haltParts_held halted
      cases held : store.contents? address with
      | none => simp [held] at found
      | some contents =>
          rw [held, Option.getD_some] at found
          exact ⟨depth, step, behind, contents, value, rfl, same, rfl, found, stopped⟩

theorem heldAt_of_haltWith
    (followed : ∀ sharing address trail, follow address = some (.held trail) →
      store.HeldAt trail (.handle sharing address))
    (halted : haltWith follow value = some (.held trail)) : store.HeldAt trail value := by
  induction value using Value.induct generalizing trail with
  | atom content => cases halted
  | static label text => cases halted
  | handle sharing address => exact followed sharing address trail halted
  | node form parts ih =>
      rw [haltWith] at halted
      split at halted
      · rename_i isHeld
        cases halted
        exact isHeld
      · obtain ⟨step, behind, part, rfl, found, isDeep, stopped⟩ := exists_of_haltParts_held halted
        exact ⟨isDeep, part, found, ih part (List.mem_of_getElem? found) stopped⟩

theorem heldAt_of_haltAt (sharing : Sharing) (halted : store.haltAt depth address = some (.held trail)) :
    store.HeldAt trail (.handle sharing address) := by
  induction depth generalizing sharing address trail with
  | zero => cases halted
  | succ depth ih =>
      obtain ⟨fewer, step, behind, contents, value, same, rfl, held, found, stopped⟩ := haltAt_held halted
      cases same
      exact ⟨contents, value, held, found, heldAt_of_haltWith (fun sharing _ _ => ih sharing) stopped⟩

theorem Enters.exists_haltAt (enters : store.Enters trail value address rest)
    (halted : haltWith (store.haltAt depth) value = some (.held trail)) :
    ∃ depth, store.haltAt depth address = some (.held rest) := by
  induction enters generalizing depth with
  | here => exact ⟨depth, halted⟩
  | part found _ ih =>
      rw [haltWith] at halted
      split at halted
      · cases halted
      · obtain ⟨step, behind, part, same, here, _, stopped⟩ := exists_of_haltParts_held halted
        cases same
        rw [found, Option.some.injEq] at here
        exact ih (here ▸ stopped)
  | content held found _ ih =>
      obtain ⟨fewer, step, behind, contents, value, rfl, same, present, here, stopped⟩ := haltAt_held halted
      cases same
      rw [held, Option.some.injEq] at present
      subst present
      rw [found, Option.some.injEq] at here
      exact ih (here ▸ stopped)

theorem haltParts_congr (each : ∀ value ∈ values, haltWith follow value ≠ some .depth →
      haltWith other value = haltWith follow value)
    (enough : haltParts follow treatment step values ≠ some .depth) :
    haltParts other treatment step values = haltParts follow treatment step values := by
  induction values generalizing step with
  | nil => rfl
  | cons value values ih =>
      obtain ⟨eachFirst, eachOther⟩ := List.forall_mem_cons.mp each
      rw [haltParts] at enough
      rw [haltParts, haltParts]
      by_cases isDeep : treatment step = .deep
      · rw [if_pos isDeep] at enough
        rw [if_pos isDeep, if_pos isDeep]
        cases stopped : haltWith follow value with
        | none =>
            rw [stopped] at enough
            rw [eachFirst (by simp [stopped]), stopped, ih eachOther enough]
        | some halt =>
            have isHeld : halt ≠ .depth := by
              rintro rfl
              rw [stopped] at enough
              exact enough rfl
            rw [eachFirst (by simp [stopped, isHeld]), stopped]
            rfl
      · rw [if_neg isDeep, Option.none_or] at enough
        rw [if_neg isDeep, if_neg isDeep, ih eachOther enough]

theorem haltWith_congr (followed : ∀ address, follow address ≠ some .depth → other address = follow address)
    (enough : haltWith follow value ≠ some .depth) : haltWith other value = haltWith follow value := by
  induction value using Value.induct with
  | atom content => rfl
  | static label text => rfl
  | handle sharing address => exact followed address enough
  | node form parts ih =>
      rw [haltWith] at enough
      rw [haltWith, haltWith]
      split
      · rfl
      · rename_i free
        rw [if_neg free] at enough
        exact haltParts_congr ih enough

/-- With more handles to follow, a copy does not stop for another reason. -/
theorem haltAt_of_le {deeper : Nat} (less : depth ≤ deeper) (enough : store.haltAt depth address ≠ some .depth) :
    store.haltAt deeper address = store.haltAt depth address := by
  induction depth generalizing deeper address with
  | zero => exact absurd rfl enough
  | succ depth ih =>
      obtain ⟨deeper, rfl⟩ := Nat.exists_eq_succ_of_ne_zero (Nat.ne_zero_of_lt less)
      rw [haltAt] at enough
      rw [haltAt, haltAt]
      apply haltParts_congr _ enough
      intro value _ valueEnough
      exact haltWith_congr (fun other otherEnough => ih (Nat.le_of_succ_le_succ less) otherEnough) valueEnough

theorem haltAt_unique {deeper : Nat} {other : Trail} (halted : store.haltAt depth address = some (.held trail))
    (again : store.haltAt deeper address = some (.held other)) : trail = other := by
  have first : store.haltAt (max depth deeper) address = some (.held trail) :=
    (haltAt_of_le (Nat.le_max_left _ _) (by simp [halted])).trans halted
  have second : store.haltAt (max depth deeper) address = some (.held other) :=
    (haltAt_of_le (Nat.le_max_right _ _) (by simp [again])).trans again
  rw [first] at second
  cases second
  rfl

theorem once_of_haltWith (halted : haltWith (store.haltAt depth) value = some (.held trail)) :
    store.Once trail value := by
  intro address rest other enters again
  obtain ⟨_, stopped⟩ := enters.exists_haltAt halted
  obtain ⟨_, stoppedAgain⟩ := again.exists_haltAt halted
  exact haltAt_unique stopped stoppedAgain

end Store

namespace Copying

variable {α β : Type} {copying : Copying α} {store : Store}

def halt : Except Halt α × Store → Option Halt
  | (.error halt, _) => some halt
  | (.ok _, _) => none

theorem halt_bind {rest : α → Copying β} {expected further : Option Halt} (first : halt (copying store) = expected)
    (each : ∀ result later, copying store = (.ok result, later) → halt (rest result later) = further) :
    halt ((copying >>= rest) store) = expected.or further := by
  rw [bind_apply]
  match made : copying store with
  | (.ok result, later) =>
      rw [made] at first
      subst first
      exact each result later made
  | (.error halt, later) =>
      rw [made] at first
      subst first
      rfl

theorem halt_bind_of_ok {rest : α → Copying β} (each : ∀ result later, halt (rest result later) = none) :
    halt ((copying >>= rest) store) = halt (copying store) := by
  rw [← Option.or_none (o := halt (copying store))]
  exact halt_bind rfl fun result later _ => each result later

theorem halt_behind (step : Nat) (copying : Copying α) (store : Store) :
    halt (behind step copying store) = (halt (copying store)).map (Halt.behind step) := by
  rw [behind]
  rcases copying store with ⟨_ | _, later⟩ <;> rfl

theorem halt_orRelease (addresses : List Address) (copying : Copying α) (store : Store) :
    halt (orRelease addresses copying store) = halt (copying store) := by
  rw [orRelease]
  rcases copying store with ⟨_ | _, later⟩ <;> rfl

end Copying

namespace Value

open Copying Store

variable {old store : Store} {held : List Address} {depth : Nat} (sound : old.Sound)
include sound

theorem halt_copyParts (treatment : Nat → Treatment) {values : List Value} (step : Nat)
    (each : ∀ value ∈ values, ∀ held store, Growth old held store →
      halt (copyWith (copyAllocation depth) value store) = haltWith (old.haltAt depth) value)
    (live : ∀ value ∈ values, old.Live value) (growth : Growth old held store) :
    halt (copyParts (copyAllocation depth) treatment step values store) =
      haltParts (old.haltAt depth) treatment step values := by
  induction values generalizing step held store with
  | nil => rfl
  | cons value values ih =>
      obtain ⟨eachFirst, eachOther⟩ := List.forall_mem_cons.mp each
      obtain ⟨liveFirst, liveOther⟩ := List.forall_mem_cons.mp live
      have copied := copyTo_inStep sound.lockstep depth liveFirst rfl ⟨rfl, growth⟩
      have treated := treat_inStep sound.lockstep (treatment step) liveFirst (fun _ => rfl) ⟨rfl, growth⟩
        (copied.behind step)
      rw [copyParts, haltParts]
      apply halt_bind
      · cases treatment step with
        | deep =>
            rw [treat, halt_behind, eachFirst held store growth]
            rfl
        | share => rfl
        | reset => rfl
      · intro copy later made
        have run : treat (Copying.behind step (copyTo depth value)) value (treatment step) store =
          (.ok copy, later) := made
        rw [run] at treated
        obtain ⟨_, _, _, grown⟩ := treated
        rw [halt_bind_of_ok fun copies last => rfl, halt_orRelease]
        exact ih (step + 1) eachOther liveOther grown

theorem halt_copyWith {value : Value} (live : old.Live value)
    (followed : ∀ address held store, (old.get? address).isSome → Growth old held store →
      halt (copyAllocation depth address store) = old.haltAt depth address)
    (growth : Growth old held store) :
    halt (copyWith (copyAllocation depth) value store) = haltWith (old.haltAt depth) value := by
  induction value using Value.induct generalizing held store with
  | atom content => rfl
  | static label text => rfl
  | handle sharing address =>
      have stops := followed address held store (live address (by simp [addresses])) growth
      rw [copyWith, haltWith, ← stops]
      exact halt_bind_of_ok fun copy later => rfl
  | node form parts ih =>
      rw [haltWith]
      by_cases isHeld : form = .refCell true
      · subst isHeld
        rw [copyWith, if_pos rfl]
        rfl
      · have liveParts : ∀ part ∈ parts, old.Live part := live_of_part live
        have stops := halt_copyParts sound form.treatment 0
          (fun part member held store growth => ih part member (liveParts part member) growth) liveParts growth
        rw [if_neg isHeld, copyWith, ← stops]
        · exact halt_bind_of_ok fun copies later => rfl
        · exact isHeld

theorem halt_copyAllocation {address : Address} (live : (old.get? address).isSome)
    (growth : Growth old held store) : halt (copyAllocation depth address store) = old.haltAt depth address := by
  induction depth generalizing address held store with
  | zero => rfl
  | succ depth ih =>
      have bound := lt_size_of_isSome live
      obtain ⟨contents, found⟩ := exists_contents live
      have liveParts : ∀ part ∈ contents, old.Live part := fun part member =>
        sound.live_of_contents found member
      have stops := halt_copyParts sound (fun _ => .deep) 0
        (fun part member held store growth => halt_copyWith sound (liveParts part member)
          (fun address held store => ih) growth) liveParts growth
      rw [copyAllocation_succ, growth.former_contents bound, haltAt, found, Option.getD_some, ← stops]
      exact halt_bind_of_ok fun copies later => rfl

/-- A copy stops for the reason that the store tells before. -/
theorem halt_copy {value : Value} (live : old.Live value) :
    halt (value.copy.run old) = haltWith (old.haltAt old.depth) value :=
  halt_copyWith sound live (fun _ _ _ => halt_copyAllocation sound) (.refl old)

theorem heldAt_of_copy {later : Store} {value : Value} {trail : Trail} (live : old.Live value)
    (made : value.copy.run old = (.error (.held trail), later)) :
    old.HeldAt trail value ∧ old.Once trail value := by
  have halted := halt_copy sound live
  rw [made] at halted
  exact ⟨heldAt_of_haltWith (fun sharing _ _ => heldAt_of_haltAt sharing) halted.symm,
    once_of_haltWith halted.symm⟩

end Value

end Replica
