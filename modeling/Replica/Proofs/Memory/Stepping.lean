import Replica.Memory.Script
import Replica.Proofs.Result

/-!
What a step does. It is put together from a few changes of a memory: something is built, put into a variable, taken out
of one, changed in its place, or copied. What each of these preserves all runs of steps preserve.
-/

namespace Replica

namespace Memory

variable {memory later : Memory} {name : String} {value : Value}

theorem lookup_cons (name : String) (value : Value) (bindings : List (String × Value)) (other : String) :
    ((name, value) :: bindings).lookup other = if other = name then some value else bindings.lookup other := by
  by_cases same : other = name
  · simp [same]
  · rw [List.lookup_cons, beq_eq_false_iff_ne.mpr same, if_neg same]

theorem lookup_insert (name : String) (value : Value) (bindings : List (String × Value))
    (other : String) :
    (insert name value bindings).lookup other = if other = name then some value else bindings.lookup other := by
  induction bindings with
  | nil => exact lookup_cons name value [] other
  | cons first rest ih =>
      obtain ⟨firstName, firstValue⟩ := first
      simp only [insert]
      split
      · rename_i isFirst
        subst isFirst
        rw [lookup_cons, lookup_cons]
        split <;> rfl
      · split
        · rw [lookup_cons]
        · rename_i isOther _
          rw [lookup_cons, lookup_cons, ih]
          split
          · rename_i isFirst
            rw [if_neg (isFirst ▸ Ne.symm isOther)]
          · rfl

theorem mem_of_lookup (found : memory.lookup name = some value) : (name, value) ∈ memory.bindings := by
  obtain ⟨bindings, store⟩ := memory
  rw [lookup] at found
  induction bindings with
  | nil => cases found
  | cons first rest ih =>
      obtain ⟨firstName, firstValue⟩ := first
      rw [lookup_cons] at found
      split at found
      · rename_i isFirst
        cases found
        cases isFirst
        exact List.mem_cons_self
      · exact List.mem_cons_of_mem _ (ih found)

theorem isSome_lookup_mark (memory : Memory) (isHeld : Bool) (cell : Option (String × Trail)) (name : String) :
    ((memory.mark isHeld cell).lookup name).isSome = (memory.lookup name).isSome := by
  cases cell with
  | none => rfl
  | some cell =>
      simp only [Memory.mark, Memory.alter]
      split
      · rfl
      · rename_i found
        simp only [lookup, lookup_insert] at found ⊢
        split
        · rename_i same
          rw [same, found]
          rfl
        · rfl

theorem exists_lookup_mark (found : memory.lookup name = some value) (isHeld : Bool)
    (cell : Option (String × Trail)) : ∃ marked, (memory.mark isHeld cell).lookup name = some marked := by
  rw [← Option.isSome_iff_exists, isSome_lookup_mark, found]
  rfl

theorem buildOptional_cases {data : Option Datum} {value : Option Value}
    (built : memory.buildOptional data = .ok (value, later)) :
    (data = none ∧ value = none ∧ later = memory) ∨
      ∃ datum new, data = some datum ∧ value = some new ∧ memory.build datum = .ok (new, later) := by
  cases data with
  | none =>
      cases built
      exact .inl ⟨rfl, rfl, rfl⟩
  | some datum =>
      cases whole : memory.build datum with
      | error refusal => simp [buildOptional, whole, Except.map] at built
      | ok result =>
          simp only [buildOptional, whole, Except.map, Except.ok.injEq, Prod.mk.injEq] at built
          obtain ⟨rfl, rfl⟩ := built
          exact .inr ⟨datum, result.1, rfl, rfl, whole⟩

theorem drop_cases (dropped : memory.drop name = .ok later) :
    ∃ value, memory.lookup name = some value ∧
      later = ⟨memory.bindings.filter (·.1 ≠ name), memory.store.release value.addresses⟩ := by
  unfold Memory.drop at dropped
  split at dropped
  · cases dropped
  · rename_i value found
    cases dropped
    exact ⟨value, found, rfl⟩

/-- What has happened when an action succeeded. -/
theorem act_cases {path : List Nat} {action : Action} {value key : Option Datum}
    (acted : memory.act name path action value key = .ok later) :
    ∃ newValue first newKey second root place change,
      memory.buildOptional value = .ok (newValue, first) ∧
      first.buildOptional key = .ok (newKey, second) ∧ second.lookup name = some root ∧
      second.store.walk? (fun _ => true) path root .owned = some place ∧
      second.store.change action place.access place.value newValue newKey = .ok change ∧
      later = { second.write name place.trail change.value with
        store := (second.write name place.trail change.value).store.release
          (Value.addressesOfAll change.dropped) } := by
  obtain ⟨⟨newValue, first⟩, valueBuilt, acted⟩ := Except.bind_eq_ok_iff.mp acted
  obtain ⟨⟨newKey, second⟩, keyBuilt, acted⟩ := Except.bind_eq_ok_iff.mp acted
  simp only at acted
  split at acted
  · rename_i root found
    split at acted
    · rename_i place walked
      obtain ⟨change, changed, same⟩ := Except.bind_eq_ok_iff.mp acted
      cases same
      exact ⟨newValue, first, newKey, second, root, place, change, valueBuilt, keyBuilt, found, walked,
        changed, rfl⟩
    · cases acted
  · cases acted

def after (memory : Memory) (steps : List Step) : Memory :=
  steps.foldl (fun memory step => (memory.step step).2) memory

/-- What the changes preserve that steps are put together from. It may speak of values that are held besides those in
variables. -/
structure Invariant (Holds : List Value → Memory → Prop) : Prop where
  build {held : List Value} {memory later : Memory} {data : Datum} {value : Value} :
    Holds held memory → memory.build data = .ok (value, later) → Holds (value :: held) later
  assign {held : List Value} {memory : Memory} {value : Value} (name : String) :
    Holds (value :: held) memory → Holds held (memory.assign name value)
  drop {held : List Value} {memory later : Memory} {name : String} :
    Holds held memory → memory.drop name = .ok later → Holds held later
  /-- What was built for a change is held until the change takes it in. -/
  change {held : List Value} {memory : Memory} {name : String} {path : List Nat} {root : Value} {place : Place}
      {action : Action} {newValue newKey : Option Value} {change : Change} :
    Holds (newKey.toList ++ (newValue.toList ++ held)) memory → memory.lookup name = some root →
      memory.store.walk? (fun _ => true) path root .owned = some place →
      memory.store.change action place.access place.value newValue newKey = .ok change →
      Holds held { memory.write name place.trail change.value with
        store := (memory.write name place.trail change.value).store.release (Value.addressesOfAll change.dropped) }
  mark {held : List Value} {memory : Memory} (isHeld : Bool) (cell : Option (String × Trail)) :
    Holds held memory → Holds held (memory.mark isHeld cell)
  copied {held : List Value} {memory : Memory} {name : String} {value copy : Value} {store : Store} :
    Holds held memory → memory.lookup name = some value → value.copy.run memory.store = (.ok copy, store) →
      Holds (copy :: held) { memory with store }
  /-- A copy that comes to nothing leaves nothing behind. -/
  undone {held : List Value} {memory : Memory} {name : String} {value : Value} {halt : Halt} {store : Store} :
    Holds held memory → memory.lookup name = some value → value.copy.run memory.store = (.error halt, store) →
      Holds held { memory with store }
  poison {held : List Value} {memory : Memory} (name : String) (trail : Trail) :
    Holds held memory → Holds held (memory.alter name trail Form.poisoned id)

namespace Invariant

variable {Holds : List Value → Memory → Prop} {held : List Value} (invariant : Invariant Holds)
include invariant

theorem buildOptional (holds : Holds held memory) {data : Option Datum} {value : Option Value}
    (built : memory.buildOptional data = .ok (value, later)) : Holds (value.toList ++ held) later := by
  rcases buildOptional_cases built with ⟨_, rfl, rfl⟩ | ⟨datum, new, _, rfl, newBuilt⟩
  · exact holds
  · exact invariant.build holds newBuilt

theorem act (holds : Holds held memory) {path : List Nat} {action : Action} {value key : Option Datum}
    (acted : memory.act name path action value key = .ok later) : Holds held later := by
  obtain ⟨newValue, first, newKey, second, root, place, change, valueBuilt, keyBuilt, found, walked,
    changed, rfl⟩ := act_cases acted
  have built := invariant.buildOptional (invariant.buildOptional holds valueBuilt) keyBuilt
  exact invariant.change built found walked changed

theorem copy (holds : Holds held memory) (name source : String) (hold : Option Hold) :
    Holds held (memory.copy name source hold).2 := by
  unfold Memory.copy
  split
  · exact holds
  · exact holds
  · rename_i value cell found _
    obtain ⟨marked, foundMarked⟩ := exists_lookup_mark found true cell
    have during := invariant.mark true cell holds
    generalize memory.mark true cell = marking at *
    simp only [foundMarked, Option.getD_some]
    match made : marked.copy.run marking.store with
    | (.ok copy, later) =>
        exact invariant.assign name (invariant.mark false cell (invariant.copied during foundMarked made))
    | (.error (.held trail), later) =>
        have undone := invariant.undone during foundMarked made
        exact invariant.mark false cell (invariant.poison source trail undone)
    | (.error .depth, later) => exact invariant.mark false cell (invariant.undone during foundMarked made)

theorem step (holds : Holds held memory) (step : Step) : Holds held (memory.step step).2 := by
  cases step with
  | assign name data =>
      rw [Memory.step]
      cases built : memory.build data with
      | error refusal => exact holds
      | ok result => exact invariant.assign name (invariant.build holds built)
  | drop name =>
      rw [Memory.step]
      cases dropped : memory.drop name with
      | error refusal => exact holds
      | ok later => exact invariant.drop holds dropped
  | copy name source hold => exact invariant.copy holds name source hold
  | act name path action value key =>
      rw [Memory.step]
      cases acted : memory.act name path action value key with
      | error refusal => exact holds
      | ok later => exact invariant.act holds acted
  | malformed => exact holds

theorem after (holds : Holds held memory) (steps : List Step) : Holds held (memory.after steps) := by
  induction steps generalizing memory with
  | nil => exact holds
  | cons step steps ih => exact ih (invariant.step holds step)

end Invariant

end Memory

end Replica
