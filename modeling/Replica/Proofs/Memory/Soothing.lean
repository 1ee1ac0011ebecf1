import Replica.Proofs.Memory.Renaming

/-!
What a copy sees of a value: all but the poison of the mutexes that it locks.
-/

namespace Replica

def Form.soothed : Form → Form
  | .mutex _ => .mutex false
  | form => form

namespace Form

@[simp]
theorem treatment_soothed (form : Form) : form.soothed.treatment = form.treatment := by
  cases form <;> rfl

theorem treatment_eq {form other : Form} (same : other.soothed = form.soothed) :
    other.treatment = form.treatment := by
  rw [← treatment_soothed other, same, treatment_soothed]

theorem copied_eq {form other : Form} (same : other.soothed = form.soothed) : other.copied = form.copied := by
  have soothing (form : Form) : form.soothed.copied = form.copied := by
    cases form <;> rfl
  rw [← soothing other, same, soothing]

theorem eq_refCell_iff {form other : Form} (same : other.soothed = form.soothed) (held : Bool) :
    other = .refCell held ↔ form = .refCell held := by
  have soothing (form : Form) : form.soothed = .refCell held ↔ form = .refCell held := by
    cases form <;> simp [soothed]
  rw [← soothing other, same, soothing]

theorem soothed_poisoned (form : Form) : form.poisoned.soothed = form.soothed := by
  cases form <;> rfl

end Form

namespace Value

mutual

/-- The value with those mutexes unpoisoned that a copy of it locks. Shared parts are left as they are. -/
def soothe : Value → Value
  | .node form parts => .node form.soothed (sootheParts form.treatment 0 parts)
  | value => value

def sootheParts (treatment : Nat → Treatment) (step : Nat) : List Value → List Value
  | [] => []
  | value :: values =>
    (if treatment step = .share then value else value.soothe) :: sootheParts treatment (step + 1) values

end

theorem sootheParts_of_unshared {treatment : Nat → Treatment} (unshared : ∀ step, treatment step ≠ .share)
    (step : Nat) (values : List Value) : sootheParts treatment step values = values.map soothe := by
  induction values generalizing step with
  | nil => rfl
  | cons value values ih => rw [sootheParts, if_neg (unshared step), ih, List.map_cons]

theorem getElem?_sootheParts (treatment : Nat → Treatment) (first : Nat) (values : List Value) (step : Nat) :
    (sootheParts treatment first values)[step]? =
      values[step]?.map fun value => if treatment (first + step) = .share then value else value.soothe := by
  induction values generalizing first step with
  | nil => rfl
  | cons value values ih =>
      cases step with
      | zero => rfl
      | succ step =>
          rw [sootheParts, List.getElem?_cons_succ, List.getElem?_cons_succ, ih, Nat.add_assoc,
            Nat.add_comm 1 step]

theorem sootheParts_set {treatment : Nat → Treatment} {first step : Nat} {values : List Value} {former new : Value}
    (found : values[step]? = some former) (unshared : treatment (first + step) ≠ .share)
    (same : new.soothe = former.soothe) :
    sootheParts treatment first (values.set step new) = sootheParts treatment first values := by
  apply List.ext_getElem?
  intro place
  rw [getElem?_sootheParts, getElem?_sootheParts]
  by_cases isStep : step = place
  · subst isStep
    obtain ⟨inside, _⟩ := List.getElem?_eq_some_iff.mp found
    rw [List.getElem?_set_self inside, found, Option.map_some, Option.map_some, if_neg unshared,
      if_neg unshared, same]
  · rw [List.getElem?_set_ne isStep]

theorem exists_part_of_sootheParts {treatment : Nat → Treatment} {first step : Nat} {values twins : List Value}
    {value : Value} (same : sootheParts treatment first twins = sootheParts treatment first values)
    (found : values[step]? = some value) :
    ∃ twin, twins[step]? = some twin ∧ twin.soothe = value.soothe := by
  have there := congrArg (·[step]?) same
  simp only [getElem?_sootheParts, found, Option.map_some, Option.map_eq_some_iff] at there
  obtain ⟨twin, twinFound, alike⟩ := there
  refine ⟨twin, twinFound, ?_⟩
  split at alike
  · rw [alike]
  · exact alike

theorem exists_node_of_soothe {twin : Value} {form : Form} {parts : List Value}
    (same : twin.soothe = (node form parts).soothe) :
    ∃ otherForm twins, twin = .node otherForm twins ∧ otherForm.soothed = form.soothed ∧
      sootheParts form.treatment 0 twins = sootheParts form.treatment 0 parts := by
  cases twin with
  | node otherForm twins =>
      simp only [soothe, node.injEq] at same
      have treatments := Form.treatment_eq same.1
      exact ⟨otherForm, twins, rfl, same.1, treatments ▸ same.2⟩
  | _ => cases same

theorem eq_handle_of_soothe {twin : Value} {sharing : Sharing} {address : Address}
    (same : twin.soothe = (handle sharing address).soothe) : twin = .handle sharing address := by
  cases twin with
  | node form parts => cases same
  | _ => exact same

@[simp]
theorem key_soothe (cells : Bool) (follow : Address → Key) (value : Value) :
    Key.ofValue cells follow value.soothe = Key.ofValue cells follow value := by
  induction value using Value.induct with
  | atom content => rfl
  | static label text => rfl
  | handle sharing address => rfl
  | node form parts ih =>
      cases form with
      | strategies counter => rfl
      | mutex poisoned => rfl
      | _ =>
          rw [soothe, sootheParts_of_unshared (by intro step; simp [Form.treatment])]
          exact key_node_congr (by simpa using ih)

end Value

end Replica
