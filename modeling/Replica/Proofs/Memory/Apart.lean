import Replica.Proofs.Memory.Renaming
import Replica.Proofs.Memory.TreeCopy

/-!
Values that are apart from what was in a store before: their handles lead to new allocations, but for those in
fields that are shared on purpose. Keys do not look into such fields.
-/

namespace Replica

namespace Form

theorem treatment_copied (form : Form) : form.copied.treatment = form.treatment := by
  funext step
  cases form with
  | strategies counter => rcases step with _ | _ | step <;> rfl
  | _ => rfl

/-- Some field of a node of this form is shared with its copy. -/
def Shares (form : Form) : Prop :=
  ∃ step, form.treatment step = .share

theorem not_shares_vector : ¬ vector.Shares := by
  rintro ⟨_, impossible⟩
  cases impossible

theorem not_shares_copied {form : Form} (owning : ¬ form.Shares) : ¬ form.copied.Shares := by
  rwa [Shares, treatment_copied]

end Form

namespace Value

variable {first : Address} {kind : Form → Prop}

/-- All nodes of a value are of some kind, and its handles lead to what comes from `first` on, but for those
in fields that a copy shares. -/
inductive Apart (first : Address) (kind : Form → Prop) : Value → Prop
  | atom (content : Atom) : Apart first kind (.atom content)
  | static (label : Nat) (text : String) : Apart first kind (.static label text)
  | handle (sharing : Sharing) {address : Address} (isNew : first ≤ address) :
      Apart first kind (.handle sharing address)
  | node {form : Form} {parts : List Value} (ofKind : kind form)
      (each : ∀ step part, parts[step]? = some part → form.treatment step ≠ .share →
        Apart first kind part) :
      Apart first kind (.node form parts)

theorem Apart.absorb {former new : Value} (formerApart : Apart first kind former)
    (newApart : Apart first kind new) : Apart first kind (former.absorb new).1 := by
  fun_cases Value.absorb former new with
  | case1 key value otherKey newValue =>
      cases formerApart with
      | node ofKind each =>
          cases newApart with
          | node _ newEach =>
              refine .node ofKind fun step part found treated => ?_
              obtain _ | _ | step := step
              · exact each 0 part found treated
              · exact newEach 1 part found treated
              · simp at found
  | case2 => exact formerApart

theorem Apart.size_le_of_mem {value : Value} (apart : Apart first (fun form => ¬ form.Shares) value)
    {address : Address} (member : address ∈ value.addresses) : first ≤ address := by
  induction value using Value.induct with
  | atom content => cases member
  | static label text => cases member
  | handle sharing other =>
      obtain rfl := List.mem_singleton.mp member
      cases apart with
      | handle _ isNew => exact isNew
  | node form parts ih =>
      obtain ⟨part, inside, here⟩ := mem_addressesOfAll.mp member
      obtain ⟨step, found⟩ := List.mem_iff_getElem?.mp inside
      cases apart with
      | node owning each =>
          exact ih part inside (each step part found fun shared => owning ⟨step, shared⟩) here

theorem Apart.gather {form : Form} {parts : List Value} (ofKind : kind form)
    (each : ∀ step part, parts[step]? = some part → form.treatment step ≠ .share → part.Apart first kind)
    (store : Store) : Apart first kind (.node form (store.gather form parts).kept) := by
  refine .node ofKind ?_
  by_cases owning : Tree.Owning form
  · -- All parts are apart, whatever the collection makes of them.
    have deep := owning.treatment
    have apart : ∀ part ∈ parts, part.Apart first kind := by
      intro part member
      obtain ⟨step, found⟩ := List.mem_iff_getElem?.mp member
      exact each step part found (by simp [deep])
    intro step part found _
    exact Form.forall_gather (fun former new => Apart.absorb) form apart part (List.mem_of_getElem? found)
  · -- A struct with shared fields is no collection, and its parts stay where they are.
    simp only [Tree.Owning, not_forall, not_not] at owning
    obtain ⟨counter, rfl⟩ := owning
    exact each

/-- The key of a value that is apart depends on what is new only. -/
theorem Apart.key_congr {cells : Bool} {follow other : Address → Key} {value : Value}
    (apart : Apart first kind value)
    (same : ∀ address ∈ value.addresses, first ≤ address → other address = follow address) :
    Key.ofValue cells other value = Key.ofValue cells follow value := by
  induction value using Value.induct with
  | atom content => rfl
  | static label text => rfl
  | handle sharing address =>
      cases apart with
      | handle _ isNew =>
          cases sharing with
          | rc => exact same address (by simp [addresses]) isNew
          | _ => rfl
  | node form parts ih =>
      by_cases owning : Tree.Owning form
      · cases apart with
        | node _ each =>
            apply key_node_congr
            apply List.map_congr_left
            intro part member
            obtain ⟨step, found⟩ := List.mem_iff_getElem?.mp member
            apply ih part member (each step part found (by simp [owning.treatment]))
            exact fun address inside => same address (mem_addressesOfAll.mpr ⟨part, member, inside⟩)
      · simp only [Tree.Owning, not_forall, not_not] at owning
        obtain ⟨counter, rfl⟩ := owning
        rfl

end Value

end Replica
