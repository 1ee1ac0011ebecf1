import Replica.Proofs.Memory.Neatness

/-!
Changes that no collection notices. What takes the place of something else resembles it if it has the same key as
long as no cell is looked into, wherever handles lead. A store in which each allocation resembles what it was leaves
all that is neat as it is.
-/

namespace Replica

open Store

/-- Forms that differ in a mark only. -/
inductive Form.Akin : Form → Form → Prop
  | refl (form : Form) : Akin form form
  | refCell (held isHeld : Bool) : Akin (.refCell held) (.refCell isHeld)
  | mutex (poisoned isPoisoned : Bool) : Akin (.mutex poisoned) (.mutex isPoisoned)

/-- Forms of which nobody finds anything by its parts. -/
def Form.Sealed : Form → Prop
  | .tuple | .vector | .box | .entry | .refCell _ => False
  | _ => True

namespace Value

/-- Whether a value may stand in the place of another so that nobody notices who finds values by their keys. -/
structure Resembles (new former : Value) : Prop where
  key : ∀ follow, Key.ofValue false follow new = Key.ofValue false follow former
  sought : ∀ follow, Key.ofValue false follow new.sought = Key.ofValue false follow former.sought
  entry : ∀ key value, former = .node .entry [key, value] → ∃ newKey newValue, new = .node .entry [newKey, newValue]
  cell : ∀ held content, former = .node (.refCell held) [content] →
    ∃ isHeld newContent, new = .node (.refCell isHeld) [newContent]
  handle : ∀ sharing address, former = .handle sharing address → new = former

variable {follow : Address → Key} {shelf : Address → Prop} {form newForm : Form} {parts newParts : List Value}
  {value new former part : Value} {step : Nat}

namespace Resembles

theorem refl (value : Value) : value.Resembles value :=
  ⟨fun _ => rfl, fun _ => rfl, fun key value same => ⟨key, value, same⟩, fun held content same => ⟨held, content, same⟩,
    fun _ _ _ => rfl⟩

theorem trans (second : new.Resembles value) (first : value.Resembles former) : new.Resembles former where
  key follow := (second.key follow).trans (first.key follow)
  sought follow := (second.sought follow).trans (first.sought follow)
  entry key content same := by
    obtain ⟨_, _, between⟩ := first.entry key content same
    exact second.entry _ _ between
  cell held content same := by
    obtain ⟨_, _, between⟩ := first.cell held content same
    exact second.cell _ _ between
  handle sharing address same := by
    have between := first.handle sharing address same
    exact (second.handle sharing address (between.trans same)).trans between

theorem akin (akin : newForm.Akin form) : (node newForm parts).Resembles (node form parts) := by
  cases akin with
  | refl => exact refl _
  | refCell held isHeld =>
      have same (follow : Address → Key) : Key.ofValue false follow (.node (.refCell held) parts) =
          Key.ofValue false follow (.node (.refCell isHeld) parts) := by
        rw [key_node, key_node]
        rfl
      refine ⟨same, same, by simp, ?_, by simp⟩
      intro was content isCell
      cases isCell
      exact ⟨held, content, rfl⟩
  | mutex poisoned isPoisoned => exact ⟨fun _ => rfl, fun _ => rfl, by simp, by simp, by simp⟩

theorem set (found : parts[step]? = some former) (same : new.Resembles former) :
    (node form (parts.set step new)).Resembles (node form parts) where
  key follow := key_node_congr (List.map_set_of_eq found (same.key follow))
  sought follow := by
    cases form with
    | entry =>
        rcases parts with _ | ⟨key, rest⟩
        · cases found
        · cases step with
          | zero =>
              cases found
              exact same.key follow
          | succ step => rfl
    | _ => exact key_node_congr (List.map_set_of_eq found (same.key follow))
  entry key value isEntry := by
    cases isEntry
    match step with
    | 0 => exact ⟨new, value, rfl⟩
    | 1 => exact ⟨key, new, rfl⟩
    | step + 2 => cases found
  cell held content isCell := by
    cases isCell
    match step with
    | 0 => exact ⟨held, new, rfl⟩
    | step + 1 => cases found
  handle sharing address isHandle := by cases isHandle

/-- What a cell holds does not show. -/
theorem setCell {held isHeld : Bool} (found : parts[step]? = some former) :
    (node (.refCell isHeld) (parts.set step new)).Resembles (node (.refCell held) parts) := by
  have other (held : Bool) (parts : List Value) (follow : Address → Key) :
      Key.ofValue false follow (.node (.refCell held) parts) = .other := by
    rw [key_node]
    rfl
  refine ⟨fun follow => ?_, fun follow => ?_, by simp, ?_, by simp⟩
  · rw [other, other]
  · exact (other isHeld _ follow).trans (other held _ follow).symm
  · intro was content isCell
    cases isCell
    match step with
    | 0 => exact ⟨isHeld, new, rfl⟩
    | step + 1 => cases found

/-- Whatever is in sealed forms does not show. -/
theorem sealed (isSealed : newForm.Sealed) (wasSealed : form.Sealed) :
    (node newForm newParts).Resembles (node form parts) := by
  have other {form : Form} {parts : List Value} (isSealed : form.Sealed) (follow : Address → Key) :
      Key.ofValue false follow (.node form parts) = .other ∧ (Value.node form parts).sought = .node form parts := by
    cases form with
    | tuple | vector | box | entry | refCell => exact isSealed.elim
    | _ => exact ⟨rfl, rfl⟩
  refine ⟨fun follow => ?_, fun follow => ?_, ?_, ?_, by simp⟩
  · rw [(other isSealed follow).1, (other wasSealed follow).1]
  · rw [(other isSealed follow).2, (other wasSealed follow).2, (other isSealed follow).1, (other wasSealed follow).1]
  · intro key value isEntry
    cases isEntry
    exact wasSealed.elim
  · intro held content isCell
    cases isCell
    exact wasSealed.elim

end Resembles

theorem Fits.resemble (fits : Fits follow form former) (same : new.Resembles former) : Fits follow form new := by
  cases form with
  | hashSet | priorityQueue =>
      have ordered : (Key.ofValue false follow former).isOrdered := fits
      rw [← same.key] at ordered
      exact ordered
  | hashMap =>
      obtain ⟨key, value, rfl, ordered⟩ := fits
      obtain ⟨newKey, newValue, rfl⟩ := same.entry key value rfl
      have keys : Key.ofValue false follow newKey = Key.ofValue false follow key := same.sought follow
      exact ⟨newKey, newValue, rfl, keys.symm ▸ ordered⟩
  | treeMap =>
      obtain ⟨key, value, rfl⟩ := fits
      exact same.entry key value rfl
  | _ => exact trivial

namespace Neat

theorem akin (neat : Neat follow shelf (.node form parts)) (akin : newForm.Akin form) :
    Neat follow shelf (.node newForm parts) := by
  cases akin with
  | refl => exact neat
  | refCell | mutex => exact neat_of_loose trivial neat.inside

theorem set (neat : Neat follow shelf (.node form parts)) (found : parts[step]? = some former)
    (newNeat : Neat follow shelf new) (same : new.Resembles former) :
    Neat follow shelf (.node form (parts.set step new)) := by
  have keys : (parts.set step new).map (fun part => Key.ofValue false follow part.sought) =
      parts.map fun part => Key.ofValue false follow part.sought := List.map_set_of_eq found (same.sought follow)
  have memberOf : ∀ part ∈ parts.set step new, part ∈ parts ∨ part = new := fun part => List.mem_or_eq_of_mem_set
  refine .node ⟨?_, keys ▸ neat.tidy.hashed, keys ▸ neat.tidy.queued⟩ ?_ ?_
  · intro part member
    rcases memberOf part member with before | rfl
    · exact neat.tidy.fits part before
    · exact (neat.tidy.fits former (List.mem_of_getElem? found)).resemble same
  · intro place isShelved
    obtain ⟨address, here, isShelf⟩ := neat.exists_shelf isShelved
    refine ⟨address, ?_, isShelf⟩
    by_cases isStep : step = place
    · subst isStep
      obtain rfl := Option.some.inj (found.symm.trans here)
      rw [same.handle .rc address rfl, List.getElem?_set_self (List.getElem?_eq_some_iff.mp found).1]
    · rw [List.getElem?_set_ne isStep, here]
  · intro part member
    rcases memberOf part member with before | rfl
    · exact neat.inside part before
    · exact newNeat

theorem setAny (neat : Neat follow shelf (.node form parts)) (loose : form.Loose) (newNeat : Neat follow shelf new) :
    Neat follow shelf (.node form (parts.set step new)) := by
  apply neat_of_loose loose
  intro part member
  rcases List.mem_or_eq_of_mem_set member with before | rfl
  · exact neat.inside part before
  · exact newNeat

end Neat

theorem mark_resembles (isHeld : Bool) (value : Value) : (value.mark isHeld).Resembles value := by
  unfold mark
  split
  · exact .akin (.refCell _ _)
  · exact .refl _

theorem Neat.mark (neat : Neat follow shelf value) (isHeld : Bool) : Neat follow shelf (value.mark isHeld) := by
  unfold Value.mark
  split
  · exact neat.akin (.refCell _ _)
  · exact neat

end Value

theorem Form.akin_poisoned (form : Form) : form.poisoned.Akin form := by
  cases form <;> first | exact .refl _ | exact .mutex _ _

namespace Store

/-- A store in which each allocation holds what resembles that which another store has there. -/
structure Resembles (later store : Store) : Prop where
  size_eq : later.slots.size = store.slots.size
  contents : ∀ address, Option.Rel (List.Forall₂ Value.Resembles) (later.contents? address) (store.contents? address)

variable {store later : Store} {address : Address} {contents changed : List Value} {value : Value}

theorem forall₂_resembles_refl (values : List Value) : List.Forall₂ Value.Resembles values values :=
  List.forall₂_same.mpr fun value _ => .refl value

theorem forall₂_resembles_set {values : List Value} {step : Nat} {former new : Value}
    (found : values[step]? = some former) (same : new.Resembles former) :
    List.Forall₂ Value.Resembles (values.set step new) values := by
  induction values generalizing step with
  | nil => cases found
  | cons value values ih =>
      cases step with
      | zero =>
          cases found
          exact .cons same (forall₂_resembles_refl values)
      | succ step => exact .cons (.refl value) (ih found)

namespace Resembles

theorem refl (store : Store) : store.Resembles store where
  size_eq := rfl
  contents address := by
    cases store.contents? address with
    | none => exact .none
    | some contents => exact .some (forall₂_resembles_refl contents)

theorem setContents (same : later.Resembles store) (found : store.contents? address = some contents)
    (resembling : List.Forall₂ Value.Resembles changed contents) :
    (later.setContents address changed).Resembles store where
  size_eq := by rw [size_setContents, same.size_eq]
  contents other := by
    have before := same.contents other
    rw [contents?, get?_setContents]
    split
    · rename_i isAddress
      subst isAddress
      rw [contents?, found] at before
      generalize later.get? other = here at before ⊢
      cases here with
      | none => cases before
      | some allocation =>
          rw [found]
          exact .some resembling
    · exact before

theorem keyOfAddress_eq (same : later.Resembles store) (depth : Nat) :
    Key.ofAddress false later depth = Key.ofAddress false store depth := by
  induction depth with
  | zero => rfl
  | succ depth ih =>
      funext address
      have there := same.contents address
      rw [Key.ofAddress_succ, Key.ofAddress_succ, ih]
      generalize later.contents? address = new at there ⊢
      generalize store.contents? address = former at there ⊢
      cases there with
      | none => rfl
      | some resembling =>
          exact congrArg _ (List.map_eq_of_forall₂ (resembling.imp fun _ _ resembles => resembles.key _))

theorem fixed_eq (same : later.Resembles store) : later.fixed = store.fixed := by
  rw [fixed, fixed, depth, depth, same.size_eq]
  exact same.keyOfAddress_eq _

theorem shelf (same : later.Resembles store) (isShelf : store.Shelf address) : later.Shelf address := by
  obtain ⟨held, content, found⟩ := isShelf
  have there := same.contents address
  rw [found] at there
  generalize here : later.contents? address = new at there
  cases there with
  | some resembling =>
      cases resembling with
      | cons first rest =>
          cases rest with
          | nil =>
              obtain ⟨isHeld, newContent, rfl⟩ := first.cell held content rfl
              exact ⟨isHeld, newContent, here⟩

theorem neat (same : later.Resembles store) (neat : store.Neat value) : later.Neat value :=
  neat.imp (fun _ _ _ => by rw [same.fixed_eq]) fun _ _ => same.shelf

end Resembles

/-- Everything in a store is neat in the eyes of another store. -/
def StoredNeat (base later : Store) : Prop :=
  ∀ address contents, later.contents? address = some contents → ∀ content ∈ contents, base.Neat content

theorem StoredNeat.setContents (stored : store.StoredNeat later) (neat : ∀ content ∈ changed, store.Neat content) :
    store.StoredNeat (later.setContents address changed) := by
  intro other contents found content member
  rw [contents?, get?_setContents] at found
  split at found
  · rw [Option.map_map] at found
    obtain ⟨allocation, _, rfl⟩ := Option.map_eq_some_iff.mp found
    exact neat content member
  · exact stored other contents found content member

/-- What parts and contents take over from what they are in holds of all that a trail leads to. -/
theorem holds_of_follow? {holds : Value → Prop} {trail : Trail} {part : Value}
    (inside : ∀ form parts, holds (.node form parts) → ∀ part ∈ parts, holds part)
    (behind : ∀ sharing address contents, holds (.handle sharing address) → store.contents? address = some contents →
      ∀ content ∈ contents, holds content)
    (reached : store.follow? trail value = some part) (here : holds value) : holds part := by
  induction trail generalizing value with
  | nil =>
      cases reached
      exact here
  | cons step trail ih =>
      obtain ⟨next, isNext, rest⟩ := Option.bind_eq_some_iff.mp reached
      cases value with
      | atom content => cases isNext
      | static label text => cases isNext
      | node form parts => exact ih rest (inside form parts here next (List.mem_of_getElem? isNext))
      | handle sharing address =>
          obtain ⟨contents, found, there⟩ := Option.bind_eq_some_iff.mp isNext
          exact ih rest (behind sharing address contents here found next (List.mem_of_getElem? there))

theorem StoredNeat.follow? (stored : store.StoredNeat store) {trail : Trail} {part : Value}
    (reached : store.follow? trail value = some part) (neat : store.Neat value) : store.Neat part := by
  apply holds_of_follow? _ _ reached neat
  · exact fun form parts neat => neat.inside
  · exact fun sharing address contents _ found => stored address contents found

theorem Sound.live_follow? (sound : store.Sound) {trail : Trail} {part : Value}
    (reached : store.follow? trail value = some part) (live : store.Live value) : store.Live part := by
  apply holds_of_follow? _ _ reached live
  · exact fun form parts => live_of_part
  · exact fun sharing address contents _ found part => sound.live_of_contents found

/-- What is altered at the end of a trail, with other marks on the way, resembles what was there. -/
theorem alter_resembles {passing : Form → Form} {change : Value → Value} (stored : store.StoredNeat store)
    (passed : ∀ form, (passing form).Akin form) (changes : ∀ value, (change value).Resembles value)
    (neatly : ∀ value, store.Neat value → store.Neat (change value)) (trail : Trail) (neat : store.Neat value) :
    (alter passing change trail value store).1.Resembles value ∧
      store.Neat (alter passing change trail value store).1 ∧
      (alter passing change trail value store).2.Resembles store ∧
      store.StoredNeat (alter passing change trail value store).2 := by
  induction trail generalizing value with
  | nil =>
      have same : alter passing change [] value store = (change value, store) := by rw [alter]
      rw [same]
      exact ⟨changes value, neatly value neat, .refl store, stored⟩
  | cons step trail ih =>
      have unaltered : value.Resembles value ∧ store.Neat value ∧ store.Resembles store ∧ store.StoredNeat store :=
        ⟨.refl value, neat, .refl store, stored⟩
      cases value with
      | atom content => exact unaltered
      | static label text => exact unaltered
      | node form parts =>
          simp only [alter]
          cases here : parts[step]? with
          | none => exact unaltered
          | some part =>
              obtain ⟨same, partNeat, resembles, storedLater⟩ := ih (neat.inside part (List.mem_of_getElem? here))
              exact ⟨(Value.Resembles.akin (passed form)).trans (.set here same),
                (neat.set here partNeat same).akin (passed form), resembles, storedLater⟩
      | handle sharing address =>
          simp only [alter]
          cases found : store.contents? address with
          | none => exact unaltered
          | some contents =>
              simp only
              cases here : contents[step]? with
              | none => exact unaltered
              | some part =>
                  have partNeat := stored address contents found part (List.mem_of_getElem? here)
                  obtain ⟨same, altered, resembles, storedLater⟩ := ih partNeat
                  refine ⟨.refl _, neat, resembles.setContents found (forall₂_resembles_set here same), ?_⟩
                  apply storedLater.setContents
                  intro content member
                  rcases List.mem_or_eq_of_mem_set member with before | rfl
                  · exact stored address contents found content before
                  · exact altered

end Store

end Replica
