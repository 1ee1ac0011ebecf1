import Replica.Proofs.Memory.Halting
import Replica.Proofs.Memory.Outcome
import Replica.Proofs.Memory.Reachable

/-!
What a copy that stops leaves behind. The mutexes on the way to the cell that stopped it are poisoned, and
nothing else has changed.
-/

namespace Replica

namespace Value

variable {trail inner : Trail} {value : Value}

/-- The part of a value that a trail through nodes leads to. -/
def inner? : Trail → Value → Option Value
  | [], value => some value
  | step :: trail, .node _ parts => parts[step]?.bind (inner? trail)
  | _ :: _, _ => none

/-- Poisons the mutexes that a trail passes on its way to its end, or to the first handle. -/
def poisonAlong : Trail → Value → Value
  | step :: trail, .node form parts =>
    match parts[step]? with
    | none => .node form parts
    | some part => .node form.poisoned (parts.set step (part.poisonAlong trail))
  | _, value => value

def poisonContents : Trail → List Value → List Value
  | [], contents => contents
  | step :: trail, contents =>
    match contents[step]? with
    | none => contents
    | some part => contents.set step (part.poisonAlong trail)

mutual

/-- The value with all its mutexes unpoisoned. -/
def calm : Value → Value
  | .node (.mutex _) parts => .node (.mutex false) (calmAll parts)
  | .node form parts => .node form (calmAll parts)
  | value => value

def calmAll : List Value → List Value
  | [] => []
  | value :: values => value.calm :: calmAll values

end

@[simp]
theorem calmAll_eq_map (values : List Value) : calmAll values = values.map calm := by
  induction values with
  | nil => rfl
  | cons value values ih => simp [calmAll, ih]

theorem calm_node_congr {form : Form} {parts others : List Value} (same : others.map calm = parts.map calm) :
    (node form.poisoned others).calm = (node form parts).calm := by
  cases form <;> simp [Form.poisoned, calm, same]

theorem calm_poisonAlong (trail : Trail) (value : Value) : (value.poisonAlong trail).calm = value.calm := by
  induction trail generalizing value with
  | nil => cases value <;> rfl
  | cons step trail ih =>
      cases value with
      | node form parts =>
          rw [poisonAlong]
          split
          · rfl
          · rename_i part found
            exact calm_node_congr (List.map_set_of_eq found (ih part))
      | _ => rfl

theorem calm_poisonContents (trail : Trail) (contents : List Value) :
    (poisonContents trail contents).map calm = contents.map calm := by
  cases trail with
  | nil => rfl
  | cons step trail =>
      rw [poisonContents]
      split
      · rfl
      · rename_i part found
        exact List.map_set_of_eq found (calm_poisonAlong trail part)

end Value

namespace Store

variable {store : Store} {trail rest : Trail} {value : Value} {address : Address}

/-- On its way from a value, a trail enters an allocation with the given rest still to go. -/
inductive Enters (store : Store) : Trail → Value → Address → Trail → Prop
  | here {sharing : Sharing} {address : Address} {step : Nat} {trail : Trail} :
      Enters store (step :: trail) (.handle sharing address) address (step :: trail)
  | part {form : Form} {parts : List Value} {step : Nat} {trail rest : Trail} {part : Value}
      {address : Address} : parts[step]? = some part → Enters store trail part address rest →
        Enters store (step :: trail) (.node form parts) address rest
  | content {sharing : Sharing} {holder : Address} {contents : List Value} {step : Nat}
      {trail rest : Trail} {part : Value} {address : Address} : store.contents? holder = some contents →
        contents[step]? = some part → Enters store trail part address rest →
          Enters store (step :: trail) (.handle sharing holder) address rest

theorem Enters.reaches (enters : store.Enters trail value address rest) :
    ∃ first ∈ value.addresses, Relation.ReflTransGen store.PointsTo first address := by
  induction enters with
  | here => exact ⟨_, by simp [Value.addresses], .refl⟩
  | part found _ ih =>
      obtain ⟨first, inside, path⟩ := ih
      exact ⟨first, Value.mem_addressesOfAll.mpr ⟨_, List.mem_of_getElem? found, inside⟩, path⟩
  | @content sharing holder contents step trail rest part address held found _ ih =>
      obtain ⟨first, inside, path⟩ := ih
      have points : store.PointsTo holder first :=
        ⟨contents, held, Value.mem_addressesOfAll.mpr ⟨part, List.mem_of_getElem? found, inside⟩⟩
      exact ⟨holder, by simp [Value.addresses], .head points path⟩

theorem Acyclic.not_enters (acyclic : store.Acyclic) {contents : List Value} {part : Value}
    (held : store.contents? address = some contents) (member : part ∈ contents) :
    ¬ store.Enters trail part address rest := by
  intro enters
  obtain ⟨first, inside, path⟩ := enters.reaches
  have points : store.PointsTo address first :=
    ⟨contents, held, Value.mem_addressesOfAll.mpr ⟨part, member, inside⟩⟩
  exact acyclic address (.head' points path)

theorem Enters.unique (acyclic : store.Acyclic) {other : Trail}
    (enters : store.Enters trail value address rest) (again : store.Enters trail value address other) :
    rest = other := by
  induction enters with
  | here =>
      cases again with
      | here => rfl
      | content held found behind =>
          exact absurd behind (acyclic.not_enters held (List.mem_of_getElem? found))
  | part found behind ih =>
      cases again with
      | part otherFound otherBehind =>
          rw [found, Option.some.injEq] at otherFound
          exact ih (otherFound ▸ otherBehind)
  | content held found behind ih =>
      cases again with
      | here => exact absurd behind (acyclic.not_enters held (List.mem_of_getElem? found))
      | content otherHeld otherFound otherBehind =>
          rw [held, Option.some.injEq] at otherHeld
          subst otherHeld
          rw [found, Option.some.injEq] at otherFound
          exact ih (otherFound ▸ otherBehind)

/-- Whether a trail enters no allocation twice on its way from a value. -/
def Once (store : Store) (trail : Trail) (value : Value) : Prop :=
  ∀ address rest other, store.Enters trail value address rest → store.Enters trail value address other →
    rest = other

theorem Acyclic.once (acyclic : store.Acyclic) : store.Once trail value :=
  fun _ _ _ enters again => enters.unique acyclic again

theorem Enters.length_le (enters : store.Enters trail value address rest) : rest.length ≤ trail.length := by
  induction enters with
  | here => exact Nat.le_refl _
  | part _ _ ih => exact Nat.le_succ_of_le ih
  | content _ _ _ ih => exact Nat.le_succ_of_le ih

namespace Once

variable {step : Nat}

theorem part {part : Value} {form : Form} {parts : List Value} (once : store.Once (step :: trail) (.node form parts))
    (found : parts[step]? = some part) : store.Once trail part :=
  fun address rest other enters again => once address rest other (.part found enters) (.part found again)

variable {sharing : Sharing} {holder : Address} {contents : List Value} {item : Value}
  (once : store.Once (step :: trail) (.handle sharing holder))
  (held : store.contents? holder = some contents) (found : contents[step]? = some item)
include once held found

theorem content : store.Once trail item :=
  fun address rest other enters again => once address rest other (.content held found enters)
    (.content held found again)

theorem not_again : ¬ store.Enters trail item holder rest := by
  intro enters
  have shorter := enters.length_le
  rw [once holder _ _ (.content held found enters) .here, List.length_cons] at shorter
  exact absurd shorter (Nat.not_succ_le_self _)

end Once

/-- What poisoning along a trail leaves in a store: of an allocation that the trail enters, the contents
are poisoned along what is still to go, and any other one is as it was. -/
structure PoisonedAlong (store after : Store) (trail : Trail) (value : Value) : Prop where
  apart : ∀ address, (∀ rest, ¬ store.Enters trail value address rest) →
    after.get? address = store.get? address
  entered : ∀ address rest, store.Enters trail value address rest →
    after.get? address = (store.get? address).map fun allocation =>
      { allocation with contents := Value.poisonContents rest allocation.contents }

namespace PoisonedAlong

variable {after : Store} {step : Nat}

theorem unentered (never : ∀ address rest, ¬ store.Enters trail value address rest) :
    store.PoisonedAlong store trail value where
  apart _ _ := rfl
  entered address rest enters := absurd enters (never address rest)

theorem node {form : Form} {parts : List Value} {part : Value} (found : parts[step]? = some part)
    (behind : store.PoisonedAlong after trail part) :
    store.PoisonedAlong after (step :: trail) (.node form parts) := by
  constructor
  · intro address apart
    exact behind.apart address fun rest enters => apart rest (.part found enters)
  · rintro address rest (_ | ⟨here, enters⟩)
    rw [found, Option.some.injEq] at here
    exact behind.entered address rest (here ▸ enters)

theorem absent {sharing : Sharing} {holder : Address} (held : store.contents? holder = none) :
    store.PoisonedAlong store (step :: trail) (.handle sharing holder) := by
  constructor
  · exact fun _ _ => rfl
  · rintro address rest (_ | _ | ⟨here, _, _⟩)
    · rw [Option.map_eq_none_iff.mp held]
      rfl
    · rw [held] at here
      cases here

theorem outside {sharing : Sharing} {holder : Address} {contents : List Value}
    (held : store.contents? holder = some contents) (found : contents[step]? = none) :
    store.PoisonedAlong store (step :: trail) (.handle sharing holder) := by
  obtain ⟨allocation, holds, rfl⟩ := contents?_eq_some_iff.mp held
  constructor
  · exact fun _ _ => rfl
  · rintro address rest (_ | _ | ⟨here, there, _⟩)
    · rw [holds]
      simp [Value.poisonContents, found]
    · rw [held, Option.some.injEq] at here
      rw [← here, found] at there
      cases there

theorem handle {sharing : Sharing} {holder : Address} {contents : List Value} {part : Value}
    (once : store.Once (step :: trail) (.handle sharing holder)) (held : store.contents? holder = some contents)
    (found : contents[step]? = some part) (behind : store.PoisonedAlong after trail part) :
    store.PoisonedAlong (after.setContents holder (contents.set step (part.poisonAlong trail)))
      (step :: trail) (.handle sharing holder) := by
  obtain ⟨allocation, holds, rfl⟩ := contents?_eq_some_iff.mp held
  -- The holder is written last. As it is entered once, nothing was poisoned in it that this would undo.
  have notAgain : ∀ rest, ¬ store.Enters trail part holder rest := fun rest => once.not_again held found
  constructor
  · intro address apart
    have isOther : address ≠ holder := by
      rintro rfl
      exact apart _ .here
    rw [get?_setContents, if_neg isOther]
    exact behind.apart address fun rest enters => apart rest (.content held found enters)
  · rintro address rest (_ | _ | ⟨here, there, enters⟩)
    · rw [get?_setContents, if_pos rfl, behind.apart holder notAgain, holds]
      simp [Value.poisonContents, found]
    · rw [held, Option.some.injEq] at here
      subst here
      rw [found, Option.some.injEq] at there
      subst there
      have isOther : address ≠ holder := by
        rintro rfl
        exact notAgain _ enters
      rw [get?_setContents, if_neg isOther]
      exact behind.entered address rest enters

end PoisonedAlong

theorem alter_poisoned (once : store.Once trail value) :
    (alter Form.poisoned id trail value store).1 = value.poisonAlong trail ∧
      store.PoisonedAlong (alter Form.poisoned id trail value store).2 trail value := by
  induction trail generalizing value with
  | nil =>
      have never : ∀ address rest, ¬ store.Enters [] value address rest := by
        rintro address rest ⟨⟩
      cases value <;> exact ⟨rfl, .unentered never⟩
  | cons step trail ih =>
      cases value with
      | atom content => exact ⟨rfl, .unentered (by rintro address rest ⟨⟩)⟩
      | static label text => exact ⟨rfl, .unentered (by rintro address rest ⟨⟩)⟩
      | node form parts =>
          simp only [alter, Value.poisonAlong]
          cases found : parts[step]? with
          | none =>
              refine ⟨rfl, .unentered ?_⟩
              rintro address rest (_ | ⟨here, _⟩)
              rw [found] at here
              cases here
          | some part =>
              obtain ⟨partSame, behind⟩ := ih (once.part found)
              exact ⟨by simp only [partSame], behind.node found⟩
      | handle sharing holder =>
          simp only [alter, Value.poisonAlong]
          cases held : store.contents? holder with
          | none => exact ⟨rfl, .absent held⟩
          | some contents =>
              simp only
              cases found : contents[step]? with
              | none => exact ⟨rfl, .outside held found⟩
              | some part =>
                  obtain ⟨partSame, behind⟩ := ih (once.content held found)
                  refine ⟨rfl, ?_⟩
                  simp only [partSame]
                  exact behind.handle once held found

theorem Enters.of_contents {other : Store}
    (same : ∀ address, other.contents? address = store.contents? address)
    (enters : store.Enters trail value address rest) : other.Enters trail value address rest := by
  induction enters with
  | here => exact .here
  | part found _ ih => exact .part found ih
  | content held found _ ih => exact .content ((same _).trans held) found ih

theorem HeldAt.of_enters (held : store.HeldAt trail value)
    (enters : store.Enters trail value address rest) :
    ∃ step behind contents part, rest = step :: behind ∧ store.contents? address = some contents ∧
      contents[step]? = some part ∧ store.HeldAt behind part := by
  induction enters with
  | here =>
      obtain ⟨contents, part, present, found, partHeld⟩ := held
      exact ⟨_, _, contents, part, rfl, present, found, partHeld⟩
  | part found _ ih =>
      obtain ⟨_, part, otherFound, partHeld⟩ := held
      rw [found, Option.some.injEq] at otherFound
      exact ih (otherFound ▸ partHeld)
  | content present found _ ih =>
      obtain ⟨contents, part, otherPresent, otherFound, partHeld⟩ := held
      rw [present, Option.some.injEq] at otherPresent
      subst otherPresent
      rw [found, Option.some.injEq] at otherFound
      exact ih (otherFound ▸ partHeld)

theorem HeldAt.poisonAlong_iff (held : store.HeldAt trail value) {inner : Trail} {poisoned : Bool}
    {parts : List Value} (found : value.inner? inner = some (.node (.mutex poisoned) parts)) :
    ∃ flag others, (value.poisonAlong trail).inner? inner = some (.node (.mutex flag) others) ∧
      (flag = true ↔ poisoned = true ∨ inner <+: trail) := by
  induction trail generalizing value inner with
  | nil =>
      cases value with
      | node form valueParts =>
          obtain rfl : form = .refCell true := held
          cases inner with
          | nil => cases found
          | cons step inner => exact ⟨poisoned, parts, found, by simp⟩
      | _ => exact held.elim
  | cons step trail ih =>
      cases value with
      | node form valueParts =>
          obtain ⟨_, part, here, partHeld⟩ := held
          simp only [Value.poisonAlong, here]
          cases inner with
          | nil =>
              cases found
              exact ⟨true, _, rfl, by simp⟩
          | cons index inner =>
              simp only [Value.inner?, List.cons_prefix_cons] at found ⊢
              -- On the trail the question goes on to the part, and off it nothing changes.
              by_cases isStep : index = step
              · subst isStep
                rw [here, Option.bind_some] at found
                obtain ⟨flag, others, after, iff⟩ := ih partHeld found
                refine ⟨flag, others, ?_, by simpa using iff⟩
                obtain ⟨inside, _⟩ := List.getElem?_eq_some_iff.mp here
                rw [List.getElem?_set_self inside, Option.bind_some, after]
              · refine ⟨poisoned, parts, ?_, by simp [isStep]⟩
                rw [List.getElem?_set_ne (Ne.symm isStep)]
                exact found
      | handle sharing address => cases inner <;> cases found
      | _ => exact held.elim

end Store

open Store

/-- Where values stand that are not parts of others. -/
inductive Root where
  | named (name : String)
  | content (address : Address) (index : Nat)

namespace Memory

def at? (memory : Memory) : Root → Trail → Option Value
  | .named name, inner => (memory.lookup name).bind (Value.inner? inner)
  | .content address index, inner =>
    ((memory.store.contents? address).bind (·[index]?)).bind (Value.inner? inner)

/-- Whether a trail from a variable's value passes what stands behind a root. -/
def Passes (memory : Memory) (source : String) (value : Value) (trail : Trail) : Root → Trail → Prop
  | .named name, inner => name = source ∧ inner <+: trail
  | .content address index, inner =>
    ∃ rest, memory.store.Enters trail value address (index :: rest) ∧ inner <+: rest

/-- What a failed copy leaves as it was: everything but the poison of mutexes. -/
structure SameButPoison (memory after : Memory) : Prop where
  lookup_calm : ∀ name, (after.lookup name).map Value.calm = (memory.lookup name).map Value.calm
  contents_calm : ∀ address,
    (after.store.contents? address).map (List.map Value.calm) =
      (memory.store.contents? address).map (List.map Value.calm)
  count_eq : ∀ address, after.store.count address = memory.store.count address

section Poisoned

variable {memory : Memory} {source : String} {value : Value} {later : Store}
  (same : ∀ address, later.get? address = memory.store.get? address)
  (found : memory.lookup source = some value)
include same found

theorem alter_poisoned {trail : Trail} (once : memory.store.Once trail value) :
    let after := ({ memory with store := later } : Memory).alter source trail Form.poisoned id
    (∀ name, after.lookup name =
      if name = source then some (value.poisonAlong trail) else memory.lookup name) ∧
    memory.store.PoisonedAlong after.store trail value := by
  have sameContents : ∀ address, later.contents? address = memory.store.contents? address := by
    intro address
    rw [contents?, contents?, same]
  have laterOnce : later.Once trail value := fun address rest other enters again =>
    once address rest other (enters.of_contents fun _ => (sameContents _).symm)
      (again.of_contents fun _ => (sameContents _).symm)
  have foundLater : ({ memory with store := later } : Memory).lookup source = some value := found
  obtain ⟨valueSame, behind⟩ := Store.alter_poisoned laterOnce
  simp only [Memory.alter, foundLater]
  refine ⟨?_, ?_, ?_⟩
  · intro name
    rw [lookup, lookup_insert, valueSame]
    rfl
  · intro address apart
    rw [← same]
    apply behind.apart
    exact fun rest enters => apart rest (enters.of_contents fun _ => (sameContents _).symm)
  · intro address rest enters
    rw [← same]
    exact behind.entered address rest (enters.of_contents sameContents)

variable (acyclic : memory.store.Acyclic)
include acyclic

theorem sameButPoison_alter (trail : Trail) :
    memory.SameButPoison
      (({ memory with store := later } : Memory).alter source trail Form.poisoned id) := by
  obtain ⟨lookups, stores⟩ := alter_poisoned same found acyclic.once
  generalize ({ memory with store := later } : Memory).alter source trail Form.poisoned id = after at *
  -- Whether the trail enters an allocation or not, only the poison of its contents can differ.
  have changed : ∀ address, ∃ change : List Value → List Value,
      (∀ contents, (change contents).map Value.calm = contents.map Value.calm) ∧
        after.store.get? address = (memory.store.get? address).map fun allocation =>
          { allocation with contents := change allocation.contents } := by
    intro address
    by_cases entered : ∃ rest, memory.store.Enters trail value address rest
    · obtain ⟨rest, enters⟩ := entered
      exact ⟨_, Value.calm_poisonContents rest, stores.entered address rest enters⟩
    · refine ⟨id, fun _ => rfl, ?_⟩
      rw [stores.apart address (not_exists.mp entered)]
      simp
  constructor
  · intro name
    rw [lookups]
    split
    · rename_i isSource
      rw [isSource, found, Option.map_some, Option.map_some, Value.calm_poisonAlong]
    · rfl
  · intro address
    obtain ⟨change, calm, after⟩ := changed address
    rw [contents?, contents?, after]
    cases memory.store.get? address <;> simp [calm]
  · intro address
    obtain ⟨change, _, after⟩ := changed address
    rw [count, count, after]
    cases memory.store.get? address <;> rfl

theorem poisoned_named_iff {trail : Trail} (held : memory.store.HeldAt trail value) {name : String}
    {inner : Trail} {poisoned : Bool} {parts : List Value}
    (stood : memory.at? (.named name) inner = some (.node (.mutex poisoned) parts)) :
    let after := ({ memory with store := later } : Memory).alter source trail Form.poisoned id
    ∃ flag others, after.at? (.named name) inner = some (.node (.mutex flag) others) ∧
      (flag = true ↔ poisoned = true ∨ memory.Passes source value trail (.named name) inner) := by
  obtain ⟨lookups, _⟩ := alter_poisoned same found acyclic.once
  generalize ({ memory with store := later } : Memory).alter source trail Form.poisoned id = after at *
  by_cases isSource : name = source
  · subst isSource
    simp only [at?, found, Option.bind_some] at stood
    obtain ⟨flag, others, afterStands, iff⟩ := held.poisonAlong_iff stood
    refine ⟨flag, others, ?_, by simpa [Passes] using iff⟩
    rw [at?, lookups, if_pos rfl, Option.bind_some, afterStands]
  · refine ⟨poisoned, parts, ?_, by simp [Passes, isSource]⟩
    rw [at?, lookups, if_neg isSource]
    exact stood

theorem poisoned_content_iff {trail : Trail} (held : memory.store.HeldAt trail value)
    {address : Address} {index : Nat} {inner : Trail} {poisoned : Bool} {parts : List Value}
    (stood : memory.at? (.content address index) inner = some (.node (.mutex poisoned) parts)) :
    let after := ({ memory with store := later } : Memory).alter source trail Form.poisoned id
    ∃ flag others, after.at? (.content address index) inner = some (.node (.mutex flag) others) ∧
      (flag = true ↔
        poisoned = true ∨ memory.Passes source value trail (.content address index) inner) := by
  obtain ⟨_, stores⟩ := alter_poisoned same found acyclic.once
  generalize ({ memory with store := later } : Memory).alter source trail Form.poisoned id = after at *
  by_cases entered : ∃ rest, memory.store.Enters trail value address rest
  · obtain ⟨rest, enters⟩ := entered
    obtain ⟨step, behind, contents, part, rfl, present, here, partHeld⟩ := held.of_enters enters
    have afterPresent : after.store.contents? address =
        some (contents.set step (part.poisonAlong behind)) := by
      obtain ⟨allocation, holds, rfl⟩ := contents?_eq_some_iff.mp present
      rw [contents?, stores.entered address _ enters, holds]
      simp [Value.poisonContents, here]
    -- An allocation is entered once, so that of its contents the trail passes one item only.
    have passes : memory.Passes source value trail (.content address index) inner ↔
        index = step ∧ inner <+: behind := by
      constructor
      · rintro ⟨other, again, before⟩
        obtain ⟨rfl, rfl⟩ := List.cons.inj (enters.unique acyclic again)
        exact ⟨rfl, before⟩
      · rintro ⟨rfl, before⟩
        exact ⟨behind, enters, before⟩
    simp only [at?, present, Option.bind_some] at stood
    simp only [at?, afterPresent, Option.bind_some, passes]
    by_cases isStep : index = step
    · subst isStep
      rw [here, Option.bind_some] at stood
      obtain ⟨flag, others, afterStands, iff⟩ := partHeld.poisonAlong_iff stood
      refine ⟨flag, others, ?_, by simpa using iff⟩
      obtain ⟨inside, _⟩ := List.getElem?_eq_some_iff.mp here
      rw [List.getElem?_set_self inside, Option.bind_some, afterStands]
    · refine ⟨poisoned, parts, ?_, by simp [isStep]⟩
      rw [List.getElem?_set_ne (Ne.symm isStep)]
      exact stood
  · refine ⟨poisoned, parts, ?_, ?_⟩
    · rw [at?, contents?, stores.apart address (not_exists.mp entered)]
      exact stood
    · have apart : ¬ memory.Passes source value trail (.content address index) inner := by
        rintro ⟨rest, enters, _⟩
        exact entered ⟨_, enters⟩
      simp [apart]

theorem poisoned_alter_iff {trail : Trail} (held : memory.store.HeldAt trail value) {root : Root}
    {inner : Trail} {poisoned : Bool} {parts : List Value}
    (stood : memory.at? root inner = some (.node (.mutex poisoned) parts)) :
    let after := ({ memory with store := later } : Memory).alter source trail Form.poisoned id
    ∃ flag others, after.at? root inner = some (.node (.mutex flag) others) ∧
      (flag = true ↔ poisoned = true ∨ memory.Passes source value trail root inner) := by
  cases root with
  | named name => exact poisoned_named_iff same found acyclic held stood
  | content address index => exact poisoned_content_iff same found acyclic held stood

end Poisoned

/-- A copy under the hold of a cell is one in the memory where that cell is marked, which it is no longer
behind the copy. -/
theorem copy_hold {memory : Memory} {name source : String} {former value : Value} {hold : Hold}
    {cell : Option (String × Trail)} (holds : memory.exclusive (some hold) = .ok cell)
    (found : memory.lookup source = some former)
    (marked : (memory.mark true cell).lookup source = some value) :
    (memory.copy name source (some hold)).1 = ((memory.mark true cell).copy name source none).1 ∧
      (((memory.mark true cell).copy name source none).1 = some .panic →
        (memory.copy name source (some hold)).2 =
          ((memory.mark true cell).copy name source none).2.mark false cell) := by
  rw [copy_eq marked]
  simp only [Memory.copy, holds, found, marked, Option.getD_some]
  rcases value.copy.run (memory.mark true cell).store with ⟨(trail | depth) | copy, later⟩
  · exact ⟨rfl, fun _ => rfl⟩
  · exact ⟨rfl, fun _ => rfl⟩
  · exact ⟨rfl, fun impossible => by cases impossible⟩

/-- A copy fails exactly if it comes to a cell that somebody changes. It leaves everything as it was then,
but that the mutexes on the way to one such cell are poisoned. -/
theorem copy_panics {memory : Memory} {name source : String} {value : Value}
    (sound : memory.store.Sound) (acyclic : memory.store.Acyclic)
    (found : memory.lookup source = some value) (live : memory.store.Live value) :
    ((memory.copy name source none).1 = some .panic ↔ ∃ trail, memory.store.HeldAt trail value) ∧
      ((memory.copy name source none).1 = some .panic →
        ∃ trail, memory.store.HeldAt trail value ∧
          memory.SameButPoison (memory.copy name source none).2 ∧
          ∀ root inner poisoned parts,
            memory.at? root inner = some (.node (.mutex poisoned) parts) →
              ∃ flag others,
                (memory.copy name source none).2.at? root inner =
                  some (.node (.mutex flag) others) ∧
                (flag = true ↔ poisoned = true ∨ memory.Passes source value trail root inner)) := by
  cases made : (memory.store.unfold value).copy with
  | ok tree =>
      obtain ⟨copy, later, copied, _, _⟩ := Value.copy_of_tree_ok sound acyclic live made
      have succeeds : (memory.copy name source none).1 ≠ some .panic := by
        rw [copy_eq found, copied]
        exact fun impossible => by cases impossible
      refine ⟨⟨fun panics => absurd panics succeeds, ?_⟩, fun panics => absurd panics succeeds⟩
      rintro ⟨trail, held⟩
      exact absurd made (Tree.copy_ne_ok_of_heldAt ((heldAt_unfold_iff acyclic).mpr held))
  | error trail =>
      obtain ⟨later, stopped, growth⟩ := Value.copy_of_tree_error sound acyclic live made
      have held := (heldAt_unfold_iff acyclic).mp (Tree.heldAt_of_copy_error made)
      rw [copy_eq found, stopped]
      refine ⟨⟨fun _ => ⟨trail, held⟩, fun _ => rfl⟩, fun _ => ⟨trail, held, ?_, ?_⟩⟩
      · exact sameButPoison_alter growth.get?_eq found acyclic trail
      · exact fun root inner poisoned parts => poisoned_alter_iff growth.get?_eq found acyclic held

/-- A lock around a held cell, another lock, and what else leads to the text in the cell. -/
def latched : Memory :=
  ⟨[("core", .handle .rc 0), ("other", .node (.mutex false) [.text "rind"]),
    ("source", .node (.mutex false) [.handle .rc 1])], .nested true⟩

theorem copy_panics_latched :
    latched.store.Sound ∧ latched.store.Acyclic ∧
      latched.lookup "source" = some (.node (.mutex false) [.handle .rc 1]) ∧
      latched.store.Live (.node (.mutex false) [.handle .rc 1]) ∧
      (latched.copy "copy" "source" none).1 = some .panic ∧
      latched.SameButPoison (latched.copy "copy" "source" none).2 ∧
      (∃ others, (latched.copy "copy" "source" none).2.at? (.named "source") [] =
        some (.node (.mutex true) others)) ∧
      ∃ others, (latched.copy "copy" "source" none).2.at? (.named "other") [] =
        some (.node (.mutex false) others) := by
  have sound := sound_nested true
  have acyclic := acyclic_nested true
  have found : latched.lookup "source" = some (.node (.mutex false) [.handle .rc 1]) := rfl
  have live : latched.store.Live (.node (.mutex false) [.handle .rc 1]) := by
    intro address member
    obtain rfl : address = 1 := by simpa [Value.addresses, Value.addressesOfAll] using member
    rfl
  have held : latched.store.HeldAt [0, 0] (.node (.mutex false) [.handle .rc 1]) :=
    ⟨rfl, _, rfl, _, _, rfl, rfl, rfl⟩
  obtain ⟨panicsIff, after⟩ := @copy_panics latched "copy" "source" _ sound acyclic found live
  have panics := panicsIff.mpr ⟨_, held⟩
  obtain ⟨trail, _, same, poisoned⟩ := after panics
  refine ⟨sound, acyclic, found, live, panics, same, ?_, ?_⟩
  · obtain ⟨flag, others, stands, iff⟩ := poisoned (.named "source") [] false _ rfl
    obtain rfl := iff.mpr (.inr ⟨rfl, List.nil_prefix⟩)
    exact ⟨others, stands⟩
  · obtain ⟨flag, others, stands, iff⟩ := poisoned (.named "other") [] false _ rfl
    have spared : flag = false := by
      apply Bool.eq_false_of_not_eq_true
      intro poisoned
      rcases iff.mp poisoned with impossible | ⟨impossible, _⟩
      · cases impossible
      · exact absurd impossible (by decide)
    exact ⟨others, spared ▸ stands⟩

end Memory

end Replica
