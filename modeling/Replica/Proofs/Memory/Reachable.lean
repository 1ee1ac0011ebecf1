import Replica.Proofs.Memory.Altering
import Replica.Proofs.Memory.Lockstep
import Replica.Proofs.Memory.Writing
import Mathlib.Data.List.Flatten
import Mathlib.Data.String.Basic

/-!
Memories that steps lead to. With circles of handles or without, each allocation counts the handles to it that
are in variables and in allocations, so that nothing is given up too early and nothing too late.
-/

namespace Replica

open Store

theorem Store.exact_invariant (known : List Address) :
    Building.Invariant (· ∈ known) fun held store => Exact (held ++ known) store where
  of_perm same counts := counts.of_perm (same.append_right known)
  allocate counts := by
    rw [List.append_assoc] at counts
    exact counts.allocate
  retain isKnown counts := counts.retain (counts.isSome_of_mem (by simp [isKnown]))
  release counts := by
    rw [List.append_assoc] at counts
    exact counts.release
  static counts := ⟨counts.counted, counts.positive⟩

namespace Memory

/-- The handles in all variables. -/
def handlesOf (bindings : List (String × Value)) : List Address :=
  bindings.flatMap fun binding => binding.2.addresses

/-- A memory with its variables in order, in which each allocation counts the handles to it: those in the
variables, those in allocations, and those that are held besides. -/
structure Exact (held : List Address) (memory : Memory) : Prop where
  sorted : memory.bindings.Pairwise fun first second => first.1 < second.1
  store : Store.Exact (held ++ handlesOf memory.bindings) memory.store

/-- The same where each allocation counts at least the handles to it. -/
structure Backed (held : List Address) (memory : Memory) : Prop where
  sorted : memory.bindings.Pairwise fun first second => first.1 < second.1
  backed : Store.Backed (held ++ handlesOf memory.bindings) memory.store

theorem mem_insert {bindings : List (String × Value)} {name : String} {value : Value}
    {binding : String × Value} (member : binding ∈ insert name value bindings) :
    binding = (name, value) ∨ binding ∈ bindings := by
  induction bindings with
  | nil => exact .inl (List.mem_singleton.mp member)
  | cons first rest ih =>
      rw [insert] at member
      split at member
      · exact (List.mem_cons.mp member).imp_right (List.mem_cons_of_mem _)
      · split at member
        · exact List.mem_cons.mp member
        · rcases List.mem_cons.mp member with rfl | further
          · exact .inr List.mem_cons_self
          · exact (ih further).imp_right (List.mem_cons_of_mem _)

theorem pairwise_insert {bindings : List (String × Value)} (name : String) (value : Value)
    (sorted : bindings.Pairwise fun first second => first.1 < second.1) :
    (insert name value bindings).Pairwise fun first second => first.1 < second.1 := by
  induction bindings with
  | nil => exact List.pairwise_singleton _ _
  | cons first rest ih =>
      obtain ⟨least, restSorted⟩ := List.pairwise_cons.mp sorted
      rw [insert]
      by_cases isFirst : name = first.1
      · rw [if_pos isFirst]
        exact List.pairwise_cons.mpr ⟨fun binding member => isFirst ▸ least binding member, restSorted⟩
      · rw [if_neg isFirst]
        by_cases before : name < first.1
        · rw [if_pos before]
          refine List.pairwise_cons.mpr ⟨?_, sorted⟩
          intro binding member
          rcases List.mem_cons.mp member with rfl | further
          · exact before
          · exact lt_trans before (least binding further)
        · rw [if_neg before]
          refine List.pairwise_cons.mpr ⟨?_, ih restSorted⟩
          intro binding member
          rcases mem_insert member with rfl | further
          · exact lt_of_le_of_ne (not_lt.mp before) (Ne.symm isFirst)
          · exact least binding further

theorem lookup_eq_none {bindings : List (String × Value)} {name : String}
    (absent : ∀ binding ∈ bindings, binding.1 ≠ name) : bindings.lookup name = none := by
  induction bindings with
  | nil => rfl
  | cons first rest ih =>
      obtain ⟨firstName, value⟩ := first
      rw [lookup_cons, if_neg (Ne.symm (absent _ List.mem_cons_self))]
      exact ih fun binding member => absent binding (List.mem_cons_of_mem _ member)

theorem count_handlesOf_insert {bindings : List (String × Value)} (name : String) (value : Value)
    (sorted : bindings.Pairwise fun first second => first.1 < second.1) (address : Address) :
    (handlesOf (insert name value bindings)).count address +
        ((bindings.lookup name).elim [] Value.addresses).count address =
      (handlesOf bindings).count address + value.addresses.count address := by
  induction bindings with
  | nil => simp [insert, handlesOf]
  | cons first rest ih =>
      obtain ⟨firstName, firstValue⟩ := first
      obtain ⟨least, restSorted⟩ := List.pairwise_cons.mp sorted
      have given := ih restSorted
      rw [insert, lookup_cons]
      by_cases isFirst : name = firstName
      · simp only [if_pos isFirst, handlesOf, List.flatMap_cons, List.count_append, Option.elim_some]
        omega
      · rw [if_neg isFirst, if_neg isFirst]
        by_cases before : name < firstName
        · have absent : rest.lookup name = none := by
            apply lookup_eq_none
            intro binding member
            exact ne_of_gt (lt_trans before (least binding member))
          simp only [if_pos before, absent, handlesOf, List.flatMap_cons, List.count_append, Option.elim_none,
            List.count_nil]
          omega
        · simp only [if_neg before, handlesOf, List.flatMap_cons, List.count_append] at given ⊢
          omega

theorem count_handlesOf_filter {bindings : List (String × Value)} {name : String} {value : Value}
    (sorted : bindings.Pairwise fun first second => first.1 < second.1)
    (found : bindings.lookup name = some value) (address : Address) :
    (handlesOf (bindings.filter (·.1 ≠ name))).count address + value.addresses.count address =
      (handlesOf bindings).count address := by
  induction bindings with
  | nil => cases found
  | cons first rest ih =>
      obtain ⟨firstName, firstValue⟩ := first
      obtain ⟨least, restSorted⟩ := List.pairwise_cons.mp sorted
      rw [lookup_cons] at found
      by_cases isFirst : name = firstName
      · subst isFirst
        rw [if_pos rfl, Option.some.injEq] at found
        subst found
        have others : rest.filter (·.1 ≠ name) = rest := by
          rw [List.filter_eq_self]
          exact fun binding member => decide_eq_true (ne_of_gt (least binding member))
        have dropped : ((name, firstValue) :: rest).filter (·.1 ≠ name) = rest := by
          rw [List.filter_cons, if_neg (by simp), others]
        rw [dropped]
        simp only [handlesOf, List.flatMap_cons, List.count_append]
        omega
      · rw [if_neg isFirst] at found
        have given := ih restSorted found
        have kept : ((firstName, firstValue) :: rest).filter (·.1 ≠ name) =
            (firstName, firstValue) :: rest.filter (·.1 ≠ name) := by
          simp [Ne.symm isFirst]
        rw [kept]
        simp only [handlesOf, List.flatMap_cons, List.count_append] at given ⊢
        omega

/-- All handles in a memory are counted. -/
abbrev Sound : Memory → Prop :=
  Backed []

variable {memory later : Memory} {held more fewer : List Address} {name : String} {value : Value}

theorem mem_handlesOf (found : memory.lookup name = some value) {address : Address}
    (member : address ∈ value.addresses) : address ∈ handlesOf memory.bindings :=
  List.mem_flatMap.mpr ⟨(name, value), mem_of_lookup found, member⟩

theorem addresses_mark (isHeld : Bool) (value : Value) : (value.mark isHeld).addresses = value.addresses := by
  unfold Value.mark
  split <;> rfl

namespace Exact

theorem live (counts : Exact held memory) (found : memory.lookup name = some value) :
    memory.store.Live value :=
  counts.store.live fun _ member => List.mem_append_right _ (mem_handlesOf found member)

theorem growth {later : Store} (counts : Exact held memory) (growth : Growth memory.store more later) :
    Exact (more ++ held) { memory with store := later } where
  sorted := counts.sorted
  store := by
    rw [List.append_assoc]
    exact counts.store.growth growth

theorem build (counts : Exact held memory) {data : Datum} (built : memory.build data = .ok (value, later)) :
    Exact (value.addresses ++ held) later := by
  obtain ⟨⟨result, store⟩, resultBuilt, same⟩ := Except.bind_eq_ok_iff.mp built
  cases same
  have known : Value.Known (· ∈ handlesOf memory.bindings) memory.lookup fun _ => True :=
    fun name _ value found address member => mem_handlesOf found member
  exact ⟨counts.sorted, Value.build_keeps (exact_invariant (handlesOf memory.bindings)) known data
    (fun _ _ => trivial) held memory.store _ _ counts.store resultBuilt⟩

theorem release (counts : Exact (more ++ held) memory) :
    Exact held { memory with store := memory.store.release more } where
  sorted := counts.sorted
  store := by
    have released := counts.store
    rw [List.append_assoc] at released
    exact released.release

/-- Another value in a variable. Its handles were held, or the former value had them, and what the former value
had besides is held now. -/
theorem replace {bindings : List (String × Value)} {store : Store}
    (sorted : bindings.Pairwise fun first second => first.1 < second.1)
    (counts : Store.Exact (more ++ handlesOf bindings) store)
    (exchanged : ∀ address, value.addresses.count address + fewer.count address =
      ((bindings.lookup name).elim [] Value.addresses).count address + more.count address) :
    Exact fewer ⟨insert name value bindings, store⟩ where
  sorted := pairwise_insert name value sorted
  store := counts.of_count_eq fun address => by
    have moved := count_handlesOf_insert name value sorted address
    have given := exchanged address
    simp only [List.count_append]
    omega

theorem assign (counts : Exact (value.addresses ++ held) memory) (name : String) :
    Exact held (memory.assign name value) := by
  refine release (replace counts.sorted counts.store fun address => ?_)
  simp only [List.count_append, lookup]
  omega

theorem drop (counts : Exact held memory) (dropped : memory.drop name = .ok later) : Exact held later := by
  obtain ⟨value, found, rfl⟩ := drop_cases dropped
  refine ⟨counts.sorted.filter _, Store.Exact.release (counts.store.of_count_eq ?_)⟩
  intro address
  have moved := count_handlesOf_filter counts.sorted found address
  simp only [List.count_append]
  omega

theorem write (counts : Exact more memory) {root former : Value} {trail : Trail}
    (found : memory.lookup name = some root) (reached : memory.store.follow? trail root = some former)
    (exchanged : ∀ address, value.addresses.count address + fewer.count address =
      former.addresses.count address + more.count address) :
    Exact fewer (memory.write name trail value) := by
  obtain ⟨rewriting, rewritten, moved⟩ := rewrite?_exchanges value reached
  unfold Memory.write
  rw [found, Option.bind_some, rewritten]
  cases rewriting with
  | own altered =>
      refine replace counts.sorted counts.store fun address => ?_
      have isRoot : memory.bindings.lookup name = some root := found
      have here := moved address
      have given := exchanged address
      rw [isRoot, Option.elim_some]
      omega
  | behind address contents =>
      obtain ⟨before, held, moved⟩ := moved
      refine ⟨counts.sorted, counts.store.setContents held fun other => ?_⟩
      have here := moved other
      have given := exchanged other
      simp only [List.count_append]
      omega

theorem alter_same (counts : Exact held memory) (passing : Form → Form) {change : Value → Value}
    (same : ∀ value, (change value).addresses = value.addresses) (name : String) (trail : Trail) :
    Exact held (memory.alter name trail passing change) := by
  unfold Memory.alter
  split
  · exact counts
  · rename_i value found
    obtain ⟨altered, later⟩ := sameHandles_alter memory.store passing same trail value
    refine replace counts.sorted (later.exact counts.store) fun address => ?_
    have isValue : memory.bindings.lookup name = some value := found
    rw [altered, isValue, Option.elim_some]

/-- What a change drops is held from then on. -/
theorem change {held : List Value} {newValue newKey : Option Value} {path : List Nat} {place : Place} {root : Value}
    {action : Action} {change : Change}
    (counts : Exact (Value.addressesOfAll (newKey.toList ++ (newValue.toList ++ held))) memory)
    (found : memory.lookup name = some root)
    (walked : memory.store.walk? (fun _ => true) path root .owned = some place)
    (changed : memory.store.change action place.access place.value newValue newKey = .ok change) :
    Exact (Value.addressesOfAll change.dropped ++ Value.addressesOfAll held)
      (memory.write name place.trail change.value) := by
  apply counts.write found (follow?_of_walk? walked)
  intro address
  have conserved := (addresses_change changed).count_eq address
  have both : given [newValue, newKey] = Value.addressesOfAll (newValue.toList ++ newKey.toList) := by
    cases newValue <;> cases newKey <;> rfl
  rw [both] at conserved
  simp only [Change.addresses, Value.addressesOfAll_append, List.count_append] at conserved ⊢
  omega

theorem mark (counts : Exact held memory) (isHeld : Bool) (cell : Option (String × Trail)) :
    Exact held (memory.mark isHeld cell) := by
  cases cell with
  | none => exact counts
  | some cell => exact counts.alter_same id (addresses_mark isHeld) cell.1 cell.2

theorem invariant : Invariant fun held memory => Exact (Value.addressesOfAll held) memory where
  build counts built := counts.build built
  assign name counts := assign counts name
  drop := drop
  change counts found walked changed := (change counts found walked changed).release
  mark isHeld cell counts := counts.mark isHeld cell
  copied counts found made := by
    have left := Value.copy_leaves counts.store.sound (counts.live found)
    rw [made] at left
    exact counts.growth left
  undone counts found made := by
    have left := Value.copy_leaves counts.store.sound (counts.live found)
    rw [made] at left
    exact counts.growth left
  poison name trail counts := counts.alter_same Form.poisoned (fun _ => rfl) name trail

theorem empty : Exact [] Memory.empty where
  sorted := .nil
  store := by
    have dead (address : Address) : Memory.empty.store.get? address = none :=
      get?_eq_none_of_size_le (Nat.zero_le _)
    constructor
    · exact fun address => count_of_none (dead address)
    · intro address allocation found
      rw [dead] at found
      cases found

theorem after (counts : Exact [] memory) (steps : List Step) : Exact [] (memory.after steps) := by
  have counted : Exact (Value.addressesOfAll []) memory := counts
  exact invariant.after counted steps

end Exact

namespace Backed

theorem exists_exact (backed : Backed held memory) : ∃ lost, Exact (held ++ lost) memory := by
  obtain ⟨lost, counts⟩ := backed.backed.exists_exact
  refine ⟨lost, backed.sorted, counts.of_perm ?_⟩
  rw [List.append_assoc, List.append_assoc]
  exact List.perm_append_comm.append_left held

theorem of_exact (counts : Exact (held ++ more) memory) : Backed held memory where
  sorted := counts.sorted
  backed := by
    have turned : Store.Exact ((held ++ handlesOf memory.bindings) ++ more) memory.store := by
      apply counts.store.of_perm
      rw [List.append_assoc, List.append_assoc]
      exact List.perm_append_comm.append_left held
    exact turned.backed

theorem live (backed : Backed held memory) (found : memory.lookup name = some value) :
    memory.store.Live value := by
  obtain ⟨lost, counts⟩ := backed.exists_exact
  exact counts.live found

theorem growth {later : Store} (backed : Backed held memory) (growth : Growth memory.store more later) :
    Backed (more ++ held) { memory with store := later } := by
  obtain ⟨lost, counts⟩ := backed.exists_exact
  have grown := counts.growth growth
  rw [← List.append_assoc] at grown
  exact of_exact grown

theorem assign (backed : Backed (value.addresses ++ held) memory) (name : String) :
    Backed held (memory.assign name value) := by
  obtain ⟨lost, counts⟩ := backed.exists_exact
  rw [List.append_assoc] at counts
  exact of_exact (counts.assign name)

end Backed

theorem Sound.store (sound : memory.Sound) : memory.store.Sound :=
  sound.backed.sound

theorem Sound.live (sound : memory.Sound) (found : memory.lookup name = some value) :
    memory.store.Live value :=
  Backed.live sound found

theorem copy_eq {source : String} (found : memory.lookup source = some value) :
    memory.copy name source none =
      match value.copy.run memory.store with
      | (.ok copy, store) => (none, ({ memory with store } : Memory).assign name copy)
      | (.error (.held trail), store) =>
        (some .panic, ({ memory with store } : Memory).alter source trail Form.poisoned id)
      | (.error .depth, store) => (some .panic, { memory with store }) := by
  have unmarked : (memory.lookup source).getD value = value := by
    rw [found, Option.getD_some]
  unfold Memory.copy
  rw [found]
  conv_rhs => rw [← unmarked]
  rfl

/-- A memory that steps lead to from the empty one, with no circle of handles before any of them. -/
inductive Reachable : Memory → Prop
  | empty : Reachable .empty
  | step {memory : Memory} (step : Step) :
      Reachable memory → memory.store.Acyclic → Reachable (memory.step step).2

/-- Steps lead to sound memories only. -/
theorem Reachable.sound (reachable : Reachable memory) : memory.Sound := by
  have exact : Exact (Value.addressesOfAll []) memory := by
    induction reachable with
    | empty => exact Exact.empty
    | step step _ _ ih => exact Exact.invariant.step ih step
  exact Backed.of_exact exact

/-- All handles that there are: those in variables, and those in what is allocated. -/
def handles (memory : Memory) : List Address :=
  handlesOf memory.bindings ++ memory.store.handlesFrom 0

/-- Whatever the steps are, each allocation counts the handles to it, all handles lead to allocations, and
there is an allocation just where handles are counted. -/
theorem count_after (steps : List Step) :
    let memory := Memory.empty.after steps
    (∀ address, memory.store.count address = memory.handles.count address) ∧
      (∀ address ∈ memory.handles, (memory.store.get? address).isSome) ∧
      ∀ address, (memory.store.get? address).isSome ↔ 0 < memory.store.count address := by
  intro memory
  have counts : Exact [] memory := Exact.empty.after steps
  refine ⟨?_, ?_, ?_⟩
  · exact counts.store.counted
  · exact fun address member => counts.store.isSome_of_mem member
  · exact fun address => counts.store.isSome_iff

end Memory

end Replica
