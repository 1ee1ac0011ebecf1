import Replica.Proofs.Memory.KeyKeeping
import Mathlib.Data.List.SplitBy

/-!
What a tree makes of its parts when it is put together anew. It sorts them, those with equal keys staying in their
order, and keeps the last of each run of equal keys.
-/

namespace Replica

theorem List.exists_splitBy_cons {α : Type} {r : α → α → Bool} {first second : α} (rest : List α)
    (related : r first second) :
    ∃ run runs, (second :: rest).splitBy r = run :: runs ∧ run ≠ [] ∧
      (first :: second :: rest).splitBy r = (first :: run) :: runs := by
  cases split : (second :: rest).splitBy r with
  | nil => simp at split
  | cons run runs =>
      obtain ⟨joined, nonempty, chained, apart⟩ := List.splitBy_eq_iff.mp split
      have inside : run ≠ [] := by
        rintro rfl
        exact nonempty List.mem_cons_self
      refine ⟨run, runs, rfl, inside, List.splitBy_eq_iff.mpr ⟨?_, ?_, ?_, ?_⟩⟩
      · rw [List.flatten_cons, List.cons_append, ← List.flatten_cons, ← joined]
      · simpa using fun member => nonempty (List.mem_cons_of_mem _ member)
      · obtain ⟨runChained, othersChained⟩ := List.forall_mem_cons.mp chained
        refine List.forall_mem_cons.mpr ⟨?_, othersChained⟩
        obtain ⟨head, tail, rfl⟩ := List.exists_cons_of_ne_nil inside
        obtain rfl : second = head := by simpa using congrArg List.head? joined
        exact List.isChain_cons_cons.mpr ⟨related, runChained⟩
      · cases runs with
        | nil => exact List.isChain_singleton _
        | cons next runs =>
            rw [List.isChain_cons_cons] at apart ⊢
            obtain ⟨⟨_, nextInside, different⟩, others⟩ := apart
            refine ⟨⟨by simp, nextInside, ?_⟩, others⟩
            rwa [List.getLast_cons inside]

namespace Keyed

variable {α : Type} {items : List (Keyed α)} {key : α → Key} {absorb : α → α → α × List α} {parts : List α}

/-- Whether a part is found by some key. -/
def hasKey (key : α → Key) (sought : Key) (part : α) : Bool :=
  (key part).compare sought = .eq

@[simp]
theorem hasKey_iff {sought : Key} {part : α} : hasKey key sought part ↔ (key part).compare sought = .eq :=
  decide_eq_true_iff

/-- Of each run of neighbours with equal keys the last. -/
def lastPerRun (key : α → Key) (parts : List α) : List α :=
  (parts.splitBy fun a b => (key a).compare (key b) = .eq).filterMap List.getLast?

/-- The parts from the least key to the greatest, and of those with equal keys the last. -/
def rebuilt (key : α → Key) (parts : List α) : List α :=
  lastPerRun key (parts.mergeSort fun a b => (key a).le (key b))

theorem lastPerRun_cons_cons (key : α → Key) (first second : α) (rest : List α) :
    lastPerRun key (first :: second :: rest) =
      if (key first).compare (key second) = .eq then lastPerRun key (second :: rest)
      else first :: lastPerRun key (second :: rest) := by
  split
  · rename_i same
    obtain ⟨run, runs, split, inside, joined⟩ := List.exists_splitBy_cons
      (r := fun a b => (key a).compare (key b) = .eq) rest (decide_eq_true same)
    rw [lastPerRun, lastPerRun, split, joined, List.filterMap_cons, List.filterMap_cons, List.getLast?_cons,
      List.getLast?_eq_some_getLast inside]
    rfl
  · rename_i different
    have split := List.splitBy_append (r := fun a b => decide ((key a).compare (key b) = .eq)) (l := [first])
      (m := second :: rest) (by simpa using different)
    rw [List.singleton_append] at split
    rw [lastPerRun, lastPerRun, split]
    rfl

theorem map_snd_lastOfRuns (key : α → Key) (parts : List α) :
    (lastOfRuns (label key parts)).1.map (·.2) = lastPerRun key parts := by
  induction parts with
  | nil => rfl
  | cons first parts ih =>
      cases parts with
      | nil => rfl
      | cons second rest =>
          simp only [label, List.map_cons] at ih ⊢
          rw [lastOfRuns, lastPerRun_cons_cons, ← ih]
          dsimp only
          split <;> rfl

theorem sort_label (key : α → Key) (parts : List α) :
    sort (label key parts) = label key (parts.mergeSort fun a b => (key a).le (key b)) := by
  rw [sort, label, label]
  symm
  apply List.map_mergeSort
  exact fun _ _ _ _ => rfl

end Keyed

namespace Form

open Keyed

theorem gather_kept_of_tree {α : Type} {form : Form} {key : α → Key} {absorb : α → α → α × List α}
    (tree : form = .treeSet ∨ form = .treeMap) (parts : List α) :
    (form.gather key absorb parts).kept = rebuilt key parts := by
  rcases tree with rfl | rfl <;>
    simp only [gather, gathered, sort_label, map_snd_lastOfRuns, rebuilt]

end Form

namespace Keyed

variable {α : Type} {key : α → Key} {parts : List α}

section Sorted

variable {sought : Key}

theorem compare_lt_of_mem {first second part : α} {rest : List α}
    (sorted : (first :: second :: rest).Pairwise fun a b => (key a).le (key b))
    (different : ¬ (key first).compare (key second) = .eq) (member : part ∈ second :: rest) :
    (key first).compare (key part) = .lt := by
  have atMost : ((key first).compare (key second)).isLE := List.rel_of_pairwise_cons sorted List.mem_cons_self
  have least : (key first).compare (key second) = .lt := by
    cases order : (key first).compare (key second) <;> simp_all
  rcases List.mem_cons.mp member with rfl | beyond
  · exact least
  · exact Std.TransCmp.lt_of_lt_of_isLE least (List.rel_of_pairwise_cons sorted.of_cons beyond)

/-- Of the parts with some key the last is kept, and no other. -/
theorem filter_lastPerRun (sorted : parts.Pairwise fun a b => (key a).le (key b)) :
    (lastPerRun key parts).filter (hasKey key sought) = (parts.filter (hasKey key sought)).getLast?.toList := by
  induction parts with
  | nil => rfl
  | cons first parts ih =>
      cases parts with
      | nil =>
          have alone : lastPerRun key [first] = [first] := rfl
          rw [alone, List.filter_cons]
          split <;> rfl
      | cons second rest =>
          have later := ih sorted.of_cons
          rw [lastPerRun_cons_cons]
          by_cases found : hasKey key sought first
          · have kept (others : List α) : (first :: others).filter (hasKey key sought) =
                first :: others.filter (hasKey key sought) :=
              List.filter_cons_of_pos found
            rw [hasKey_iff] at found
            by_cases same : (key first).compare (key second) = .eq
            · have alsoFound : (key second).compare sought = .eq :=
                Std.TransCmp.eq_trans (Std.OrientedCmp.eq_symm same) found
              rw [if_pos same, later, kept, List.filter_cons_of_pos (hasKey_iff.mpr alsoFound), List.getLast?_cons_cons]
            · -- All that follow are greater.
              have nothing : (second :: rest).filter (hasKey key sought) = [] := by
                rw [List.filter_eq_nil_iff]
                intro part member alsoFound
                have equal : (key first).compare (key part) = .eq :=
                  Std.TransCmp.eq_trans found (Std.OrientedCmp.eq_symm (hasKey_iff.mp alsoFound))
                rw [compare_lt_of_mem sorted same member] at equal
                cases equal
              rw [if_neg same, kept, kept, later, nothing]
              rfl
          · have skipped (others : List α) : (first :: others).filter (hasKey key sought) =
                others.filter (hasKey key sought) :=
              List.filter_cons_of_neg found
            rw [skipped, ← later]
            split
            · rfl
            · exact skipped _

theorem mem_lastPerRun_or {part : α} {before after : List α}
    (sorted : (before ++ part :: after).Pairwise fun a b => (key a).le (key b)) :
    part ∈ lastPerRun key (before ++ part :: after) ∨ ∃ other ∈ after, (key other).compare (key part) = .eq := by
  by_cases covered : ∃ other ∈ after, (key other).compare (key part) = .eq
  · exact .inr covered
  · have nothing : after.filter (hasKey key (key part)) = [] := by
      rw [List.filter_eq_nil_iff]
      exact fun other member same => covered ⟨other, member, hasKey_iff.mp same⟩
    have itself : hasKey key (key part) part := hasKey_iff.mpr Std.ReflCmp.compare_self
    have kept : (lastPerRun key _).filter (hasKey key (key part)) = _ := filter_lastPerRun sorted
    rw [List.filter_append, List.filter_cons_of_pos itself, nothing, List.getLast?_append] at kept
    refine .inl (List.mem_of_mem_filter (p := hasKey key (key part)) ?_)
    simp [kept]

end Sorted

section Total

variable (key : α → Key) (parts : List α)

theorem mergeSort_pairwise :
    (parts.mergeSort fun a b => (key a).le (key b)).Pairwise fun a b => (key a).le (key b) := by
  apply List.pairwise_mergeSort
  · exact fun a b c => Key.le_trans (key a) (key b) (key c)
  · exact fun a b => Key.le_total (key a) (key b)

theorem filter_mergeSort (sought : Key) :
    (parts.mergeSort fun a b => (key a).le (key b)).filter (hasKey key sought) =
      parts.filter (hasKey key sought) := by
  have alike : (parts.filter (hasKey key sought)).Pairwise fun a b => (key a).le (key b) := by
    rw [List.pairwise_iff_forall_sublist]
    intro first second inside
    have found (part : α) (member : part ∈ [first, second]) : (key part).compare sought = .eq :=
      hasKey_iff.mp (List.of_mem_filter (inside.subset member))
    have equal : (key first).compare (key second) = .eq :=
      Std.TransCmp.eq_trans (found first (by simp)) (Std.OrientedCmp.eq_symm (found second (by simp)))
    rw [Key.le, equal]
    rfl
  have inOrder : (parts.filter (hasKey key sought)).Sublist (parts.mergeSort fun a b => (key a).le (key b)) :=
    List.sublist_mergeSort (fun a b c => Key.le_trans (key a) (key b) (key c))
      (fun a b => Key.le_total (key a) (key b)) alike List.filter_sublist
  have kept := inOrder.filter (hasKey key sought)
  simp only [List.filter_filter, Bool.and_self] at kept
  exact (kept.eq_of_length ((List.mergeSort_perm parts _).filter _).length_eq.symm).symm

theorem filter_rebuilt (sought : Key) :
    (rebuilt key parts).filter (hasKey key sought) = (parts.filter (hasKey key sought)).getLast?.toList := by
  rw [rebuilt, filter_lastPerRun (mergeSort_pairwise key parts), filter_mergeSort]

theorem increasing_rebuilt : Key.Increasing ((rebuilt key parts).map key) := by
  have gathered : (Form.treeSet.gather key (fun former _ => (former, [])) parts).kept = rebuilt key parts :=
    Form.gather_kept_of_tree (.inl rfl) parts
  rw [← gathered]
  exact (Form.gather_in_order (fun _ _ => rfl) .treeSet parts).1

end Total

theorem rebuilt_of_increasing (increasing : Key.Increasing (parts.map key)) : rebuilt key parts = parts := by
  have gathered : (Form.treeSet.gather key (fun former _ => (former, [])) parts).kept = rebuilt key parts :=
    Form.gather_kept_of_tree (.inl rfl) parts
  rw [← gathered]
  exact Form.gather_kept_of_ordered increasing trivial (by simp) (by simp)

end Keyed

namespace Value

open Store Keyed

/-- The copy of a tree holds what comes of the copies of its parts, when these are sorted by their keys as they are
now, those with equal keys staying in their order, and of each run of equal keys the last is kept. So the keys
increase, no part is lost but for one behind it with an equal key, and parts that are in order stay in place. -/
theorem copy_rebuilds {store later : Store} {form : Form} {parts : List Value} {copy : Value} (sound : store.Sound)
    (live : store.Live (.node form parts)) (tree : form = .treeSet ∨ form = .treeMap)
    (made : (node form parts).copy.run store = (.ok copy, later)) :
    ∃ copies middle kept, InTurn Value.copy store parts copies middle ∧
      copies.map middle.partKey = parts.map store.partKey ∧
      copy = .node form kept ∧ kept = rebuilt middle.partKey copies ∧
      Key.Increasing (kept.map later.partKey) ∧
      (∀ before part after, (copies.mergeSort fun a b => (middle.partKey a).le (middle.partKey b)) =
          before ++ part :: after →
        part ∈ kept ∨ ∃ other ∈ after, (middle.partKey other).compare (middle.partKey part) = .eq) ∧
      (∀ sought, kept.filter (hasKey middle.partKey sought) =
        (copies.filter (hasKey middle.partKey sought)).getLast?.toList) ∧
      (Key.Increasing (parts.map store.partKey) → kept = copies) := by
  have owning : Tree.Owning form := by
    rcases tree with rfl | rfl <;> simp [Tree.Owning]
  have same : form.copied = form := by
    rcases tree with rfl | rfl <;> rfl
  obtain ⟨copies, middle, inTurn, keys, rfl, stays⟩ := copy_node_cases sound owning live made
  rw [same, Store.gather, Form.gather_kept_of_tree tree] at stays ⊢
  refine ⟨copies, middle, _, inTurn, keys, rfl, rfl, ?_, ?_, filter_rebuilt _ copies, ?_⟩
  · rw [List.map_congr_left stays]
    exact increasing_rebuilt _ copies
  · intro before part after sorted
    have inOrder := mergeSort_pairwise middle.partKey copies
    rw [rebuilt, sorted]
    rw [sorted] at inOrder
    exact mem_lastPerRun_or inOrder
  · intro increasing
    apply rebuilt_of_increasing
    rwa [keys]

end Value

/-! A set whose first key is in a cell that was changed since. It is now as great as the last one. -/

def Value.digit (value : Int) : Value :=
  .atom (.integer .i32 value)

def Value.drifted : Value :=
  .node .treeSet [.handle .rc 0, digit 2, digit 3]

def Store.drifted : Store :=
  ⟨#[some ⟨1, [.node (.refCell false) [.digit 3]]⟩], 0⟩

namespace Value

open Store Keyed

theorem sound_drifted : Store.drifted.Sound where
  closed address other points := by
    obtain ⟨contents, found, inside⟩ := points
    cases address with
    | zero =>
        cases found
        simp [addressesOfAll, digit, addresses] at inside
    | succ address => simp [Store.drifted, contents?, get?] at found
  counted address allocation found := by
    cases address with
    | zero =>
        cases found
        exact Nat.one_pos
    | succ address => simp [Store.drifted, get?] at found

theorem live_drifted : Store.drifted.Live drifted := by
  intro address member
  obtain rfl : address = 0 := by simpa [drifted, addresses, addressesOfAll, digit] using member
  rfl

theorem exists_copy_drifted : ∃ copy later, drifted.copy.run Store.drifted = (.ok copy, later) := by
  have cell : ∃ copy later, copyTo 1 (.node (.refCell false) [digit 3]) Store.drifted = (.ok copy, later) :=
    ⟨_, _, (copyTo_node_eq_ok_iff (by simp [Tree.Owning])).mpr
      ⟨by simp, [digit 3], Store.drifted, .cons rfl .nil, rfl⟩⟩
  obtain ⟨content, middle, cellMade⟩ := cell
  have key : ∃ copy later, copyTo 2 (.handle .rc 0) Store.drifted = (.ok copy, later) :=
    ⟨_, _, copyTo_handle_eq_ok_iff.mpr
      ⟨_, copyAllocation_eq_ok_iff.mpr ⟨[content], middle, .cons cellMade .nil, rfl, rfl⟩, rfl⟩⟩
  obtain ⟨keyCopy, last, keyMade⟩ := key
  have run : drifted.copy.run Store.drifted = copyTo 2 drifted Store.drifted := rfl
  rw [run, drifted]
  exact ⟨_, _, (copyTo_node_eq_ok_iff (by simp [Tree.Owning])).mpr
    ⟨by simp, [keyCopy, digit 2, digit 3], last, .cons keyMade (.cons rfl (.cons rfl .nil)), rfl⟩⟩

theorem rebuilt_drifted {key : Value → Key} {first : Value} (atFirst : key first = .number 3)
    (atSecond : key (digit 2) = .number 2) (atThird : key (digit 3) = .number 3) :
    rebuilt key [first, digit 2, digit 3] = [digit 2, digit 3] := by
  have less : Ord.compare (2 : Int) 3 = .lt := by decide
  have more : Ord.compare (3 : Int) 2 = .gt := by decide
  have same : Ord.compare (3 : Int) 3 = .eq := by decide
  have sorted : ([first, digit 2, digit 3].mergeSort fun a b => (key a).le (key b)) =
      [digit 2, first, digit 3] := by
    simp [List.mergeSort, List.MergeSort.Internal.splitInTwo, Key.le, Key.compare, atFirst, atSecond, atThird, less,
      more]
  rw [rebuilt, sorted, lastPerRun_cons_cons, lastPerRun_cons_cons, atFirst, atSecond, atThird, Key.compare,
    Key.compare, less, same]
  rfl

theorem copy_rebuilds_drifted :
    Store.drifted.Sound ∧ Store.drifted.Live drifted ∧
      ∃ later, drifted.copy.run Store.drifted = (.ok (.node .treeSet [digit 2, digit 3]), later) := by
  obtain ⟨copy, later, made⟩ := exists_copy_drifted
  refine ⟨sound_drifted, live_drifted, later, ?_⟩
  obtain ⟨copies, middle, kept, inTurn, keys, rfl, rfl, _⟩ := copy_rebuilds sound_drifted live_drifted (.inl rfl) made
  rw [made]
  cases inTurn with
  | cons first rest =>
      cases rest with
      | cons second rest =>
          cases rest with
          | cons third rest =>
              cases second
              cases third
              cases rest
              simp only [List.map_cons, List.map_nil, List.cons.injEq, and_true] at keys
              obtain ⟨atFirst, atSecond, atThird⟩ := keys
              exact congrArg (fun kept => (Except.ok (node .treeSet kept), later))
                (rebuilt_drifted atFirst atSecond atThird)

end Value

end Replica
