import Replica.Proofs.Memory.Gathering

/-!
The order of keys, and what is in order after sorting and after arranging a queue. Both leave alone what
is in order already.
-/

namespace Replica

namespace Key

theorem induct {motive : Key → Prop} (number : ∀ value, motive (.number value))
    (text : ∀ value, motive (.text value))
    (sequence : ∀ items, (∀ item ∈ items, motive item) → motive (.sequence items))
    (other : motive .other) : ∀ key, motive key := by
  intro key
  refine Key.rec (motive_2 := fun keys => ∀ key ∈ keys, motive key) number text sequence other ?_ ?_ key
  · intro key impossible
    cases impossible
  · intro first rest firstHolds restHold key member
    rcases List.mem_cons.mp member with same | later
    · exact same ▸ firstHolds
    · exact restHold key later

theorem compare_of_rank_ne {a b : Key} (different : a.rank ≠ b.rank) :
    a.compare b = Ord.compare a.rank b.rank := by
  cases a <;> cases b <;> simp_all [compare, rank]

theorem compareAll_swap {items : List Key}
    (each : ∀ item ∈ items, ∀ key, (item.compare key).swap = key.compare item) (keys : List Key) :
    (compareAll items keys).swap = compareAll keys items := by
  induction items generalizing keys with
  | nil => cases keys <;> rfl
  | cons item items ih =>
      cases keys with
      | nil => rfl
      | cons key keys =>
          have rest := ih (fun next member => each next (by simp [member])) keys
          rw [compareAll, compareAll, Ordering.swap_then, each item (by simp) key, rest]

theorem compare_swap_of_rank_ne {a b : Key} (different : a.rank ≠ b.rank) :
    (a.compare b).swap = b.compare a := by
  rw [compare_of_rank_ne different, compare_of_rank_ne (Ne.symm different)]
  exact Nat.compare_swap a.rank b.rank

theorem compare_swap (a b : Key) : (a.compare b).swap = b.compare a := by
  induction a using Key.induct generalizing b with
  | number value =>
      cases b with
      | number => exact Std.OrientedOrd.eq_swap.symm
      | _ => exact compare_swap_of_rank_ne (by simp [rank])
  | text value =>
      cases b with
      | text => exact Std.OrientedOrd.eq_swap.symm
      | _ => exact compare_swap_of_rank_ne (by simp [rank])
  | sequence items ih =>
      cases b with
      | sequence keys => exact compareAll_swap ih keys
      | _ => exact compare_swap_of_rank_ne (by simp [rank])
  | other =>
      cases b with
      | other => rfl
      | _ => exact compare_swap_of_rank_ne (by simp [rank])

/-- Of keys none of which is greater than the next, the first and the last compare as the first two do,
or as the last two if the first two are equal. -/
def Chained {α : Type} (compare : α → α → Ordering) (a b c : α) : Prop :=
  (compare a b).isLE → (compare b c).isLE → compare a c = (compare a b).then (compare b c)

theorem chained_of_transOrd {α : Type} [Ord α] [Std.TransOrd α] (a b c : α) :
    Chained Ord.compare a b c := by
  intro first second
  cases firstIs : Ord.compare a b with
  | lt => exact Std.TransCmp.lt_of_lt_of_isLE firstIs second
  | eq => exact Std.TransCmp.congr_left firstIs
  | gt => simp [firstIs] at first

theorem chained_compareAll {items : List Key} (each : ∀ item ∈ items, ∀ b c, Chained compare item b c)
    (keys last : List Key) : Chained compareAll items keys last := by
  induction items generalizing keys last with
  | nil => cases keys <;> cases last <;> simp [Chained, compareAll]
  | cons item items ih =>
      rcases keys with _ | ⟨key, keys⟩
      · simp [Chained, compareAll]
      rcases last with _ | ⟨final, last⟩
      · simp [Chained, compareAll]
      have first := each item (by simp) key final
      have rest := ih (fun next member => each next (by simp [member])) keys last
      simp only [Chained, compareAll] at first rest ⊢
      cases oneIs : item.compare key with
      | lt =>
          intro _ notGreater
          rw [oneIs] at first
          have finalIs := first rfl (Ordering.isLE_left_of_isLE_then notGreater)
          rw [finalIs]
          rfl
      | eq =>
          rw [oneIs] at first
          intro restFirst notGreater
          rw [first rfl (Ordering.isLE_left_of_isLE_then notGreater)]
          cases nextIs : key.compare final with
          | lt =>
              rw [Ordering.eq_then] at restFirst
              cases restIs : compareAll items keys <;> simp_all
          | eq =>
              rw [nextIs] at notGreater
              exact rest restFirst notGreater
          | gt => simp [nextIs] at notGreater
      | gt => simp

theorem rank_le_of_isLE {a b : Key} (notGreater : (a.compare b).isLE) : a.rank ≤ b.rank := by
  by_cases same : a.rank = b.rank
  · exact Nat.le_of_eq same
  · rw [compare_of_rank_ne same] at notGreater
    exact Nat.isLE_compare.mp notGreater

theorem compare_of_rank_lt {a b : Key} (less : a.rank < b.rank) : a.compare b = .lt := by
  rw [compare_of_rank_ne (Nat.ne_of_lt less)]
  exact Nat.compare_eq_lt.mpr less

theorem chained_of_rank_ne {a b c : Key} (different : a.rank ≠ b.rank ∨ b.rank ≠ c.rank) :
    Chained compare a b c := by
  intro first second
  have lower := rank_le_of_isLE first
  have upper := rank_le_of_isLE second
  rw [compare_of_rank_lt (by omega : a.rank < c.rank)]
  by_cases same : a.rank = b.rank
  · rw [compare_of_rank_lt (by omega : b.rank < c.rank)]
    cases firstIs : a.compare b <;> simp_all
  · rw [compare_of_rank_lt (by omega : a.rank < b.rank)]
    rfl

theorem chained (a b c : Key) : Chained compare a b c := by
  induction a using Key.induct generalizing b c with
  | number value =>
      cases b with
      | number =>
          cases c with
          | number => exact chained_of_transOrd _ _ _
          | _ => exact chained_of_rank_ne (by simp [rank])
      | _ => exact chained_of_rank_ne (by simp [rank])
  | text value =>
      cases b with
      | text =>
          cases c with
          | text => exact chained_of_transOrd _ _ _
          | _ => exact chained_of_rank_ne (by simp [rank])
      | _ => exact chained_of_rank_ne (by simp [rank])
  | sequence items ih =>
      cases b with
      | sequence keys =>
          cases c with
          | sequence last => exact chained_compareAll ih keys last
          | _ => exact chained_of_rank_ne (by simp [rank])
      | _ => exact chained_of_rank_ne (by simp [rank])
  | other =>
      cases b with
      | other =>
          cases c with
          | other => exact fun _ _ => rfl
          | _ => exact chained_of_rank_ne (by simp [rank])
      | _ => exact chained_of_rank_ne (by simp [rank])

instance : Std.TransCmp Key.compare where
  eq_swap {a b} := (compare_swap b a).symm
  isLE_trans {a b c} first second := by
    rw [chained a b c first second]
    cases firstIs : a.compare b <;> simp_all

theorem le_trans (a b c : Key) (first : a.le b) (second : b.le c) : a.le c := by
  exact Std.TransCmp.isLE_trans first second

theorem le_total (a b : Key) : a.le b || b.le a := by
  rw [le, le, ← compare_swap a b]
  cases a.compare b <;> rfl

end Key

namespace Keyed

variable {α : Type} {key : α → Key} {absorb : α → α → α × List α} {parts : List α}
  {items : List (Keyed α)} {new item : Keyed α}

theorem sort_pairwise (items : List (Keyed α)) : (sort items).Pairwise fun a b => a.1.le b.1 := by
  apply List.pairwise_mergeSort
  · exact fun a b c => Key.le_trans a.1 b.1 c.1
  · exact fun a b => Key.le_total a.1 b.1

/-- Whether items carry the keys of their parts. -/
def Labelled (key : α → Key) (items : List (Keyed α)) : Prop :=
  ∀ item ∈ items, item.1 = key item.2

theorem labelled_label (key : α → Key) (parts : List α) : Labelled key (label key parts) := by
  intro item member
  obtain ⟨part, _, rfl⟩ := List.mem_map.mp member
  rfl

theorem Labelled.of_perm {others : List (Keyed α)} (labelled : Labelled key items)
    (same : others.Perm items) : Labelled key others :=
  fun item member => labelled item (same.mem_iff.mp member)

theorem Labelled.label_map_snd (labelled : Labelled key items) : label key (items.map (·.2)) = items := by
  rw [label, List.map_map]
  conv => rhs; rw [← List.map_id items]
  apply List.map_congr_left
  intro item member
  exact Prod.ext (labelled item member).symm rfl

theorem increasing_lastOfRuns (sorted : items.Pairwise fun a b => a.1.le b.1) :
    (lastOfRuns items).1.Pairwise fun a b => a.1.compare b.1 = .lt := by
  fun_induction lastOfRuns items with
  | case1 => exact .nil
  | case2 other => exact List.pairwise_singleton _ _
  | case3 other next items kept dropped found same ih =>
      rw [found] at ih
      exact ih sorted.of_cons
  | case4 other next items kept dropped found distinct ih =>
      rw [found] at ih
      refine List.pairwise_cons.mpr ⟨?_, ih sorted.of_cons⟩
      intro further member
      have inside : further ∈ next :: items := mem_lastOfRuns (found ▸ member)
      have least : other.1.compare next.1 = .lt := by
        have atMost : (other.1.compare next.1).isLE := List.rel_of_pairwise_cons sorted List.mem_cons_self
        cases order : other.1.compare next.1 <;> simp_all
      rcases List.mem_cons.mp inside with rfl | beyond
      · exact least
      · have above : (next.1.compare further.1).isLE := List.rel_of_pairwise_cons sorted.of_cons beyond
        exact Std.TransCmp.lt_of_lt_of_isLE least above

theorem map_fst_insert (absorb : α → α → α × List α) (new : Keyed α) (items : List (Keyed α)) :
    (insert absorb new items).1.map (·.1) = items.map (·.1) ∨
      ((∀ item ∈ items, item.1.compare new.1 ≠ .eq) ∧
        (insert absorb new items).1.map (·.1) = items.map (·.1) ++ [new.1]) := by
  induction items with
  | nil => exact .inr ⟨by simp, rfl⟩
  | cons item items ih =>
      rw [insert]
      split
      · exact .inl rfl
      · rename_i apart
        rcases ih with same | ⟨different, added⟩
        · exact .inl (by simp [same])
        · exact .inr ⟨List.forall_mem_cons.mpr ⟨apart, different⟩, by simp [added]⟩

theorem distinct_insert (distinct : Key.Distinct (items.map (·.1))) :
    Key.Distinct ((insert absorb new items).1.map (·.1)) := by
  rcases map_fst_insert absorb new items with same | ⟨different, added⟩
  · rw [same]
    exact distinct
  · rw [added, Key.Distinct, List.pairwise_append]
    refine ⟨distinct, List.pairwise_singleton _ _, ?_⟩
    intro first member second isNew
    obtain ⟨item, inside, rfl⟩ := List.mem_map.mp member
    rw [List.mem_singleton.mp isNew]
    exact different item inside

theorem distinct_insertAll (items : List (Keyed α)) :
    Key.Distinct ((insertAll absorb items).1.map (·.1)) := by
  have folded : ∀ (kept : List (Keyed α)) (dropped : List α), Key.Distinct (kept.map (·.1)) →
      Key.Distinct ((items.foldl (insertNext absorb) (kept, dropped)).1.map (·.1)) := by
    induction items with
    | nil => exact fun kept dropped distinct => distinct
    | cons item items ih => exact fun kept dropped distinct => ih _ _ (distinct_insert distinct)
  exact folded [] [] .nil

theorem Labelled.map_key (labelled : Labelled key items) : (items.map (·.2)).map key = items.map (·.1) := by
  rw [List.map_map]
  exact List.map_congr_left fun item member => (labelled item member).symm

theorem Labelled.insert (keepsKey : ∀ old new, key (absorb old new).1 = key old)
    (labelled : Labelled key items) (isNew : new.1 = key new.2) :
    Labelled key (Keyed.insert absorb new items).1 := by
  induction items with
  | nil => simpa [Keyed.insert, Labelled] using isNew
  | cons first items ih =>
      obtain ⟨here, rest⟩ := List.forall_mem_cons.mp labelled
      rw [Keyed.insert]
      split
      · exact List.forall_mem_cons.mpr ⟨by rw [keepsKey, ← here], rest⟩
      · exact List.forall_mem_cons.mpr ⟨here, ih rest⟩

theorem Labelled.insertAll (keepsKey : ∀ old new, key (absorb old new).1 = key old)
    (labelled : Labelled key items) : Labelled key (Keyed.insertAll absorb items).1 := by
  have folded : ∀ (kept : List (Keyed α)) (dropped : List α), Labelled key kept →
      Labelled key (items.foldl (insertNext absorb) (kept, dropped)).1 := by
    induction items with
    | nil => exact fun kept dropped keptLabelled => keptLabelled
    | cons item items ih =>
        obtain ⟨here, rest⟩ := List.forall_mem_cons.mp labelled
        exact fun kept dropped keptLabelled => ih rest _ _ (keptLabelled.insert keepsKey here)
  exact folded [] [] (by simp [Labelled])

end Keyed

namespace PriorityQueue

variable {α : Type} {items : Array (Keyed α)} {first place child above : Nat}

abbrev Under (child place : Nat) : Prop :=
  child = 2 * place + 1 ∨ child = 2 * place + 2

/-- From a place on, all items are at least their children. -/
def ArrangedFrom (items : Array (Keyed α)) (first : Nat) : Prop :=
  ∀ place child, first ≤ place → Under child place → atMost items child place

/-- What holds while an item moves down: only at its own place may the order be broken, and its children
are at most its parent. -/
structure Sinking (items : Array (Keyed α)) (first gap : Nat) : Prop where
  apart : ∀ place child, first ≤ place → place ≠ gap → Under child place → atMost items child place
  across : ∀ above child, first ≤ above → Under gap above → Under child gap → atMost items child above

theorem atMost_iff : atMost items child place ↔
    ∀ low high, items[child]? = some low → items[place]? = some high → low.1.le high.1 := by
  unfold atMost
  cases items[child]? with
  | none => simp
  | some low => cases items[place]? <;> simp

theorem atMost_of_size_le (beyond : items.size ≤ child) : atMost items child place := by
  simp [atMost_iff, Array.getElem?_eq_none beyond]

theorem atMost_refl (items : Array (Keyed α)) (place : Nat) : atMost items place place := by
  rw [atMost_iff]
  intro low high found same
  obtain rfl : low = high := Option.some.inj (found.symm.trans same)
  simpa using Key.le_total low.1 low.1

theorem atMost_trans (inside : place < items.size) (lower : atMost items child place)
    (upper : atMost items place above) : atMost items child above := by
  rw [atMost_iff] at lower upper ⊢
  intro low high lowFound highFound
  have found := Array.getElem?_eq_getElem inside
  exact Key.le_trans _ _ _ (lower low _ lowFound found) (upper _ high found highFound)

theorem atMost_of_not (greater : ¬ atMost items place child) : atMost items child place := by
  simp only [atMost_iff, not_forall] at greater ⊢
  obtain ⟨high, low, highFound, lowFound, notLe⟩ := greater
  intro low' high' lowFound' highFound'
  obtain rfl : low = low' := Option.some.inj (lowFound.symm.trans lowFound')
  obtain rfl : high = high' := Option.some.inj (highFound.symm.trans highFound')
  simpa [notLe] using Key.le_total low.1 high.1

theorem greaterChild_lt_size (inside : 2 * place + 1 < items.size) :
    greaterChild items place < items.size := by
  unfold greaterChild
  split
  · rename_i both
    simp only [Bool.and_eq_true, decide_eq_true_eq] at both
    exact both.1
  · exact inside

theorem under_greaterChild (items : Array (Keyed α)) (place : Nat) :
    Under (greaterChild items place) place := by
  unfold greaterChild
  split
  · exact Or.inr rfl
  · exact Or.inl rfl

theorem atMost_greaterChild (under : Under child place) :
    atMost items child (greaterChild items place) := by
  unfold greaterChild
  split
  · rename_i both
    simp only [Bool.and_eq_true, decide_eq_true_eq] at both
    rcases under with rfl | rfl
    · exact both.2
    · exact atMost_refl items _
  · rename_i notBoth
    rcases under with rfl | rfl
    · exact atMost_refl items _
    · by_cases inside : 2 * place + 2 < items.size
      · apply atMost_of_not
        simpa [inside] using notBoth
      · exact atMost_of_size_le (Nat.le_of_not_lt inside)

def exchanged (place other index : Nat) : Nat :=
  if index = place then other else if index = other then place else index

theorem atMost_swapIfInBounds (inside : place < items.size) (childInside : child < items.size)
    (low high : Nat) :
    atMost (items.swapIfInBounds place child) low high =
      atMost items (exchanged place child low) (exchanged place child high) := by
  have found : ∀ index, (items.swapIfInBounds place child)[index]? =
      items[exchanged place child index]? := by
    intro index
    unfold exchanged
    grind
  simp only [atMost, found]

theorem Sinking.swap (sinking : Sinking items first place) (bound : first ≤ place)
    (inside : 2 * place + 1 < items.size) (greater : ¬ atMost items (greaterChild items place) place) :
    Sinking (items.swapIfInBounds place (greaterChild items place)) first
      (greaterChild items place) := by
  have under := under_greaterChild items place
  have largest : ∀ child, Under child place → atMost items child (greaterChild items place) :=
    fun child => atMost_greaterChild
  have placeInside : place < items.size := by omega
  have swapped := atMost_swapIfInBounds placeInside (greaterChild_lt_size inside)
  generalize greaterChild items place = gap at *
  have atPlace : exchanged place gap place = gap := if_pos rfl
  have atGap : exchanged place gap gap = place := by
    unfold exchanged
    split <;> simp_all
  have elsewhere : ∀ index, index ≠ place → index ≠ gap → exchanged place gap index = index := by
    intro index notPlace notGap
    rw [exchanged, if_neg notPlace, if_neg notGap]
  constructor
  · intro above child aboveBound notGap childUnder
    rw [swapped]
    by_cases isPlace : above = place
    · subst isPlace
      rw [atPlace]
      by_cases isGap : child = gap
      · rw [isGap, atGap]
        exact atMost_of_not greater
      · rw [elsewhere child (by omega) isGap]
        exact largest child childUnder
    · rw [elsewhere above isPlace notGap]
      -- The child that came up is at most what stands above it, as it was when it stood one place lower.
      by_cases childIsPlace : child = place
      · subst childIsPlace
        rw [atPlace]
        exact sinking.across above gap aboveBound childUnder under
      · rw [elsewhere child childIsPlace (by omega)]
        exact sinking.apart above child aboveBound isPlace childUnder
  · intro above child aboveBound gapUnder childUnder
    obtain rfl : above = place := by omega
    rw [swapped, atPlace, elsewhere child (by omega) (by omega)]
    exact sinking.apart gap child (by omega) (by omega) childUnder

theorem siftDown_arrangedFrom (sinking : Sinking items first place) (bound : first ≤ place) :
    ArrangedFrom (siftDown items place) first := by
  fun_induction siftDown items place with
  | case1 items place inside child atMost =>
      intro above below aboveBound under
      by_cases isPlace : above = place
      · subst isPlace
        exact atMost_trans (greaterChild_lt_size inside) (atMost_greaterChild under) atMost
      · exact sinking.apart above below aboveBound isPlace under
  | case2 items place inside child greater ih =>
      have further := lt_greaterChild items place
      exact ih (sinking.swap bound inside greater) (by omega)
  | case3 items place outside =>
      intro above below aboveBound under
      by_cases isPlace : above = place
      · exact atMost_of_size_le (by omega)
      · exact sinking.apart above below aboveBound isPlace under

theorem ArrangedFrom.siftDown (arranged : ArrangedFrom items (first + 1)) :
    ArrangedFrom (siftDown items first) first := by
  apply siftDown_arrangedFrom _ (Nat.le_refl first)
  constructor
  · intro place child bound isOther under
    exact arranged place child (by omega) under
  · intro above child bound under _
    omega

theorem ArrangedFrom.foldl_siftDown (arranged : ArrangedFrom items first) :
    ArrangedFrom ((List.range first).reverse.foldl PriorityQueue.siftDown items) 0 := by
  induction first generalizing items with
  | zero => exact arranged
  | succ first ih =>
      rw [List.range_succ, List.reverse_append]
      exact ih arranged.siftDown

theorem arrange_arrangedFrom (items : Array (Keyed α)) : ArrangedFrom (arrange items) 0 := by
  apply ArrangedFrom.foldl_siftDown
  intro place child bound under
  exact atMost_of_size_le (by omega)

theorem siftDown_of_arrangedFrom (arranged : ArrangedFrom items 0) (place : Nat) :
    siftDown items place = items := by
  have atMost := arranged place _ (Nat.zero_le place) (under_greaterChild items place)
  rw [siftDown]
  simp [atMost]

theorem arrange_of_arrangedFrom (arranged : ArrangedFrom items 0) : arrange items = items := by
  unfold arrange
  induction (List.range (items.size / 2)).reverse with
  | nil => rfl
  | cons place places ih => rw [List.foldl_cons, siftDown_of_arrangedFrom arranged, ih]

theorem arrange_arrange (items : Array (Keyed α)) : arrange (arrange items) = arrange items :=
  arrange_of_arrangedFrom (arrange_arrangedFrom items)

end PriorityQueue

namespace Form

open Keyed

variable {α : Type} {key : α → Key} {absorb : α → α → α × List α} {form : Form} {parts : List α}

theorem gather_in_order (keepsKey : ∀ old new, key (absorb old new).1 = key old) (form : Form)
    (parts : List α) :
    form.Ordered ((form.gather key absorb parts).kept.map key) ∧
      form.Hashed ((form.gather key absorb parts).kept.map key) := by
  have labelled := labelled_label key parts
  cases form with
  | treeSet | treeMap =>
      have sorted : Labelled key (sort (label key parts)) := labelled.of_perm (sort_perm _)
      have kept : Labelled key (lastOfRuns (sort (label key parts))).1 := fun item member =>
        sorted item (mem_lastOfRuns member)
      refine ⟨?_, trivial⟩
      simp only [gather, gathered, kept.map_key]
      exact List.pairwise_map.mpr (increasing_lastOfRuns (sort_pairwise _))
  | hashSet | hashMap =>
      refine ⟨trivial, ?_⟩
      simp only [gather, gathered, (labelled.insertAll keepsKey).map_key]
      exact distinct_insertAll _
  | _ => exact ⟨trivial, trivial⟩

theorem gather_gather (keepsKey : ∀ old new, key (absorb old new).1 = key old) (form : Form) (parts : List α) :
    (form.gather key absorb (form.gather key absorb parts).kept).kept = (form.gather key absorb parts).kept := by
  by_cases queue : form = .priorityQueue
  · subst queue
    have arranged := (PriorityQueue.arrange_perm (label key parts).toArray).toList
    have labelled := (labelled_label key parts).of_perm arranged
    simp only [gather, gathered]
    rw [labelled.label_map_snd, Array.toArray_toList, PriorityQueue.arrange_arrange]
  · obtain ⟨ordered, hashed⟩ := gather_in_order keepsKey form parts
    refine gather_kept_of_ordered ordered hashed queue ?_
    rintro rfl
    have labelled := (labelled_label key parts).of_perm (sort_perm _)
    simp only [gather, gathered, labelled.map_key]
    exact List.pairwise_map.mpr (sort_pairwise _)

end Form

namespace Value

theorem partKey_absorb (store : Store) (former new : Value) :
    store.partKey (former.absorb new).1 = store.partKey former := by
  fun_cases Value.absorb former new with
  | case1 => rfl
  | case2 => rfl

end Value

namespace Store

theorem assemble_in_order (store : Store) (form : Form) (parts : List Value) :
    ∃ kept, (store.assemble form parts).1 = .node form kept ∧ form.Ordered (kept.map store.partKey) ∧
      form.Hashed (kept.map store.partKey) :=
  ⟨_, rfl, Form.gather_in_order (Value.partKey_absorb store) form parts⟩

end Store

end Replica
