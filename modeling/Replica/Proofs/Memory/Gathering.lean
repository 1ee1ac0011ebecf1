import Replica.Memory.Collection
import Mathlib.Data.List.Perm.Basic

/-!
What collections make of the parts that they are put together from. It depends on nothing but the keys,
every part is either kept or dropped, and a collection that was in order stays as it is.
-/

namespace Replica

namespace PriorityQueue

variable {α β : Type}

theorem swapIfInBounds_perm (items : Array (Keyed α)) (place other : Nat) :
    (items.swapIfInBounds place other).Perm items := by
  rw [Array.swapIfInBounds_def]
  split
  · split
    · exact Array.swap_perm _ _
    · exact .refl items
  · exact .refl items

theorem siftDown_perm (items : Array (Keyed α)) (place : Nat) : (siftDown items place).Perm items := by
  fun_induction siftDown items place with
  | case1 => exact .refl _
  | case2 items place _ child _ ih => exact ih.trans (swapIfInBounds_perm items place child)
  | case3 => exact .refl _

theorem foldl_siftDown_perm (places : List Nat) (items : Array (Keyed α)) :
    (places.foldl siftDown items).Perm items := by
  induction places generalizing items with
  | nil => exact .refl items
  | cons place places ih => exact (ih _).trans (siftDown_perm items place)

theorem arrange_perm (items : Array (Keyed α)) : (arrange items).Perm items := by
  exact foldl_siftDown_perm _ items

theorem siftUp_perm (items : Array (Keyed α)) (place : Nat) : (siftUp items place).Perm items := by
  fun_induction siftUp items place with
  | case1 => exact .refl _
  | case2 items place _ _ ih => exact ih.trans (swapIfInBounds_perm items place (parent place))
  | case3 => exact .refl _

theorem settle_perm (items : Array (Keyed α)) (place : Nat) : (settle items place).Perm items := by
  fun_induction settle items place with
  | case1 items place _ child ih => exact ih.trans (swapIfInBounds_perm items place child)
  | case2 items place _ => exact siftUp_perm items place

theorem push_perm (items : Array (Keyed α)) (item : Keyed α) : (push items item).Perm (items.push item) :=
  siftUp_perm _ _

theorem pop?_perm {items queue : Array (Keyed α)} {greatest : Keyed α}
    (popped : pop? items = some (greatest, queue)) : (greatest :: queue.toList).Perm items.toList := by
  obtain ⟨list⟩ := items
  rcases list.eq_nil_or_concat' with rfl | ⟨_ | ⟨first, rest⟩, last, rfl⟩
  · simp [pop?] at popped
  · obtain ⟨rfl, rfl⟩ : last = greatest ∧ #[] = queue := by simpa [pop?] using popped
    simp
  · have back : (first :: (rest ++ [last])).getLast? = some last := by
      rw [← List.cons_append, List.getLast?_concat]
    have front : (first :: (rest ++ [last])).dropLast = first :: rest := by
      rw [← List.cons_append, List.dropLast_concat]
    obtain ⟨rfl, rfl⟩ : first = greatest ∧ settle (last :: rest).toArray 0 = queue := by
      simpa [pop?, back, front] using popped
    have settled := (settle_perm (last :: rest).toArray 0).toList
    exact (settled.cons first).trans ((List.perm_append_singleton last rest).symm.cons first)

variable (f : α → β)

theorem map_swapIfInBounds (items : Array (Keyed α)) (place other : Nat) :
    (items.swapIfInBounds place other).map (Prod.map id f) =
      (items.map (Prod.map id f)).swapIfInBounds place other := by
  apply Array.ext
  · simp
  · intro index left right
    simp only [Array.getElem_map, Array.getElem_swapIfInBounds]
    grind

theorem atMost_map (items : Array (Keyed α)) (place other : Nat) :
    atMost (items.map (Prod.map id f)) place other = atMost items place other := by
  simp only [atMost, Array.getElem?_map]
  cases items[place]? <;> cases items[other]? <;> rfl

theorem greaterChild_map (items : Array (Keyed α)) (place : Nat) :
    greaterChild (items.map (Prod.map id f)) place = greaterChild items place := by
  simp [greaterChild, atMost_map]

theorem map_siftDown (items : Array (Keyed α)) (place : Nat) :
    (siftDown items place).map (Prod.map id f) = siftDown (items.map (Prod.map id f)) place := by
  fun_induction siftDown items place with
  | case1 items place inside child atMost =>
      rw [siftDown]
      simp [inside, greaterChild_map, atMost_map, child, atMost]
  | case2 items place inside child notAtMost ih =>
      rw [ih, map_swapIfInBounds]
      conv => rhs; rw [siftDown]
      simp [inside, greaterChild_map, atMost_map, child, notAtMost]
  | case3 items place outside =>
      rw [siftDown]
      simp [outside]

theorem map_arrange (items : Array (Keyed α)) :
    (arrange items).map (Prod.map id f) = arrange (items.map (Prod.map id f)) := by
  have folded : ∀ (places : List Nat) (items : Array (Keyed α)),
      (places.foldl siftDown items).map (Prod.map id f) =
        places.foldl siftDown (items.map (Prod.map id f)) := by
    intro places
    induction places with
    | nil => exact fun items => rfl
    | cons place places ih =>
        intro items
        rw [List.foldl_cons, ih, map_siftDown, List.foldl_cons]
  rw [arrange, folded, arrange, Array.size_map]

end PriorityQueue

namespace Keyed

variable {α β γ : Type} {key : α → Key} {absorb : α → α → α × List α}

@[simp]
theorem map_snd_label (key : α → Key) (parts : List α) : (label key parts).map (·.2) = parts := by
  simp [label, Function.comp_def]

@[simp]
theorem map_fst_label (key : α → Key) (parts : List α) : (label key parts).map (·.1) = parts.map key := by
  simp [label]

/-! Everything below is the same on items with the same keys. -/

section Map

variable {f : α → β} {absorb' : β → β → β × List β}

theorem map_sort (f : α → β) (items : List (Keyed α)) :
    (sort items).map (Prod.map id f) = sort (items.map (Prod.map id f)) := by
  exact List.map_mergeSort (fun _ _ _ _ => rfl)

theorem lastOfRuns_map (f : α → β) (items : List (Keyed α)) :
    lastOfRuns (items.map (Prod.map id f)) =
      ((lastOfRuns items).1.map (Prod.map id f), (lastOfRuns items).2.map f) := by
  fun_induction lastOfRuns items with
  | case1 => rfl
  | case2 item => rfl
  | case3 item next items kept dropped found same ih =>
      simp only [List.map_cons, lastOfRuns, Prod.map_fst, id_eq] at ih ⊢
      simp [ih, found, same]
  | case4 item next items kept dropped found different ih =>
      simp only [List.map_cons, lastOfRuns, Prod.map_fst, id_eq] at ih ⊢
      simp [ih, found, different]

theorem insert_map (agree : ∀ old new, absorb' (f old) (f new) = (absorb old new).map f (List.map f))
    (new : Keyed α) (items : List (Keyed α)) :
    insert absorb' (new.map id f) (items.map (Prod.map id f)) =
      ((insert absorb new items).1.map (Prod.map id f), (insert absorb new items).2.map f) := by
  induction items with
  | nil => rfl
  | cons item items ih =>
      simp only [List.map_cons, insert, Prod.map_fst, Prod.map_snd, id_eq, agree, ih]
      split <;> rfl

theorem foldl_insertNext_map
    (agree : ∀ old new, absorb' (f old) (f new) = (absorb old new).map f (List.map f))
    (items kept : List (Keyed α)) (dropped : List α) :
    (items.map (Prod.map id f)).foldl (insertNext absorb') (kept.map (Prod.map id f), dropped.map f) =
      (items.foldl (insertNext absorb) (kept, dropped)).map (List.map (Prod.map id f)) (List.map f) := by
  induction items generalizing kept dropped with
  | nil => rfl
  | cons item items ih =>
      simp only [List.map_cons, List.foldl_cons, insertNext, insert_map agree, ← List.map_append]
      exact ih _ _

end Map

/-! What is kept depends on what becomes of a part that meets an equal one, but not on what is dropped of it. -/

section Congruence

variable {absorb' : α → α → α × List α} (same : ∀ old new, (absorb' old new).1 = (absorb old new).1)
include same

theorem insert_fst_congr (new : Keyed α) (items : List (Keyed α)) :
    (insert absorb' new items).1 = (insert absorb new items).1 := by
  induction items with
  | nil => rfl
  | cons item items ih =>
      rw [insert, insert]
      split
      · simp only [same]
      · simp only [ih]

theorem foldl_insertNext_fst_congr (items kept : List (Keyed α)) (dropped dropped' : List α) :
    (items.foldl (insertNext absorb') (kept, dropped')).1 = (items.foldl (insertNext absorb) (kept, dropped)).1 := by
  induction items generalizing kept dropped dropped' with
  | nil => rfl
  | cons item items ih =>
      simp only [List.foldl_cons, insertNext, insert_fst_congr same]
      exact ih _ _ _

end Congruence

/-! Nothing gets lost: what the parts consist of is in what is kept or in what is dropped. -/

section Conservation

variable (content : α → List γ)

theorem sort_perm (items : List (Keyed α)) : (sort items).Perm items := by
  exact List.mergeSort_perm items _

theorem lastOfRuns_perm (items : List (Keyed α)) :
    ((lastOfRuns items).1.map (·.2) ++ (lastOfRuns items).2).Perm (items.map (·.2)) := by
  fun_induction lastOfRuns items with
  | case1 => exact .nil
  | case2 item => exact .refl _
  | case3 item next items kept dropped found same ih =>
      simp only [found] at ih
      exact List.perm_middle.trans (ih.cons _)
  | case4 item next items kept dropped found different ih =>
      simp only [found] at ih
      exact ih.cons _

theorem insert_flatMap_perm
    (conserved : ∀ old new, (content (absorb old new).1 ++ (absorb old new).2.flatMap content).Perm
      (content old ++ content new))
    (new : Keyed α) (items : List (Keyed α)) :
    ((insert absorb new items).1.flatMap (content ·.2) ++
        (insert absorb new items).2.flatMap content).Perm
      (content new.2 ++ items.flatMap (content ·.2)) := by
  classical
  induction items with
  | nil => simp [insert]
  | cons item items ih =>
      rw [List.perm_iff_count] at ih ⊢
      intro one
      have counted := ih one
      have absorbed := (conserved item.2 new.2).count_eq one
      simp only [insert]
      split
      · simp only [List.flatMap_cons, List.count_append] at absorbed ⊢
        omega
      · simp only [List.flatMap_cons, List.count_append] at counted ⊢
        omega

theorem insertSorted_flatMap_perm
    (conserved : ∀ old new, (content (absorb old new).1 ++ (absorb old new).2.flatMap content).Perm
      (content old ++ content new))
    (new : Keyed α) (items : List (Keyed α)) :
    ((insertSorted absorb new items).1.flatMap (content ·.2) ++
        (insertSorted absorb new items).2.flatMap content).Perm
      (content new.2 ++ items.flatMap (content ·.2)) := by
  classical
  induction items with
  | nil => simp [insertSorted]
  | cons item items ih =>
      rw [List.perm_iff_count] at ih ⊢
      intro one
      have counted := ih one
      have absorbed := (conserved item.2 new.2).count_eq one
      simp only [insertSorted]
      split
      · simp
      · simp only [List.flatMap_cons, List.count_append] at absorbed ⊢
        omega
      · simp only [List.flatMap_cons, List.count_append] at counted ⊢
        omega

theorem foldl_insertNext_flatMap_perm
    (conserved : ∀ old new, (content (absorb old new).1 ++ (absorb old new).2.flatMap content).Perm
      (content old ++ content new))
    (items kept : List (Keyed α)) (dropped : List α) :
    ((items.foldl (insertNext absorb) (kept, dropped)).1.flatMap (content ·.2) ++
        (items.foldl (insertNext absorb) (kept, dropped)).2.flatMap content).Perm
      (kept.flatMap (content ·.2) ++ dropped.flatMap content ++ items.flatMap (content ·.2)) := by
  classical
  induction items generalizing kept dropped with
  | nil => simp
  | cons item items ih =>
      simp only [List.foldl_cons, insertNext]
      refine (ih _ _).trans ?_
      rw [List.perm_iff_count]
      intro one
      have inserted := (insert_flatMap_perm content conserved item kept).count_eq one
      simp only [List.flatMap_append, List.flatMap_cons, List.count_append] at inserted ⊢
      omega

end Conservation

/-! Collections that are in order. -/

theorem sort_of_pairwise {items : List (Keyed α)} (sorted : items.Pairwise fun a b => a.1.le b.1) :
    sort items = items := by
  exact List.mergeSort_of_pairwise sorted

theorem lastOfRuns_of_pairwise {items : List (Keyed α)}
    (different : items.Pairwise fun a b => a.1.compare b.1 ≠ .eq) : lastOfRuns items = (items, []) := by
  fun_induction lastOfRuns items with
  | case1 => rfl
  | case2 item => rfl
  | case3 item next items kept dropped found same ih =>
      exact absurd same (List.rel_of_pairwise_cons different (by simp))
  | case4 item next items kept dropped found distinct ih =>
      have rest := ih (List.Pairwise.of_cons different)
      rw [found, Prod.mk.injEq] at rest
      rw [rest.1, rest.2]

theorem insert_of_ne {new : Keyed α} {items : List (Keyed α)}
    (different : ∀ item ∈ items, item.1.compare new.1 ≠ .eq) :
    insert absorb new items = (items ++ [new], []) := by
  induction items with
  | nil => rfl
  | cons item items ih =>
      have first := different item (by simp)
      have rest := ih (fun other member => different other (by simp [member]))
      simp [insert, first, rest]

theorem foldl_insertNext_of_pairwise {items kept : List (Keyed α)}
    (different : (kept ++ items).Pairwise fun a b => a.1.compare b.1 ≠ .eq) :
    items.foldl (insertNext absorb) (kept, []) = (kept ++ items, []) := by
  induction items generalizing kept with
  | nil => simp
  | cons item items ih =>
      have apart : ∀ other ∈ kept, other.1.compare item.1 ≠ .eq := by
        intro other member
        exact (List.pairwise_append.mp different).2.2 other member item (by simp)
      simp only [List.foldl_cons, insertNext, insert_of_ne apart, List.append_nil]
      rw [ih (by simpa using different)]
      simp

theorem insertAll_of_pairwise {items : List (Keyed α)}
    (different : items.Pairwise fun a b => a.1.compare b.1 ≠ .eq) :
    insertAll absorb items = (items, []) := by
  have folded : items.foldl (insertNext absorb) ([], []) = ([] ++ items, []) :=
    foldl_insertNext_of_pairwise different
  exact folded

theorem mem_lastOfRuns {items : List (Keyed α)} {item : Keyed α} (member : item ∈ (lastOfRuns items).1) : item ∈ items := by
  fun_induction lastOfRuns items with
  | case1 => exact member
  | case2 other => exact member
  | case3 other next items kept dropped found same ih =>
      rw [found] at ih
      exact List.mem_cons_of_mem _ (ih member)
  | case4 other next items kept dropped found distinct ih =>
      rw [found] at ih
      rcases List.mem_cons.mp member with rfl | further
      · exact List.mem_cons_self
      · exact List.mem_cons_of_mem _ (ih further)

section Forall

variable {holds : α → Prop}

theorem forall_insert (absorbed : ∀ old new, holds old → holds new → holds (absorb old new).1)
    {new : Keyed α} (newHolds : holds new.2) {items : List (Keyed α)}
    (each : ∀ item ∈ items, holds item.2) : ∀ item ∈ (insert absorb new items).1, holds item.2 := by
  induction items with
  | nil =>
      intro item member
      obtain rfl := List.mem_singleton.mp member
      exact newHolds
  | cons first rest ih =>
      obtain ⟨firstHolds, restHold⟩ := List.forall_mem_cons.mp each
      rw [insert]
      split
      · exact List.forall_mem_cons.mpr ⟨absorbed first.2 new.2 firstHolds newHolds, restHold⟩
      · exact List.forall_mem_cons.mpr ⟨firstHolds, ih restHold⟩

theorem forall_foldl_insertNext
    (absorbed : ∀ old new, holds old → holds new → holds (absorb old new).1)
    {items : List (Keyed α)} (each : ∀ item ∈ items, holds item.2)
    {result : List (Keyed α) × List α} (kept : ∀ item ∈ result.1, holds item.2) :
    ∀ item ∈ (items.foldl (insertNext absorb) result).1, holds item.2 := by
  induction items generalizing result with
  | nil => exact kept
  | cons first rest ih =>
      obtain ⟨firstHolds, restHold⟩ := List.forall_mem_cons.mp each
      exact ih restHold (forall_insert absorbed firstHolds kept)

end Forall

end Keyed

/-- From the first to the last, each key is less than all that follow. -/
def Key.Increasing (keys : List Key) : Prop :=
  keys.Pairwise fun a b => a.compare b = .lt

def Key.Distinct (keys : List Key) : Prop :=
  keys.Pairwise fun a b => a.compare b ≠ .eq

def Key.Ascending (keys : List Key) : Prop :=
  keys.Pairwise fun a b => a.le b

theorem Key.Increasing.distinct {keys : List Key} (increasing : Key.Increasing keys) :
    Key.Distinct keys := by
  exact List.Pairwise.imp (fun less => by simp [less]) increasing

theorem Key.Increasing.ascending {keys : List Key} (increasing : Key.Increasing keys) :
    Key.Ascending keys := by
  exact List.Pairwise.imp (fun less => by simp [Key.le, less]) increasing

namespace Form

/-- Sets and maps that are kept in order have it by the given keys. -/
def Ordered : Form → List Key → Prop
  | .treeSet, keys | .treeMap, keys => Key.Increasing keys
  | _, _ => True

/-- Sets and maps without an order have one part for each key, in whatever order. -/
def Hashed : Form → List Key → Prop
  | .hashSet, keys | .hashMap, keys => Key.Distinct keys
  | _, _ => True

section Gather

open Keyed

variable {α β γ : Type} {key : α → Key} {absorb : α → α → α × List α}

theorem gather_map {f : α → β} {key' : β → Key} {absorb' : β → β → β × List β} (form : Form)
    {parts : List α} (sameKey : ∀ part ∈ parts, key' (f part) = key part)
    (agree : ∀ old new, absorb' (f old) (f new) = (absorb old new).map f (List.map f)) :
    form.gather key' absorb' (parts.map f) =
      ⟨(form.gather key absorb parts).kept.map f, (form.gather key absorb parts).dropped.map f⟩ := by
  have labels : label key' (parts.map f) = (label key parts).map (Prod.map id f) := by
    simpa [label] using sameKey
  cases form with
  | sorted => simp [gather, gathered, labels, ← map_sort]
  | treeSet | treeMap => simp [gather, gathered, labels, ← map_sort, lastOfRuns_map]
  | hashSet | hashMap =>
      simp only [gather, gathered, labels, insertAll]
      rw [← List.map_nil (f := Prod.map id f), ← List.map_nil (f := f), foldl_insertNext_map agree]
      simp
  | priorityQueue =>
      have arranged := congrArg Array.toList (PriorityQueue.map_arrange f (label key parts).toArray)
      simp only [Array.toList_map, List.map_toArray] at arranged
      simp [gather, gathered, labels, ← arranged]
  | _ => rfl

theorem gather_flatMap_perm (content : α → List γ)
    (conserved : ∀ old new, (content (absorb old new).1 ++ (absorb old new).2.flatMap content).Perm
      (content old ++ content new))
    (form : Form) (parts : List α) :
    ((form.gather key absorb parts).kept.flatMap content ++
        (form.gather key absorb parts).dropped.flatMap content).Perm (parts.flatMap content) := by
  have labelled : (label key parts).flatMap (content ·.2) = parts.flatMap content := by
    simp [label, List.flatMap_map]
  cases form with
  | sorted =>
      have sorted := ((sort_perm (label key parts)).map (·.2)).flatMap_right content
      simpa [gather, gathered] using sorted
  | treeSet | treeMap =>
      have runs := (lastOfRuns_perm (sort (label key parts))).trans
        ((sort_perm (label key parts)).map (·.2))
      simpa [gather, gathered] using runs.flatMap_right content
  | hashSet | hashMap =>
      have inserted := foldl_insertNext_flatMap_perm content conserved (label key parts) [] []
      simpa [gather, gathered, insertAll, labelled, List.flatMap_map] using inserted
  | priorityQueue =>
      have arranged := ((PriorityQueue.arrange_perm (label key parts).toArray).toList.map
        (·.2)).flatMap_right content
      simpa [gather, gathered] using arranged
  | _ => simp [gather]

theorem pairwise_label {related : Key → Key → Prop} {parts : List α}
    (pairwise : (parts.map key).Pairwise related) :
    (label key parts).Pairwise fun a b => related a.1 b.1 := by
  rw [← map_fst_label] at pairwise
  exact List.pairwise_map.mp pairwise

theorem gather_of_ordered {form : Form} {parts : List α} (ordered : form.Ordered (parts.map key))
    (hashed : form.Hashed (parts.map key)) :
    (form.gather key absorb parts).dropped = [] ∧ (form.gather key absorb parts).kept.Perm parts := by
  cases form with
  | sorted =>
      have sorted := (sort_perm (label key parts)).map (·.2)
      simpa [gather, gathered] using sorted
  | treeSet | treeMap =>
      have sorted := sort_of_pairwise (pairwise_label (Key.Increasing.ascending ordered))
      have runs := lastOfRuns_of_pairwise (pairwise_label (Key.Increasing.distinct ordered))
      simp [gather, gathered, sorted, runs]
  | hashSet | hashMap =>
      simp [gather, gathered, insertAll_of_pairwise (pairwise_label hashed)]
  | priorityQueue =>
      have arranged := (PriorityQueue.arrange_perm (label key parts).toArray).toList.map (·.2)
      simpa [gather, gathered] using arranged
  | _ => simp [gather]

/-- A collection that was in order stays as it is. Only a queue may move its parts. -/
theorem gather_kept_of_ordered {form : Form} {parts : List α} (ordered : form.Ordered (parts.map key))
    (hashed : form.Hashed (parts.map key)) (queue : form ≠ .priorityQueue)
    (sorted : form = .sorted → Key.Ascending (parts.map key)) :
    (form.gather key absorb parts).kept = parts := by
  cases form with
  | sorted => simp [gather, gathered, sort_of_pairwise (pairwise_label (sorted rfl))]
  | treeSet | treeMap =>
      have stays := sort_of_pairwise (pairwise_label (Key.Increasing.ascending ordered))
      have runs := lastOfRuns_of_pairwise (pairwise_label (Key.Increasing.distinct ordered))
      simp [gather, gathered, stays, runs]
  | hashSet | hashMap =>
      simp [gather, gathered, insertAll_of_pairwise (pairwise_label hashed)]
  | priorityQueue => exact absurd rfl queue
  | _ => rfl

/-- What is kept has a property that all parts have, if a part that meets an equal one keeps it. -/
theorem forall_gather {holds : α → Prop} (absorbed : ∀ old new, holds old → holds new → holds (absorb old new).1)
    (form : Form) {parts : List α} (each : ∀ part ∈ parts, holds part) :
    ∀ part ∈ (form.gather key absorb parts).kept, holds part := by
  have labelled : ∀ item ∈ label key parts, holds item.2 := by
    intro item member
    obtain ⟨part, inside, rfl⟩ := List.mem_map.mp member
    exact each part inside
  have sorted : ∀ item ∈ sort (label key parts), holds item.2 := fun item member =>
    labelled item ((sort_perm _).mem_iff.mp member)
  intro part member
  cases form with
  | sorted =>
      obtain ⟨item, inside, rfl⟩ := List.mem_map.mp member
      exact sorted item inside
  | treeSet | treeMap =>
      obtain ⟨item, inside, rfl⟩ := List.mem_map.mp member
      exact sorted item (mem_lastOfRuns inside)
  | hashSet | hashMap =>
      obtain ⟨item, inside, rfl⟩ := List.mem_map.mp member
      exact forall_foldl_insertNext absorbed labelled (by simp) item inside
  | priorityQueue =>
      obtain ⟨item, inside, rfl⟩ := List.mem_map.mp member
      have arranged := (PriorityQueue.arrange_perm (label key parts).toArray).toList
      exact labelled item (arranged.mem_iff.mp inside)
  | _ => exact each part member

theorem gather_kept_congr {absorb' : α → α → α × List α}
    (same : ∀ old new, (absorb' old new).1 = (absorb old new).1) (form : Form) (parts : List α) :
    (form.gather key absorb' parts).kept = (form.gather key absorb parts).kept := by
  cases form with
  | hashSet | hashMap =>
      simp only [gather, gathered, insertAll, foldl_insertNext_fst_congr same (label key parts) [] [] []]
  | _ => rfl

theorem gather_kept_map {f : α → β} {key' : β → Key} {absorb' : β → β → β × List β} (form : Form) {parts : List α}
    (sameKey : ∀ part ∈ parts, key' (f part) = key part)
    (agree : ∀ old new, (absorb' (f old) (f new)).1 = f (absorb old new).1) :
    (form.gather key' absorb' (parts.map f)).kept = (form.gather key absorb parts).kept.map f := by
  let quiet (old new : α) : α × List α := ((absorb old new).1, [])
  let quiet' (old new : β) : β × List β := ((absorb' old new).1, [])
  have mapped : form.gather key' quiet' (parts.map f) =
      ⟨(form.gather key quiet parts).kept.map f, (form.gather key quiet parts).dropped.map f⟩ :=
    gather_map form sameKey fun old new => Prod.ext (agree old new) rfl
  have same : ∀ old new, (quiet old new).1 = (absorb old new).1 := fun _ _ => rfl
  have same' : ∀ old new, (quiet' old new).1 = (absorb' old new).1 := fun _ _ => rfl
  rw [← gather_kept_congr same', mapped, gather_kept_congr same]

/-- What is kept of related parts that are found by the same keys is related place by place. -/
theorem forall₂_gather {related : α → β → Prop} {key' : β → Key} {absorb' : β → β → β × List β}
    (absorbed : ∀ old other, related old other → ∀ new further, related new further →
      related (absorb old new).1 (absorb' other further).1)
    (form : Form) {parts : List α} {others : List β} (keys : parts.map key = others.map key')
    (each : List.Forall₂ related parts others) :
    List.Forall₂ related (form.gather key absorb parts).kept (form.gather key' absorb' others).kept := by
  rw [← List.forall₂_eq_eq_eq, List.forall₂_map_left_iff, List.forall₂_map_right_iff] at keys
  obtain ⟨lengths, zipped⟩ := List.forall₂_iff_zip.mp each
  -- Both are halves of what becomes of the pairs.
  let both (old new : α × β) : (α × β) × List (α × β) := (((absorb old.1 new.1).1, (absorb' old.2 new.2).1), [])
  let kept := (form.gather (fun pair => key pair.1) both (parts.zip others)).kept
  have first : (form.gather key absorb parts).kept = kept.map Prod.fst := by
    conv => lhs; rw [← List.map_fst_zip (Nat.le_of_eq lengths)]
    exact gather_kept_map form (fun _ _ => rfl) fun _ _ => rfl
  have second : (form.gather key' absorb' others).kept = kept.map Prod.snd := by
    conv => lhs; rw [← List.map_snd_zip (Nat.le_of_eq lengths.symm)]
    exact gather_kept_map form (fun pair member => ((List.forall₂_iff_zip.mp keys).2 member).symm) fun _ _ => rfl
  rw [first, second, List.forall₂_map_left_iff, List.forall₂_map_right_iff, List.forall₂_same]
  exact forall_gather (fun (old new : α × β) oldRelated newRelated =>
    absorbed old.1 old.2 oldRelated new.1 new.2 newRelated) form fun pair member => zipped member

end Gather

end Form

namespace Value

theorem absorb_addresses_perm (former new : Value) :
    ((former.absorb new).1.addresses ++ (former.absorb new).2.flatMap addresses).Perm
      (former.addresses ++ new.addresses) := by
  fun_cases Value.absorb former new with
  | case1 key value otherKey newValue =>
      rw [List.perm_iff_count]
      intro address
      simp only [addresses, addressesOfAll, List.flatMap_cons, List.flatMap_nil, List.append_nil,
        List.count_append]
      omega
  | case2 => simp

theorem gather_addresses_perm (store : Store) (form : Form) (parts : List Value) :
    (addressesOfAll (store.gather form parts).dropped ++
        addressesOfAll (store.gather form parts).kept).Perm (addressesOfAll parts) := by
  simp only [addressesOfAll_eq_flatMap]
  exact List.perm_append_comm.trans
    (Form.gather_flatMap_perm addresses absorb_addresses_perm form parts)

end Value

end Replica
