import Replica.Proofs.Memory.KeyOrder

/-!
What a queue yields. An item that is put in moves up, and the one that takes the place of the greatest moves all the
way down and up again. Either leaves the queue arranged, so that the items come out from the greatest to the least.
-/

namespace Replica

namespace PriorityQueue

variable {α β : Type} {items rest : Array (Keyed α)} {place child above gap : Nat} {greatest : Keyed α}

/-- What holds while an item moves up: only above its own place may the order be broken, and its children are at
most its parent. -/
structure Rising (items : Array (Keyed α)) (gap : Nat) : Prop where
  apart : ∀ place child, child ≠ gap → Under child place → atMost items child place
  across : ∀ above child, Under gap above → Under child gap → atMost items child above

/-- The same of an item that nothing is known of. -/
structure Vacant (items : Array (Keyed α)) (gap : Nat) : Prop where
  apart : ∀ place child, place ≠ gap → child ≠ gap → Under child place → atMost items child place
  across : ∀ above child, Under gap above → Under child gap → atMost items child above

theorem under_parent (positive : 0 < place) : Under place (parent place) := by
  unfold Under parent
  omega

theorem exchanged_left (place other : Nat) : exchanged place other place = other := if_pos rfl

theorem exchanged_right (place other : Nat) : exchanged place other other = place := by
  unfold exchanged
  split <;> simp_all

theorem exchanged_of_ne {other index : Nat} (notPlace : index ≠ place) (notOther : index ≠ other) :
    exchanged place other index = index := by
  rw [exchanged, if_neg notPlace, if_neg notOther]

theorem Rising.swap (rising : Rising items gap) (inside : gap < items.size) (positive : 0 < gap)
    (greater : ¬ atMost items gap (parent gap)) :
    Rising (items.swapIfInBounds gap (parent gap)) (parent gap) := by
  have under := under_parent positive
  have turned := atMost_of_not greater
  generalize parent gap = holder at *
  have holderInside : holder < items.size := by omega
  have swapped := atMost_swapIfInBounds inside holderInside
  constructor
  · intro place child notHolder childUnder
    rw [swapped]
    -- The gap moves up with the item, so only the places of the two that were exchanged need care.
    by_cases isGap : place = gap
    · subst isGap
      rw [exchanged_left, exchanged_of_ne (by omega) notHolder]
      exact rising.across holder child under childUnder
    · by_cases isHolder : place = holder
      · subst isHolder
        rw [exchanged_right]
        by_cases childIsGap : child = gap
        · rw [childIsGap, exchanged_left]
          exact turned
        · rw [exchanged_of_ne childIsGap notHolder]
          exact atMost_trans holderInside (rising.apart place child childIsGap childUnder) turned
      · rw [exchanged_of_ne isGap isHolder, exchanged_of_ne (by omega) notHolder]
        exact rising.apart place child (by omega) childUnder
  · intro above child holderUnder childUnder
    have upper := rising.apart above holder (by omega) holderUnder
    rw [swapped, exchanged_of_ne (by omega : above ≠ gap) (by omega)]
    by_cases childIsGap : child = gap
    · rw [childIsGap, exchanged_left]
      exact upper
    · rw [exchanged_of_ne childIsGap (by omega)]
      exact atMost_trans holderInside (rising.apart holder child childIsGap childUnder) upper

theorem Rising.arranged (rising : Rising items gap) (fits : 0 < gap → atMost items gap (parent gap)) :
    ArrangedFrom items 0 := by
  intro place child _ under
  by_cases isGap : child = gap
  · subst isGap
    have positive : 0 < child := by omega
    have parentUnder := under_parent positive
    obtain rfl : place = parent child := by omega
    exact fits positive
  · exact rising.apart place child isGap under

theorem siftUp_arrangedFrom (rising : Rising items place) (inside : place < items.size) :
    ArrangedFrom (siftUp items place) 0 := by
  fun_induction siftUp items place with
  | case1 items place positive fits => exact rising.arranged fun _ => fits
  | case2 items place positive greater ih =>
      apply ih (rising.swap inside positive greater)
      rw [Array.size_swapIfInBounds]
      have under := under_parent positive
      omega
  | case3 items place top => exact rising.arranged fun positive => absurd positive top

theorem Vacant.swap (vacant : Vacant items gap) (inside : 2 * gap + 1 < items.size) :
    Vacant (items.swapIfInBounds gap (greaterChild items gap)) (greaterChild items gap) := by
  have under := under_greaterChild items gap
  have largest : ∀ child, Under child gap → atMost items child (greaterChild items gap) :=
    fun child => atMost_greaterChild
  have swapped := atMost_swapIfInBounds (by omega : gap < items.size) (greaterChild_lt_size inside)
  generalize greaterChild items gap = next at *
  constructor
  · intro place child placeNotNext childNotNext childUnder
    rw [swapped]
    by_cases isGap : place = gap
    · subst isGap
      rw [exchanged_left, exchanged_of_ne (by omega) childNotNext]
      exact largest child childUnder
    · rw [exchanged_of_ne isGap placeNotNext]
      by_cases childIsGap : child = gap
      · subst childIsGap
        rw [exchanged_left]
        exact vacant.across place next childUnder under
      · rw [exchanged_of_ne childIsGap childNotNext]
        exact vacant.apart place child isGap childIsGap childUnder
  · intro above child nextUnder childUnder
    obtain rfl : above = gap := by omega
    rw [swapped, exchanged_left, exchanged_of_ne (by omega) (by omega)]
    exact vacant.apart next child (by omega) (by omega) childUnder

theorem settle_arrangedFrom (vacant : Vacant items place) (inside : place < items.size) :
    ArrangedFrom (settle items place) 0 := by
  fun_induction settle items place with
  | case1 items place further child ih =>
      apply ih (vacant.swap further)
      rw [Array.size_swapIfInBounds]
      exact greaterChild_lt_size further
  | case2 items place leaf =>
      apply siftUp_arrangedFrom _ inside
      refine ⟨fun above child notPlace under => ?_, vacant.across⟩
      by_cases isPlace : above = place
      · exact atMost_of_size_le (by omega)
      · exact vacant.apart above child isPlace notPlace under

theorem ArrangedFrom.push (arranged : ArrangedFrom items 0) (item : Keyed α) :
    ArrangedFrom (push items item) 0 := by
  have beyond : ∀ place child, items.size < child → atMost (items.push item) child place := fun place child further =>
    atMost_of_size_le (Array.size_push item ▸ further)
  refine siftUp_arrangedFrom ⟨fun place child notLast under => ?_, fun above child _ under => ?_⟩ (by simp)
  · by_cases further : items.size < child
    · exact beyond place child further
    · have before := arranged place child (Nat.zero_le place) under
      have same : ∀ index, index < items.size → (items.push item)[index]? = items[index]? := fun index bound =>
        Array.getElem?_push_lt bound ▸ (Array.getElem?_eq_getElem bound).symm
      rwa [atMost, same child (by omega), same place (by omega)]
  · exact beyond above child (by omega)

theorem pop?_eq_some_iff : pop? items = some (greatest, rest) ↔
    ∃ last, items.back? = some last ∧ items[0]? = some greatest ∧
      rest = if items.pop.isEmpty then items.pop else settle (items.pop.setIfInBounds 0 last) 0 := by
  unfold pop?
  cases items.back? with
  | none => simp
  | some last =>
      cases items[0]? with
      | none => simp
      | some first =>
          simp only [Option.some.injEq, Prod.mk.injEq, exists_eq_left']
          exact and_congr_right fun _ => eq_comm

theorem pop?_eq_none_iff : pop? items = none ↔ items = #[] := by
  constructor
  · intro nothing
    by_contra filled
    have positive : 0 < items.size := Array.size_pos_iff.mpr filled
    have further : items.size - 1 < items.size := by omega
    simp [pop?, Array.back?_eq_getElem?, positive, further] at nothing
  · rintro rfl
    rfl

theorem ArrangedFrom.of_pop? (arranged : ArrangedFrom items 0) (popped : pop? items = some (greatest, rest)) :
    ArrangedFrom rest 0 := by
  obtain ⟨last, isLast, _, rfl⟩ := pop?_eq_some_iff.mp popped
  split
  · rename_i nothing
    intro place child _ _
    rw [Array.isEmpty_iff.mp nothing]
    exact atMost_of_size_le (Nat.zero_le child)
  · rename_i something
    apply settle_arrangedFrom
    · refine ⟨fun place child notFirst childNotFirst under => ?_, fun above child under _ => by omega⟩
      have before := arranged place child (Nat.zero_le place) under
      rw [atMost_iff] at before ⊢
      intro low high lowFound highFound
      -- All items but the first and the last are where they were.
      have stays : ∀ index item, index ≠ 0 → (items.pop.setIfInBounds 0 last)[index]? = some item →
          items[index]? = some item := by
        intro index item further found
        rw [Array.getElem?_setIfInBounds_ne (Ne.symm further), Array.getElem?_pop] at found
        split at found
        · exact found
        · cases found
      exact before low high (stays child low childNotFirst lowFound) (stays place high notFirst highFound)
    · simp only [Array.isEmpty_iff_size_eq_zero] at something
      simpa using Nat.pos_of_ne_zero something

theorem ArrangedFrom.atMost_first (arranged : ArrangedFrom items 0) (place : Nat) : atMost items place 0 := by
  induction place using Nat.strongRecOn with
  | ind place ih =>
      by_cases top : place = 0
      · subst top
        exact atMost_refl items 0
      · have under := under_parent (Nat.pos_of_ne_zero top)
        by_cases inside : parent place < items.size
        · exact atMost_trans inside (arranged (parent place) place (Nat.zero_le _) under) (ih (parent place) (by omega))
        · exact atMost_of_size_le (by omega)

theorem size_of_pop? (popped : pop? items = some (greatest, rest)) : rest.size < items.size := by
  have lengths := (pop?_perm popped).length_eq
  simp only [List.length_cons, Array.length_toList] at lengths
  omega

/-- All items, in the order in which they are taken out. -/
def drain (items : Array (Keyed α)) : List (Keyed α) :=
  match _popped : pop? items with
  | none => []
  | some (greatest, rest) => greatest :: drain rest
termination_by items.size
decreasing_by exact size_of_pop? ‹_›

theorem drain_of_none (empty : pop? items = none) : drain items = [] := by
  rw [drain]
  split
  · rfl
  · simp_all

theorem drain_of_some (popped : pop? items = some (greatest, rest)) : drain items = greatest :: drain rest := by
  rw [drain]
  split <;> simp_all

theorem drain_perm (items : Array (Keyed α)) : (drain items).Perm items.toList := by
  fun_induction drain items with
  | case1 items empty => simp [pop?_eq_none_iff.mp empty]
  | case2 items greatest rest popped ih => exact (ih.cons greatest).trans (pop?_perm popped)

/-- An arranged queue yields its items from the greatest to the least. -/
theorem drain_descending (arranged : ArrangedFrom items 0) :
    (drain items).Pairwise fun earlier next => next.1.le earlier.1 := by
  fun_induction drain items with
  | case1 items empty => exact .nil
  | case2 items greatest rest popped ih =>
      refine List.pairwise_cons.mpr ⟨?_, ih (arranged.of_pop? popped)⟩
      intro item member
      obtain ⟨_, _, first, _⟩ := pop?_eq_some_iff.mp popped
      have inside : item ∈ items.toList :=
        (pop?_perm popped).subset (List.mem_cons_of_mem _ ((drain_perm rest).subset member))
      obtain ⟨place, found⟩ := List.mem_iff_getElem?.mp inside
      rw [Array.getElem?_toList] at found
      exact atMost_iff.mp (arranged.atMost_first place) item greatest found first

/-! What is taken out depends on the keys only. -/

section Map

variable (f : α → β)

theorem map_siftUp (items : Array (Keyed α)) (place : Nat) :
    (siftUp items place).map (Prod.map id f) = siftUp (items.map (Prod.map id f)) place := by
  fun_induction siftUp items place with
  | case1 items place positive fits =>
      rw [siftUp]
      simp [positive, atMost_map, fits]
  | case2 items place positive greater ih =>
      rw [ih, map_swapIfInBounds]
      conv => rhs; rw [siftUp]
      simp [positive, atMost_map, greater]
  | case3 items place top =>
      rw [siftUp]
      simp [top]

theorem map_settle (items : Array (Keyed α)) (place : Nat) :
    (settle items place).map (Prod.map id f) = settle (items.map (Prod.map id f)) place := by
  fun_induction settle items place with
  | case1 items place further child ih =>
      rw [ih, map_swapIfInBounds]
      conv => rhs; rw [settle]
      simp [further, greaterChild_map, child]
  | case2 items place leaf =>
      rw [map_siftUp, settle]
      simp [leaf]

theorem pop?_map (items : Array (Keyed α)) :
    pop? (items.map (Prod.map id f)) =
      (pop? items).map fun popped => (popped.1.map id f, popped.2.map (Prod.map id f)) := by
  unfold pop?
  rw [Array.back?_map, Array.getElem?_map]
  cases items.back? with
  | none => rfl
  | some last =>
      cases items[0]? with
      | none => rfl
      | some first =>
          simp only [Option.map_some, ← Array.map_pop, Array.isEmpty, Array.size_map]
          by_cases alone : items.pop.size = 0
          · simp only [alone, decide_true, if_true]
          · simp only [alone, decide_false, Bool.false_eq_true, if_false, map_settle, Array.map_setIfInBounds]

theorem drain_map (items : Array (Keyed α)) :
    drain (items.map (Prod.map id f)) = (drain items).map (Prod.map id f) := by
  fun_induction drain items with
  | case1 items empty =>
      rw [drain_of_none]
      · rfl
      · rw [pop?_map, empty, Option.map_none]
  | case2 items greatest rest popped ih =>
      rw [drain_of_some, ih, List.map_cons]
      rw [pop?_map, popped, Option.map_some]

end Map

end PriorityQueue

end Replica
