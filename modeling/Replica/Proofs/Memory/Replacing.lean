import Replica.Proofs.Memory.Resemblance

/-!
What actions put in the place of values. It is neat if all that is given is, and where something shared has been
passed on the way, nobody notices it who finds values by their keys.
-/

namespace Replica

open Store

theorem Keyed.forall_insertSorted {α : Type} {absorb : α → α → α × List α} {holds : α → Prop} {new : Keyed α}
    {items : List (Keyed α)} (absorbed : ∀ old new, holds old → holds new → holds (absorb old new).1)
    (newHolds : holds new.2) (each : ∀ item ∈ items, holds item.2) :
    ∀ item ∈ (insertSorted absorb new items).1, holds item.2 := by
  induction items with
  | nil => exact List.forall_mem_singleton.mpr newHolds
  | cons first rest ih =>
      obtain ⟨firstHolds, restHold⟩ := List.forall_mem_cons.mp each
      rw [insertSorted]
      split
      · exact List.forall_mem_cons.mpr ⟨newHolds, List.forall_mem_cons.mpr ⟨firstHolds, restHold⟩⟩
      · exact List.forall_mem_cons.mpr ⟨absorbed first.2 new.2 firstHolds newHolds, restHold⟩
      · exact List.forall_mem_cons.mpr ⟨firstHolds, ih restHold⟩

namespace Store

variable {store : Store} {target value key : Value} {change : Change} {parts : List Value} {form : Form}
  {items : List (Keyed Value)} {action : Action} {access : Access}

/-- What may be put in a collection of the form. -/
def Good (store : Store) (form : Form) (part : Value) : Prop :=
  store.Neat part ∧ Value.Fits store.fixed form part

theorem good_of_mem_keyed (neat : store.Neat (.node form parts)) :
    ∀ item ∈ store.keyed parts, store.Good form item.2 := by
  intro item member
  obtain ⟨part, inside, rfl⟩ := List.mem_map.mp member
  exact ⟨neat.inside part inside, neat.tidy.fits part inside⟩

/-- The keys in the store are those that are told apart. -/
theorem hashed_keyed (neat : store.Neat (.node form parts)) : form.Hashed ((store.keyed parts).map (·.1)) := by
  rw [keyed, Keyed.map_fst_label]
  exact neat.tidy.hashed_partKeys

theorem arranged_keyed (neat : store.Neat (.node .priorityQueue parts)) :
    PriorityQueue.ArrangedFrom (store.keyed parts).toArray 0 := by
  rw [keyed, ← Form.queued_iff]
  exact neat.tidy.queued_partKeys

theorem neat_of_keyed (unshelved : ∀ step, ¬ form.Shelved step) (good : ∀ item ∈ items, store.Good form item.2)
    (labelled : Keyed.Labelled store.partKey items) (hashed : form.Hashed (items.map (·.1)))
    (queued : form = .priorityQueue → PriorityQueue.ArrangedFrom items.toArray 0) :
    store.Neat (.node form (items.map (·.2))) := by
  apply neat_of_good unshelved
  · exact List.forall_mem_map.mpr good
  · rw [labelled.map_key]
    exact hashed
  · cases form with
    | priorityQueue =>
        rw [Form.queued_iff, labelled.label_map_snd]
        exact queued rfl
    | _ => exact trivial

theorem neat_hashed {new : Keyed Value} (hash : form = .hashSet ∨ form = .hashMap)
    (neat : store.Neat (.node form parts)) (good : store.Good form new.2) (isKey : new.1 = store.partKey new.2) :
    store.Neat (Change.ofCollection form (Keyed.insert Value.absorb new (store.keyed parts))).value := by
  apply neat_of_keyed
  · rcases hash with rfl | rfl <;> exact fun _ => not_false
  · exact Keyed.forall_insert (fun _ _ => Value.good_absorb) good (good_of_mem_keyed neat)
  · exact (Keyed.labelled_label store.partKey parts).insert (Value.partKey_absorb store) isKey
  · rcases hash with rfl | rfl
    · exact Keyed.distinct_insert (hashed_keyed neat)
    · exact Keyed.distinct_insert (hashed_keyed neat)
  · rcases hash with rfl | rfl <;> simp

theorem neat_sorted {new : Keyed Value} (tree : form = .treeSet ∨ form = .treeMap)
    (neat : store.Neat (.node form parts)) (good : store.Good form new.2) :
    store.Neat (Change.ofCollection form (Keyed.insertSorted Value.absorb new (store.keyed parts))).value := by
  have each : ∀ item ∈ (Keyed.insertSorted Value.absorb new (store.keyed parts)).1, store.Good form item.2 :=
    Keyed.forall_insertSorted (fun _ _ => Value.good_absorb) good (good_of_mem_keyed neat)
  refine .node (Value.tidy_of_shown ?_ ?_) ?_ ?_
  · rcases tree with rfl | rfl <;> simp [Form.HidesOrder]
  · exact List.forall_mem_map.mpr fun item member => (each item member).2
  · rcases tree with rfl | rfl <;> exact fun _ isShelved => isShelved.elim
  · exact List.forall_mem_map.mpr fun item member => (each item member).1

theorem neat_enqueued {new : Keyed Value} (neat : store.Neat (.node .priorityQueue parts))
    (good : store.Good .priorityQueue new.2) (isKey : new.1 = store.partKey new.2) :
    store.Neat (Change.ofCollection .priorityQueue
      ((PriorityQueue.push (store.keyed parts).toArray new).toList, [])).value := by
  have same := (PriorityQueue.push_perm (store.keyed parts).toArray new).toList
  simp only [Array.toList_push] at same
  apply neat_of_keyed (by exact fun _ => not_false)
  · intro item member
    rcases List.mem_append.mp (same.subset member) with before | isNew
    · exact good_of_mem_keyed neat item before
    · rwa [List.mem_singleton.mp isNew]
  · intro item member
    rcases List.mem_append.mp (same.subset member) with before | isNew
    · exact Keyed.labelled_label store.partKey parts item before
    · rwa [List.mem_singleton.mp isNew]
  · exact trivial
  · intro _
    exact (arranged_keyed neat).push new

theorem neat_dequeued {greatest : Keyed Value} {queue : Array (Keyed Value)}
    (neat : store.Neat (.node .priorityQueue parts))
    (popped : PriorityQueue.pop? (store.keyed parts).toArray = some (greatest, queue)) :
    store.Neat (Change.ofCollection .priorityQueue (queue.toList, [greatest.2])).value := by
  have same := PriorityQueue.pop?_perm popped
  apply neat_of_keyed (by exact fun _ => not_false)
  · exact fun item member => good_of_mem_keyed neat item (same.subset (List.mem_cons_of_mem _ member))
  · exact fun item member =>
      Keyed.labelled_label store.partKey parts item (same.subset (List.mem_cons_of_mem _ member))
  · exact trivial
  · intro _
    exact (arranged_keyed neat).of_pop? popped

theorem loose_of_lined (lined : form.Lined) : form.Loose := by
  cases form with
  | vector | deque | linked | sorted => trivial
  | _ => exact lined.elim

theorem Edits.neat {taken : List Value} (edits : Edits store access target taken change) (neat : store.Neat target)
    (given : ∀ new ∈ taken, store.Neat new) : store.Neat change.value := by
  have isKey {part : Value} (ordered : (store.fixedKey part).isOrdered) : store.key part = store.partKey part := by
    rw [Value.partKey_eq, Value.sought_of_isOrdered ordered]
  cases edits with
  | setCell | poisonMutex | poisonLock => exact Value.neat_of_loose trivial neat.inside
  | fill once value => rcases once with rfl | rfl <;> exact Value.neat_of_loose trivial given
  | set _ value => exact given value List.mem_cons_self
  | append lined parts value =>
      refine Value.neat_of_loose (loose_of_lined lined) fun content member => ?_
      exact (List.mem_append.mp member).elim (neat.inside content) (given content)
  | extend text more => exact .atom _
  | enqueue parts ordered => exact neat_enqueued neat ⟨given _ List.mem_cons_self, ordered⟩ (isKey ordered)
  | addHashed parts ordered => exact neat_hashed (.inl rfl) neat ⟨given _ List.mem_cons_self, ordered⟩ (isKey ordered)
  | addSorted parts value => exact neat_sorted (.inl rfl) neat ⟨given _ List.mem_cons_self, trivial⟩
  | @putHashed parts key value ordered =>
      have entryNeat := Value.neat_entry (given key (by simp)) (given value (by simp))
      exact neat_hashed (.inr rfl) neat ⟨entryNeat, key, value, rfl, ordered⟩ rfl
  | putSorted parts key value =>
      have entryNeat := Value.neat_entry (given key (by simp)) (given value (by simp))
      exact neat_sorted (.inr rfl) neat ⟨entryNeat, key, value, rfl⟩
  | takeLast lined parts last =>
      exact Value.neat_of_loose (loose_of_lined lined) fun part member => neat.inside part (List.mem_append_left _ member)
  | takeFirst lined first parts =>
      exact Value.neat_of_loose (loose_of_lined lined) fun part member => neat.inside part (List.mem_cons_of_mem _ member)
  | takeGreatest popped => exact neat_dequeued neat popped

/-- Without owning a value an action changes nothing that it is found by. -/
theorem Edits.resembles {taken : List Value} (edits : Edits store .shared target taken change) :
    change.value.Resembles target := by
  cases edits with
  | setCell | poisonMutex | poisonLock => exact .sealed trivial trivial
  | fill once value => rcases once with rfl | rfl <;> exact .sealed trivial trivial

/-- What an action puts in the place of something neat is neat, and resembles it if the action goes through something
shared. -/
theorem change_keeps {value key : Option Value} (neat : store.Neat target)
    (given : ∀ new, some new ∈ [value, key] → store.Neat new)
    (changed : store.change action access target value key = .ok change) :
    store.Neat change.value ∧ (access = .shared → change.value.Resembles target) := by
  obtain ⟨taken, unused, edit, edits, all, rfl⟩ := comes_of_change changed
  refine ⟨edits.neat neat fun new member => ?_, fun shared => ?_⟩
  · have inside := all.subset (List.mem_append_left unused member)
    exact given new (by simpa using inside)
  · subst shared
    exact edits.resembles

/-- A write leaves a value neat, and an allocation as it was for whoever finds values by their keys. So it does to the
value if that is reached through something shared. -/
def Mends (store : Store) (access : Access) (value : Value) : Rewriting → Prop
  | .own altered => store.Neat altered ∧ (access = .shared → altered.Resembles value)
  | .behind address changed => ∃ contents, store.contents? address = some contents ∧
      List.Forall₂ Value.Resembles changed contents ∧ ∀ content ∈ changed, store.Neat content

variable {rewriting : Rewriting} {part new : Value} {contents : List Value} {address : Address} {step : Nat}
  {inner : Access} {trail : Trail} {passage : Passage} {sharing : Sharing}

theorem mends_node (neat : store.Neat (.node form parts)) (loose : form.Loose) (found : parts[step]? = some part)
    (fenced : access = .shared → inner = .shared ∨ (∃ held, form = .refCell held) ∨ form.Sealed)
    (mends : store.Mends inner part rewriting) :
    store.Mends access (.node form parts) (rewriting.within fun part => .own (.node form (parts.set step part))) := by
  cases rewriting with
  | behind address changed => exact mends
  | own altered =>
      obtain ⟨alteredNeat, same⟩ := mends
      refine ⟨neat.setAny loose alteredNeat, fun shared => ?_⟩
      rcases fenced shared with isShared | ⟨held, rfl⟩ | isSealed
      · exact .set found (same isShared)
      · exact .setCell found
      · exact .sealed isSealed isSealed

theorem mends_handle (stored : store.StoredNeat store) (held : store.contents? address = some contents)
    (found : contents[step]? = some part) (mends : store.Mends .shared part rewriting) :
    store.Mends access (.handle sharing address)
      (rewriting.within fun part => .behind address (contents.set step part)) := by
  cases rewriting with
  | behind address changed => exact mends
  | own altered =>
      obtain ⟨alteredNeat, same⟩ := mends
      refine ⟨contents, held, forall₂_resembles_set found (same rfl), ?_⟩
      intro content member
      rcases List.mem_or_eq_of_mem_set member with before | rfl
      · exact stored address contents held content before
      · exact alteredNeat

theorem mends_entry (neat : store.Neat (.node .treeMap parts)) (found : parts[step]? = some part)
    (mends : store.Mends .shared part rewriting) :
    store.Mends access (.node .treeMap parts)
      (rewriting.within fun part => .own (.node .treeMap (parts.set step part))) := by
  cases rewriting with
  | behind address changed => exact mends
  | own altered =>
      obtain ⟨alteredNeat, same⟩ := mends
      exact ⟨neat.set found alteredNeat (same rfl), fun _ => .set found (same rfl)⟩

theorem exists_of_rewrite?_node (rewritten : store.rewrite? new (step :: trail) (.node form parts) = some rewriting) :
    ∃ part rest, parts[step]? = some part ∧ store.rewrite? new trail part = some rest ∧
      rewriting = rest.within fun part => .own (.node form (parts.set step part)) := by
  obtain ⟨part, found, rewritten⟩ := Option.bind_eq_some_iff.mp rewritten
  obtain ⟨rest, restRewritten, same⟩ := Option.bind_eq_some_iff.mp rewritten
  cases same
  exact ⟨part, rest, found, restRewritten, rfl⟩

theorem exists_of_rewrite?_handle
    (rewritten : store.rewrite? new (step :: trail) (.handle sharing address) = some rewriting) :
    ∃ contents part rest, store.contents? address = some contents ∧ contents[step]? = some part ∧
      store.rewrite? new trail part = some rest ∧
      rewriting = rest.within fun part => .behind address (contents.set step part) := by
  obtain ⟨contents, held, rewritten⟩ := Option.bind_eq_some_iff.mp rewritten
  obtain ⟨part, found, rewritten⟩ := Option.bind_eq_some_iff.mp rewritten
  obtain ⟨rest, restRewritten, same⟩ := Option.bind_eq_some_iff.mp rewritten
  cases same
  exact ⟨contents, part, rest, held, found, restRewritten, rfl⟩

/-- Where a path may go on from a value: through a handle, to a part of something that takes any parts, to the value or
the key of an entry, and into the cell of a struct. -/
theorem passage?_cases {number : Nat} (passed : value.passage? number = some (trail, passage)) :
    (∃ sharing address step, value = .handle sharing address ∧ trail = [step] ∧ passage = .shared) ∨
      (∃ form parts step, value = .node form parts ∧ trail = [step] ∧ form.Loose ∧
        (passage.access .shared = .shared ∨ (∃ held, form = .refCell held) ∨ form.Sealed)) ∨
      (∃ parts step place, value = .node .treeMap parts ∧ trail = [step, place] ∧ passage = .shared) ∨
      ∃ form parts step, value = .node form parts ∧ trail = Value.shelf step ∧ form.Shelved step := by
  cases value with
  | atom content => cases passed
  | static label text => cases passed
  | handle sharing address =>
      left
      cases sharing with
      | rc | arc =>
          cases number with
          | zero =>
              cases passed
              exact ⟨_, _, _, rfl, rfl, rfl⟩
          | succ number => cases passed
      | rcSlice | arcSlice =>
          cases passed
          exact ⟨_, _, _, rfl, rfl, rfl⟩
      | rcText | arcText => cases passed
  | node form parts =>
      right
      cases form with
      | absent | priorityQueue | hashSet | hashMap | entry | cell | simple | marker | account => cases passed
      | present | success | failure | array | vector | deque | linked | boxedSlice | box | wrapping | pair | sorted =>
          cases passed
          exact .inl ⟨_, _, _, rfl, rfl, trivial, .inl rfl⟩
      | tuple =>
          cases passed
          refine .inl ⟨_, _, _, rfl, rfl, trivial, .inl ?_⟩
          split <;> rfl
      | treeSet | onceCell | onceLock =>
          cases passed
          exact .inl ⟨_, _, _, rfl, rfl, trivial, .inl rfl⟩
      | refCell held =>
          cases passed
          exact .inl ⟨_, _, _, rfl, rfl, trivial, .inr (.inl ⟨held, rfl⟩)⟩
      | mutex | rwLock =>
          cases passed
          exact .inl ⟨_, _, _, rfl, rfl, trivial, .inr (.inr trivial)⟩
      | treeMap =>
          cases passed
          exact .inr (.inl ⟨_, _, _, rfl, rfl, rfl⟩)
      | strategies counter =>
          right
          right
          match number with
          | 0 =>
            cases passed
            exact ⟨_, _, 0, rfl, rfl, trivial⟩
          | 3 =>
            cases passed
            exact ⟨_, _, 2, rfl, rfl, trivial⟩
      | library name =>
          right
          right
          match number with
          | 1 =>
            cases passed
            exact ⟨_, _, 0, rfl, rfl, trivial⟩

variable {next : Value} {further : Trail}

theorem mends_entry_part {step place : Nat} (neat : store.Neat (.node .treeMap parts))
    (reached : store.follow? [step, place] (.node .treeMap parts) = some next)
    (rewritten : store.rewrite? new (step :: place :: further) (.node .treeMap parts) = some rewriting)
    (behind : store.Neat next → ∀ inner, store.rewrite? new further next = some inner → store.Mends .shared next inner) :
    store.Mends access (.node .treeMap parts) rewriting := by
  obtain ⟨entry, outer, found, outerRewritten, rfl⟩ := exists_of_rewrite?_node rewritten
  have entryNeat := neat.inside entry (List.mem_of_getElem? found)
  obtain ⟨key, value, rfl⟩ := neat.tidy.fits entry (List.mem_of_getElem? found)
  obtain ⟨part, inner, partFound, innerRewritten, rfl⟩ := exists_of_rewrite?_node outerRewritten
  obtain rfl : part = next := by simpa [follow?, child?, found, partFound] using reached
  have partNeat := entryNeat.inside part (List.mem_of_getElem? partFound)
  apply mends_entry neat found
  exact mends_node entryNeat trivial partFound (fun _ => .inl rfl) (behind partNeat inner innerRewritten)

/-- What the cell of a struct holds is changed behind the struct's handle. -/
theorem mends_shelf {step : Nat} {kept : Access} (stored : store.StoredNeat store) (neat : store.Neat (.node form parts))
    (isShelved : form.Shelved step) (reached : store.follow? (Value.shelf step) (.node form parts) = some next)
    (rewritten : store.rewrite? new (Value.shelf step ++ further) (.node form parts) = some rewriting)
    (behind : store.Neat next → ∀ inner, store.rewrite? new further next = some inner → store.Mends kept next inner) :
    store.Mends access (.node form parts) rewriting := by
  obtain ⟨handle, outer, found, outerRewritten, rfl⟩ := exists_of_rewrite?_node rewritten
  obtain ⟨address, rfl, isHeld, content, held⟩ := neat.shelved found isShelved
  obtain ⟨contents, cell, between, heldAgain, cellFound, cellRewritten, rfl⟩ := exists_of_rewrite?_handle outerRewritten
  obtain rfl : [.node (.refCell isHeld) [content]] = contents := by simpa [held] using heldAgain
  obtain rfl : .node (.refCell isHeld) [content] = cell := by simpa using cellFound
  obtain ⟨part, inner, partFound, innerRewritten, rfl⟩ := exists_of_rewrite?_node cellRewritten
  obtain rfl : content = part := by simpa using partFound
  obtain rfl : content = next := by simpa [Value.shelf, follow?, child?, found, held] using reached
  have cellNeat := stored address _ held _ (List.mem_of_getElem? cellFound)
  have partNeat := cellNeat.inside content (List.mem_of_getElem? partFound)
  have changed : store.Mends .shared (.node (.refCell isHeld) [content]) _ :=
    mends_node cellNeat trivial partFound (fun _ => .inr (.inl ⟨isHeld, rfl⟩)) (behind partNeat inner innerRewritten)
  have outside : store.Mends access (.handle .rc address) _ := mends_handle stored held cellFound changed
  -- The write ends in the cell or behind it, so nothing of the struct itself is replaced.
  cases inner with
  | own altered => exact outside
  | behind other contents => exact outside

/-- One step of a path: what mends the part that is passed to mends the value as well. -/
theorem mends_passed {number : Nat} (passed : value.passage? number = some (trail, passage))
    (stored : store.StoredNeat store) (neat : store.Neat value) (reached : store.follow? trail value = some next)
    (rewritten : store.rewrite? new (trail ++ further) value = some rewriting)
    (behind : store.Neat next → ∀ inner, store.rewrite? new further next = some inner →
      store.Mends (passage.access access) next inner) : store.Mends access value rewriting := by
  rcases passage?_cases passed with ⟨sharing, address, step, rfl, rfl, rfl⟩ |
    ⟨form, parts, step, rfl, rfl, loose, fenced⟩ | ⟨parts, step, place, rfl, rfl, rfl⟩ |
    ⟨form, parts, step, rfl, rfl, isShelved⟩
  · obtain ⟨contents, part, inner, held, found, innerRewritten, rfl⟩ := exists_of_rewrite?_handle rewritten
    obtain rfl : part = next := by simpa [follow?, child?, held, found] using reached
    have partNeat := stored address contents held part (List.mem_of_getElem? found)
    exact mends_handle stored held found (behind partNeat inner innerRewritten)
  · obtain ⟨part, inner, found, innerRewritten, rfl⟩ := exists_of_rewrite?_node rewritten
    obtain rfl : part = next := by simpa [follow?, child?, found] using reached
    have partNeat := neat.inside part (List.mem_of_getElem? found)
    refine mends_node neat loose found ?_ (behind partNeat inner innerRewritten)
    rintro rfl
    exact fenced
  · exact mends_entry_part neat reached rewritten behind
  · exact mends_shelf stored neat isShelved reached rewritten behind

/-- What a path leads to may be replaced by something neat, if it resembles that where the access is shared. -/
theorem rewrite?_mends {admits : Passage → Bool} {path : List Nat} {place : Place} (stored : store.StoredNeat store)
    (neat : store.Neat value) (walked : store.walk? admits path value access = some place) (newNeat : store.Neat new)
    (same : place.access = .shared → new.Resembles place.value)
    (rewritten : store.rewrite? new place.trail value = some rewriting) : store.Mends access value rewriting := by
  induction path generalizing value access place rewriting with
  | nil =>
      cases walked
      cases rewritten
      exact ⟨newNeat, same⟩
  | cons number path ih =>
      simp only [Store.walk?, Option.bind_eq_bind, Option.bind_eq_some_iff] at walked
      obtain ⟨⟨trail, passage⟩, passed, walked⟩ := walked
      split at walked
      · simp at walked
      · simp only [Option.bind_eq_some_iff] at walked
        obtain ⟨next, reached, further, rest, final⟩ := walked
        cases final
        exact mends_passed passed stored neat reached rewritten fun nextNeat inner => ih nextNeat rest same

end Store

end Replica
