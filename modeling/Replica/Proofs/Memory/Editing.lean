import Replica.Memory.Action

/-!
What actions make of values. There is one rule for each way in which an action may succeed, with the values that it takes
in. Whatever else was given for it is dropped.
-/

namespace Replica

namespace Form

/-- Sequences that values can be put behind. -/
def Lined : Form → Prop
  | .vector | .deque | .linked | .sorted => True
  | _ => False

end Form

namespace Store

open Change

/-- What an action makes of the value that a path leads to. Without owning that it may only change a cell, a lock or
what is to be filled once. -/
inductive Edits (store : Store) : Access → Value → List Value → Change → Prop
  | setCell {access : Access} (former number : Int) (parts : List Value) :
      Edits store access (.node (.cell former) parts) [] ⟨.node (.cell number) parts, []⟩
  | fill {access : Access} {form : Form} (once : form = .onceCell ∨ form = .onceLock) (value : Value) :
      Edits store access (.node form []) [value] ⟨.node form [value], []⟩
  | poisonMutex {access : Access} (poisoned : Bool) (parts : List Value) :
      Edits store access (.node (.mutex poisoned) parts) [] ⟨.node (.mutex true) parts, []⟩
  | poisonLock {access : Access} (poisoned : Bool) (parts : List Value) :
      Edits store access (.node (.rwLock poisoned) parts) [] ⟨.node (.rwLock true) parts, []⟩
  | set (target value : Value) : Edits store .owned target [value] ⟨value, [target]⟩
  | append {form : Form} (lined : form.Lined) (parts : List Value) (value : Value) :
      Edits store .owned (.node form parts) [value] ⟨.node form (parts ++ [value]), []⟩
  | extend (text more : String) : Edits store .owned (.text text) [.text more] ⟨.text (text ++ more), []⟩
  | enqueue (parts : List Value) {value : Value} (ordered : (store.fixedKey value).isOrdered) :
      Edits store .owned (.node .priorityQueue parts) [value]
        (ofCollection .priorityQueue
          ((PriorityQueue.push (store.keyed parts).toArray (store.key value, value)).toList, []))
  | addHashed (parts : List Value) {value : Value} (ordered : (store.fixedKey value).isOrdered) :
      Edits store .owned (.node .hashSet parts) [value]
        (ofCollection .hashSet (Keyed.insert Value.absorb (store.key value, value) (store.keyed parts)))
  | addSorted (parts : List Value) (value : Value) :
      Edits store .owned (.node .treeSet parts) [value]
        (ofCollection .treeSet (Keyed.insertSorted Value.absorb (store.key value, value) (store.keyed parts)))
  | putHashed (parts : List Value) {key : Value} (value : Value) (ordered : (store.fixedKey key).isOrdered) :
      Edits store .owned (.node .hashMap parts) [key, value]
        (ofCollection .hashMap
          (Keyed.insert Value.absorb (store.key key, .node .entry [key, value]) (store.keyed parts)))
  | putSorted (parts : List Value) (key value : Value) :
      Edits store .owned (.node .treeMap parts) [key, value]
        (ofCollection .treeMap
          (Keyed.insertSorted Value.absorb (store.key key, .node .entry [key, value]) (store.keyed parts)))
  | takeLast {form : Form} (lined : form.Lined) (parts : List Value) (last : Value) :
      Edits store .owned (.node form (parts ++ [last])) [] ⟨.node form parts, [last]⟩
  | takeFirst {form : Form} (lined : form.Lined) (first : Value) (parts : List Value) :
      Edits store .owned (.node form (first :: parts)) [] ⟨.node form parts, [first]⟩
  | takeGreatest {parts : List Value} {greatest : Keyed Value} {queue : Array (Keyed Value)}
      (popped : PriorityQueue.pop? (store.keyed parts).toArray = some (greatest, queue)) :
      Edits store .owned (.node .priorityQueue parts) [] (ofCollection .priorityQueue (queue.toList, [greatest.2]))

variable {store : Store} {target value key : Value} {change : Change} {form : Form} {parts : List Value}
  {newValue newKey : Option Value} {action : Action} {access : Access}

theorem edits_of_push (pushed : store.push target value = .ok change) :
    Edits store .owned target [value] change := by
  -- One case for each form that something can be added to.
  unfold push at pushed
  split at pushed
  · cases pushed
    exact .append (by trivial) _ value
  · cases pushed
    exact .append (by trivial) _ value
  · cases pushed
    exact .append (by trivial) _ value
  · cases pushed
    exact .append (by trivial) _ value
  · split at pushed
    · cases pushed
      exact .extend _ _
    · cases pushed
  · split at pushed
    · cases pushed
    · rename_i ordered
      simp only [Bool.not_eq_eq_eq_not, Bool.not_true, Bool.not_eq_false] at ordered
      split at pushed
      · cases pushed
        exact .enqueue _ ordered
      · cases pushed
        exact .addHashed _ ordered
      · cases pushed
        exact .addSorted _ value
      · cases pushed
  · cases pushed

theorem edits_of_insert (inserted : store.insert target key value = .ok change) :
    Edits store .owned target [key, value] change := by
  unfold insert at inserted
  split at inserted
  · cases inserted
  · rename_i ordered
    simp only [Bool.not_eq_eq_eq_not, Bool.not_true, Bool.not_eq_false] at ordered
    split at inserted
    · cases inserted
      exact .putHashed _ value ordered
    · cases inserted
      exact .putSorted _ key value
    · cases inserted

theorem edits_of_withoutLast (lined : form.Lined) (taken : withoutLast form parts = .ok change) :
    Edits store .owned (.node form parts) [] change := by
  unfold withoutLast at taken
  split at taken
  · rename_i last found
    cases taken
    obtain ⟨front, rfl⟩ := List.getLast?_eq_some_iff.mp found
    rw [List.dropLast_concat]
    exact .takeLast lined front last
  · cases taken

theorem edits_of_withoutFirst (lined : form.Lined) (taken : withoutFirst form parts = .ok change) :
    Edits store .owned (.node form parts) [] change := by
  cases parts with
  | nil => cases taken
  | cons first parts =>
      cases taken
      exact .takeFirst lined first parts

theorem edits_of_pop (popped : store.pop target = .ok change) : Edits store .owned target [] change := by
  unfold pop at popped
  split at popped
  · exact edits_of_withoutLast trivial popped
  · exact edits_of_withoutLast trivial popped
  · exact edits_of_withoutLast trivial popped
  · split at popped
    · rename_i greatest queue found
      cases popped
      exact .takeGreatest found
    · cases popped
  · cases popped

theorem edits_of_popFront (popped : popFront target = .ok change) : Edits store .owned target [] change := by
  unfold popFront at popped
  split at popped
  · exact edits_of_withoutFirst trivial popped
  · exact edits_of_withoutFirst trivial popped
  · cases popped

/-- A change is what an edit makes. All that is given for it is taken in or dropped. -/
def Comes (store : Store) (access : Access) (target : Value) (given : List Value) (change : Change) : Prop :=
  ∃ taken unused edit, Edits store access target taken edit ∧ (taken ++ unused).Perm given ∧
    change = { edit with dropped := edit.dropped ++ unused }

theorem Edits.comes {taken given unused : List Value} {edit : Change} (edits : Edits store access target taken edit)
    (all : (taken ++ unused).Perm given) :
    Comes store access target given { edit with dropped := edit.dropped ++ unused } :=
  ⟨taken, unused, edit, edits, all, rfl⟩

/-- What is left over from what was given is dropped with the rest. -/
theorem comes_of_map {taken unused given : List Value} {result : Except Refusal Change}
    (edits : ∀ edit, result = .ok edit → Edits store access target taken edit) (all : (taken ++ unused).Perm given)
    (changed : result.map (fun change => { change with dropped := change.dropped ++ unused }) = .ok change) :
    Comes store access target given change := by
  cases result with
  | error refusal => cases changed
  | ok edit =>
      cases changed
      exact (edits edit rfl).comes all

theorem comes_of_changeOwned (changed : store.changeOwned action target newValue newKey = .ok change) :
    Comes store .owned target ([newValue, newKey].filterMap id) change := by
  unfold changeOwned at changed
  split at changed
  · rename_i value
    cases changed
    exact (Edits.set target value).comes (.refl _)
  · exact comes_of_map (fun _ => edits_of_push) (.refl _) changed
  · rename_i value key
    exact ⟨[key, value], [], change, edits_of_insert changed, .swap value key [], by simp⟩
  · exact comes_of_map (fun _ => edits_of_pop) (.refl _) changed
  · exact comes_of_map (fun _ => edits_of_popFront) (.refl _) changed
  · cases changed

theorem comes_of_fill (once : form = .onceCell ∨ form = .onceLock)
    (changed : (match newValue, parts with
      | none, _ => .error .badInput
      | some _, _ :: _ => .error .occupied
      | some value, [] => .ok ⟨.node form [value], newKey.toList⟩ : Except Refusal Change) = .ok change) :
    Comes store access (.node form parts) ([newValue, newKey].filterMap id) change := by
  split at changed
  · cases changed
  · cases changed
  · rename_i value
    cases changed
    refine ⟨[value], newKey.toList, _, .fill once value, .of_eq ?_, rfl⟩
    cases newKey <;> rfl

/-- What an action has done that succeeded. -/
theorem comes_of_change (changed : store.change action access target newValue newKey = .ok change) :
    Comes store access target ([newValue, newKey].filterMap id) change := by
  unfold Store.change at changed
  split at changed
  · simp only at changed
    split at changed
    · cases changed
      exact (Edits.setCell _ _ _).comes (.refl _)
    · cases changed
  · exact comes_of_fill (.inl rfl) changed
  · exact comes_of_fill (.inr rfl) changed
  · cases changed
    exact (Edits.poisonMutex _ _).comes (.refl _)
  · cases changed
    exact (Edits.poisonLock _ _).comes (.refl _)
  · cases changed
  · cases changed
  · cases changed
  · simp only at changed
    split at changed
    · cases changed
    · exact comes_of_changeOwned changed

end Store

end Replica
