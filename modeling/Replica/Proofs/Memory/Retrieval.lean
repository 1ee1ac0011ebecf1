import Replica.Proofs.Memory.Orderliness
import Replica.Proofs.Memory.Searching

/-!
What keyed collections find in a copy. In all memories that steps lead to, the copies of two keys compare as the keys
do, so that no set, map or queue loses a part when it is copied, and each finds the copies where it finds their
originals.
-/

namespace Replica

namespace Memory

open Store Value

/-- Whatever the steps are, keys and their copies are in the same order. A set finds the copies of all its parts in its
copy, a map finds the copy of each value by the copy of its key, and a queue yields the copies in the order of their
originals. -/
theorem copies_retrieved (steps : List Step) :
    let memory := Memory.empty.after steps
    (∀ first second, memory.store.Live first → memory.store.Live second → memory.store.KeyLike first →
        memory.store.KeyLike second →
      ∃ one middle two later, first.copy.run memory.store = (.ok one, middle) ∧
        second.copy.run middle = (.ok two, later) ∧
        (later.key one).compare (later.key two) = (memory.store.key first).compare (memory.store.key second)) ∧
    ∀ name root trail, memory.lookup name = some root →
      (∀ parts, memory.store.follow? trail root = some (.node .hashSet parts) →
        ∃ copies later, (node .hashSet parts).copy.run memory.store = (.ok (.node .hashSet copies), later) ∧
          InTurn Value.copy memory.store parts copies later ∧ FoundAlike memory.store later parts copies) ∧
      (∀ parts copy later, memory.store.follow? trail root = some (.node .hashMap parts) →
        (node .hashMap parts).copy.run memory.store = (.ok copy, later) →
          ∃ copies, copy = .node .hashMap copies ∧ MappedAlike memory.store later parts copies) ∧
      ∀ parts, memory.store.follow? trail root = some (.node .priorityQueue parts) →
        ∃ copies later,
          (node .priorityQueue parts).copy.run memory.store = (.ok (.node .priorityQueue copies), later) ∧
            InTurn Value.copy memory.store parts copies later ∧ YieldedAlike memory.store later parts copies := by
  intro memory
  have tended : Tended [] memory := Tended.empty.after steps
  have sound : memory.store.Sound := tended.exact.store.sound
  refine ⟨fun first second => exists_copies_of_keys sound, ?_⟩
  intro name root trail found
  have reachedNeat : ∀ value, memory.store.follow? trail root = some value →
      memory.store.Live value ∧ memory.store.Neat value := fun value reached =>
    ⟨sound.live_follow? reached (tended.exact.live found), tended.stored.follow? reached (tended.neat found)⟩
  refine ⟨?_, ?_, ?_⟩
  · intro parts reached
    obtain ⟨live, neat⟩ := reachedNeat _ reached
    exact copy_of_hashSet sound live neat.tidy
  · intro parts copy later reached made
    obtain ⟨live, neat⟩ := reachedNeat _ reached
    exact copy_of_hashMap sound live neat.tidy made
  · intro parts reached
    obtain ⟨live, neat⟩ := reachedNeat _ reached
    exact copy_of_queue sound live neat.tidy

/-- A set, a map and a queue, each of one part. -/
def keyed : List Step :=
  let entry : Datum := .list [.list [.text "str", .text "k"], .list [.text "bool", .text "true"]]
  [.assign "set" (.list [.text "hash_set", .list [.text "str", .text "x"]]),
    .assign "map" (.list [.text "hash_map", entry]),
    .assign "queue" (.list [.text "heap", .list [.text "bool", .text "true"]])]

theorem copies_retrieved_keyed :
    let store := (Memory.empty.after keyed).store
    let entry := node .entry [.text "k", .atom (.flag true)]
    (∃ one middle two later, (Value.text "x").copy.run store = (.ok one, middle) ∧
        (Value.text "k").copy.run middle = (.ok two, later) ∧ (later.key one).compare (later.key two) = .gt) ∧
      (∃ copies later, (node .hashSet [.text "x"]).copy.run store = (.ok (.node .hashSet copies), later) ∧
        FoundAlike store later [.text "x"] copies) ∧
      (∃ copies later, (node .hashMap [entry]).copy.run store = (.ok (.node .hashMap copies), later) ∧
        MappedAlike store later [entry] copies) ∧
      ∃ copies later,
        (node .priorityQueue [.atom (.flag true)]).copy.run store = (.ok (.node .priorityQueue copies), later) ∧
          YieldedAlike store later [.atom (.flag true)] copies := by
  intro store entry
  obtain ⟨compared, found⟩ := copies_retrieved keyed
  refine ⟨?_, ?_, ?_, ?_⟩
  · obtain ⟨one, middle, two, later, oneMade, twoMade, same⟩ :=
      compared (.text "x") (.text "k") (by simp [Live, Value.text, addresses]) (by simp [Live, Value.text, addresses])
        (.atom _) (.atom _)
    exact ⟨one, middle, two, later, oneMade, twoMade, same.trans rfl⟩
  · obtain ⟨copies, later, made, _, alike⟩ := (found "set" _ [] rfl).1 _ rfl
    exact ⟨copies, later, made, alike⟩
  · obtain ⟨copies, same, alike⟩ := (found "map" _ [] rfl).2.1 [entry] (.node .hashMap [entry]) _ rfl rfl
    cases same
    exact ⟨[entry], _, rfl, alike⟩
  · obtain ⟨copies, later, made, _, alike⟩ := (found "queue" _ [] rfl).2.2 _ rfl
    exact ⟨copies, later, made, alike⟩

end Memory

end Replica
