import Replica.Proofs.Class.Signatures

/-!
What is said of a class without a constructor that takes every property. Of the functions that could build its values,
the one that comes nearest is named, with all that it does not take. Where several come as near, it is the first of them.
-/

namespace Replica

open scoped Classical in
/-- The names of the fields that are carried into copies, in the order of their declaration. -/
noncomputable def Declaration.storedNames (d : Declaration) : List String :=
  (d.fields.filter fun field => ¬ field.marks.Has .skip).filterMap fun field => field.name.map Name.text

theorem Shape.names_eq {d : Declaration} {shape : Shape} (scanned : ofDeclaration d = .ok shape) :
    shape.names = d.storedNames := by
  classical
  have copyable := (exists_ofDeclaration_iff.mp ⟨shape, scanned⟩).fields
  rw [names, properties_eq scanned, List.map_filterMap, Declaration.storedNames, List.filterMap_filter]
  refine List.filterMap_congr fun field member => Option.ext fun text => ?_
  rw [Option.map_eq_some_iff, ← Field.stores_iff (copyable field member)]
  by_cases skipped : field.marks.Has .skip
  · simp [Field.Stores, skipped]
  · simp [Field.Stores, skipped]

namespace Function

variable {f : Function} {names : List String}

/-- None of the parameters is a plain identifier of this name. -/
def Lacks (f : Function) (name : String) : Prop :=
  ∀ parameter ∈ f.signature.parameters, ¬ parameter.Binds name

open scoped Classical in
/-- Those of the names that the function does not take, in their order. -/
noncomputable def lacking (names : List String) (f : Function) : List String :=
  names.filter f.Lacks

end Function

namespace Candidate

variable {className : String} {blocks : List Implementation} {names : List String} {candidate : Candidate}
  {candidates : List Candidate} {found : Closest}

/-- A function of the class that makes a value of it by itself, whatever it takes. -/
@[mk_iff]
structure Eligible (className : String) (candidate : Candidate) : Prop where
  own : candidate.block.BelongsTo className
  constructs : candidate.function.Constructs className

/-- The function is eligible, and none that is takes more of the names. -/
@[mk_iff]
structure Nearest (className : String) (names : List String) (blocks : List Implementation)
    (candidate : Candidate) : Prop where
  eligible : candidate.Eligible className
  fewest : ∀ block ∈ blocks, ∀ f, .function f ∈ block.items → Eligible className ⟨block, f⟩ →
    (candidate.function.lacking names).length ≤ (f.lacking names).length

theorem missing_eq_lacking : candidate.missing names = candidate.function.lacking names := by
  classical
  unfold missing Function.lacking
  refine List.filter_congr fun name _ => ?_
  rw [Bool.eq_iff_iff, Bool.not_eq_true', ← Bool.not_eq_true, List.contains_iff_mem, decide_eq_true_eq]
  simp only [Function.Lacks, Function.parameterNames, List.mem_map, Parameter.name?_eq_some_iff, not_exists, not_and]

theorem closest_eq_none_iff : closest names candidates = none ↔ candidates = [] := by
  cases candidates with
  | nil => simp [closest]
  | cons candidate rest =>
      simp only [closest, reduceCtorEq, iff_false]
      cases closest names rest with
      | none => simp
      | some other =>
          dsimp only
          split <;> simp

/-- Those in front of the closest lack more, and those behind it no less. -/
theorem exists_of_closest_eq_some (closestFound : closest names candidates = some found) :
    ∃ front candidate back, candidates = front ++ candidate :: back ∧
      found = ⟨candidate.function.signature.name.text, candidate.missing names⟩ ∧
      (∀ other ∈ front, found.missing.length < (other.missing names).length) ∧
      ∀ other ∈ back, found.missing.length ≤ (other.missing names).length := by
  induction candidates generalizing found with
  | nil => cases closestFound
  | cons head rest ih =>
      unfold closest at closestFound
      cases behind : closest names rest with
      | none =>
          cases closest_eq_none_iff.mp behind
          rw [behind] at closestFound
          cases closestFound
          exact ⟨[], head, [], rfl, rfl, by simp, by simp⟩
      | some other =>
          obtain ⟨front, candidate, back, parts, rfl, before, after⟩ := ih behind
          rw [behind] at closestFound
          dsimp only at closestFound
          -- The head gives way only to one behind it that lacks less than it does.
          split at closestFound
          next nearer =>
            cases closestFound
            exact ⟨head :: front, candidate, back, by rw [parts, List.cons_append], rfl,
              List.forall_mem_cons.mpr ⟨nearer, before⟩, after⟩
          next notNearer =>
            cases closestFound
            have noLess := Nat.le_of_not_lt notNearer
            refine ⟨[], head, rest, rfl, rfl, by simp, fun one member => ?_⟩
            rw [parts, List.mem_append, List.mem_cons] at member
            rcases member with inFront | rfl | inBack
            · exact Nat.le_trans noLess (Nat.le_of_lt (before one inFront))
            · exact noLess
            · exact Nat.le_trans noLess (after one inBack)

/-- The closest of the functions that qualify is the first of the nearest. -/
theorem first_nearest_of_closest (accepted : qualified className blocks = .ok candidates)
    (closestFound : closest names candidates = some found) :
    ∃ candidate ∈ candidates, First (Nearest className names blocks) blocks candidate ∧
      found = ⟨candidate.function.signature.name.text, candidate.function.lacking names⟩ := by
  classical
  obtain ⟨front, candidate, back, parts, rfl, before, after⟩ := exists_of_closest_eq_some closestFound
  simp only [missing_eq_lacking] at before after ⊢
  have listed : candidate ∈ candidates := by simp [parts]
  obtain ⟨inBlocks, isItem, own, constructs⟩ := (mem_qualified_iff accepted).mp listed
  have nearest : Nearest className names blocks candidate := by
    refine ⟨⟨own, constructs⟩, fun block inBlocks f isItem other => ?_⟩
    have member : ⟨block, f⟩ ∈ candidates :=
      (mem_qualified_iff accepted).mpr ⟨inBlocks, isItem, other.own, other.constructs⟩
    rw [parts, List.mem_append, List.mem_cons] at member
    rcases member with inFront | rfl | inBack
    · exact Nat.le_of_lt (before _ inFront)
    · exact Nat.le_refl _
    · exact after _ inBack
  have found : candidates.find? (Nearest className names blocks ·) = some candidate := by
    refine List.find?_eq_some_iff_append.mpr ⟨decide_eq_true nearest, front, back, parts, fun other inFront => ?_⟩
    rw [Bool.not_eq_true', decide_eq_false_iff_not]
    intro otherNearest
    exact Nat.not_le_of_lt (before other inFront) (otherNearest.fewest _ inBlocks _ isItem nearest.eligible)
  refine ⟨candidate, listed, ?_, rfl⟩
  refine (First.congr fun other => ?_).mp ((find?_qualified_eq_some_iff accepted).mp found)
  rw [decide_eq_true_eq]
  exact ⟨fun ⟨_, _, isNearest⟩ => isNearest,
    fun isNearest => ⟨isNearest.eligible.own, isNearest.eligible.constructs, isNearest⟩⟩

end Candidate

namespace Constructor

variable {d : Declaration} {shape : Shape} {blocks : List Implementation} {type : String} {closest : Option Closest}
  {span : Span}

theorem select_eq_noInitializer_iff :
    select shape blocks = .error (.noInitializer type closest span) ↔
      ∃ candidates, Candidate.qualified shape.name.text blocks = .ok candidates ∧
        (∀ candidate ∈ candidates, candidate.function.lacking shape.names ≠ []) ∧
        type = shape.name.text ∧ closest = Candidate.closest shape.names candidates ∧ span = shape.name.span := by
  unfold select
  cases Candidate.qualified shape.name.text blocks with
  | error fault => simp
  | ok candidates =>
      have lacks (candidate : Candidate) : ¬ (candidate.missing shape.names).isEmpty = true ↔
          candidate.function.lacking shape.names ≠ [] := by
        rw [Candidate.missing_eq_lacking, List.isEmpty_iff]
      cases found : candidates.find? fun candidate => (candidate.missing shape.names).isEmpty with
      | none =>
          have allLack := List.find?_eq_none.mp found
          simp only [lacks] at allLack
          simp only [found, Except.error.injEq, Failure.noInitializer.injEq, Except.ok.injEq, exists_eq_left']
          rw [and_iff_right allLack, eq_comm, @eq_comm _ _ closest, @eq_comm _ _ span]
      | some candidate =>
          have complete : (candidate.missing shape.names).isEmpty = true := by simpa using List.find?_some found
          simp only [found, reduceCtorEq, Except.ok.injEq, exists_eq_left', false_iff, not_and]
          intro allLack
          exact absurd complete ((lacks candidate).mpr (allLack candidate (List.mem_of_find?_eq_some found)))

/-- What is wrong with a class of which no constructor takes every property. Without an eligible function there is
nothing to name. Otherwise the first of the nearest is named, with all that it lacks, which is never nothing. -/
theorem diagnosis_of_noInitializer (scanned : Shape.ofDeclaration d = .ok shape)
    (failed : select shape blocks = .error (.noInitializer type closest span)) :
    type = d.name.text ∧ span = d.name.span ∧
    ((∀ block ∈ blocks, ∀ f, .function f ∈ block.items → ¬ Candidate.Eligible d.name.text ⟨block, f⟩) ∧
      closest = none ∧ Failure.detail closest = "; no constructor returning `Self` was found" ∨
    ∃ candidate, Candidate.First (Candidate.Nearest d.name.text d.storedNames blocks) blocks candidate ∧
      candidate.function.lacking d.storedNames ≠ [] ∧
      closest = some ⟨candidate.function.signature.name.text, candidate.function.lacking d.storedNames⟩ ∧
      Failure.detail closest = "; closest is " ++ Failure.quoted candidate.function.signature.name.text ++
        ", which does not take " ++
          ", ".intercalate ((candidate.function.lacking d.storedNames).map Failure.quoted)) := by
  obtain ⟨candidates, accepted, allLack, rfl, rfl, rfl⟩ := select_eq_noInitializer_iff.mp failed
  rw [Shape.names_eq scanned] at allLack
  rw [Shape.name_eq scanned] at accepted
  rw [Shape.name_eq scanned, Shape.names_eq scanned]
  refine ⟨rfl, rfl, ?_⟩
  cases closestFound : Candidate.closest d.storedNames candidates with
  | none =>
      refine .inl ⟨fun block inBlocks f isItem eligible => ?_, rfl, rfl⟩
      have member := (Candidate.mem_qualified_iff accepted).mpr
        ⟨inBlocks, isItem, eligible.own, eligible.constructs⟩
      rw [Candidate.closest_eq_none_iff.mp closestFound] at member
      cases member
  | some found =>
      obtain ⟨candidate, listed, first, rfl⟩ := Candidate.first_nearest_of_closest accepted closestFound
      exact .inr ⟨candidate, first, allLack candidate listed, rfl, rfl⟩

section Item

open ClassDefinition

def itemStruct : Declaration where
  attributes := []
  head := [.word "struct" .origin]
  name := ⟨"Item", .origin⟩
  generics := Generics.empty
  body := .struct (.named
    [(plainField "text" "String" none, true), (plainField "value" "i64" none, true),
      (plainField "size" "u8" none, true), (plainField "cache" "Cache" (some "skip"), false)] .origin)
  stop := []

/-- Two constructors of these lack one property each, and one lacks two. Nothing is lacked by a function that leaves
the work to another. -/
def itemBlocks : List Implementation :=
  [labelBlock none "Item"
      [.function (plainConstructor "named" ["text"] []),
        .function (plainConstructor "measured" ["size", "text"] [])] .origin,
    labelBlock none "Item"
      [.function (plainConstructor "whole" ["text", "value", "size"] (delegation "measured")),
        .function (plainConstructor "priced" ["text", "value"] [])] .origin]

theorem diagnosis_of_noInitializer_item :
    ∃ shape, Shape.ofDeclaration itemStruct = .ok shape ∧
      select shape itemBlocks = .error (.noInitializer "Item" (some ⟨"measured", ["value"]⟩) .origin) ∧
      ∃ candidate, Candidate.First (Candidate.Nearest "Item" itemStruct.storedNames itemBlocks) itemBlocks candidate ∧
        candidate.function.signature.name.text = "measured" ∧
        candidate.function.lacking itemStruct.storedNames = ["value"] := by
  obtain ⟨shape, scanned, failed⟩ : ∃ shape, Shape.ofDeclaration itemStruct = .ok shape ∧
      select shape itemBlocks = .error (.noInitializer "Item" (some ⟨"measured", ["value"]⟩) .origin) := ⟨_, rfl, rfl⟩
  refine ⟨shape, scanned, failed, ?_⟩
  obtain ⟨_, _, ⟨_, absent, _⟩ | ⟨candidate, first, _, same, _⟩⟩ := diagnosis_of_noInitializer scanned failed
  · cases absent
  · obtain ⟨named, lacked⟩ := Closest.mk.inj (Option.some.inj same)
    exact ⟨candidate, first, named.symm, lacked.symm⟩

end Item

end Constructor

end Replica
