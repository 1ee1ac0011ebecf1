import Replica.Proofs.Class.Locality
import Replica.Proofs.Class.Obstacles

/-!
What a constructor returns. It is told by name alone that a type is the class: the arguments behind the name count as
little as the parentheses around it. A function may therefore be taken for the constructor of a class of which it makes
another instance.
-/

namespace Replica

variable {className : String}

namespace TypeOutline

variable {type : TypeOutline}

/-- The type is the core, with parentheses and invisible groups around it. -/
inductive Wraps (core : TypeOutline) : TypeOutline → Prop where
  | core : Wraps core core
  | parenthesized {inner : TypeOutline} (wraps : Wraps core inner) : Wraps core (.parenthesized inner)
  | grouped {inner : TypeOutline} (wraps : Wraps core inner) : Wraps core (.grouped inner)

theorem names_iff_wraps :
    type.Names className ↔ ∃ rooted segment, Wraps (.path none rooted [segment]) type ∧
      (segment.name = "Self" ∨ segment.name = className) := by
  constructor
  · intro named
    induction named with
    | path named => exact ⟨_, _, .core, named⟩
    | parenthesized _ ih =>
        obtain ⟨rooted, segment, wraps, named⟩ := ih
        exact ⟨rooted, segment, .parenthesized wraps, named⟩
    | grouped _ ih =>
        obtain ⟨rooted, segment, wraps, named⟩ := ih
        exact ⟨rooted, segment, .grouped wraps, named⟩
  · rintro ⟨rooted, segment, wraps, named⟩
    induction wraps with
    | core => exact .path named
    | parenthesized _ ih => exact .parenthesized ih
    | grouped _ ih => exact .grouped ih

/-- The type of the block that it is written in. -/
def own : TypeOutline := .path none false [.bare "Self"]

theorem names_own : own.Names className := .path (.inl rfl)

end TypeOutline

namespace Function

variable {f : Function} {result : TypeOutline}

/-- The result is a path of one segment, with any arguments or none, and the segment is `Self` or the class's name. -/
def Returns (className : String) (f : Function) : Prop :=
  ∃ result rooted segment, f.signature.result = some result ∧ TypeOutline.Wraps (.path none rooted [segment]) result ∧
    (segment.name = "Self" ∨ segment.name = className)

/-- The function with another result. -/
def returning (result : TypeOutline) (f : Function) : Function :=
  { f with signature := { f.signature with result := some result } }

theorem returns_iff : f.Returns className ↔ ∃ result, f.signature.result = some result ∧ result.Names className := by
  simp only [Returns, TypeOutline.names_iff_wraps, exists_and_left]

/-- Whether a function constructs values is decided by the name of its result and by what is not its result. -/
theorem constructs_iff_returns :
    f.Constructs className ↔ f.Returns className ∧ (f.returning TypeOutline.own).Constructs className := by
  rw [returns_iff]
  constructor
  · rintro ⟨kept, primary, free, immediate, safe, returns, direct⟩
    exact ⟨returns, kept, primary, free, immediate, safe, ⟨_, rfl, TypeOutline.names_own⟩, direct⟩
  · rintro ⟨returns, kept, primary, free, immediate, safe, _, direct⟩
    exact ⟨kept, primary, free, immediate, safe, returns, direct⟩

end Function

namespace Candidate

variable {candidate : Candidate} {isProperty : String → Prop} {result : TypeOutline}

def returning (result : TypeOutline) (candidate : Candidate) : Candidate :=
  { candidate with function := candidate.function.returning result }

theorem builds_iff_returns :
    candidate.Builds className isProperty ↔
      candidate.function.Returns className ∧ (candidate.returning TypeOutline.own).Builds className isProperty := by
  rw [builds_iff, builds_iff, Function.constructs_iff_returns]
  exact ⟨fun ⟨own, ⟨returns, constructs⟩, takes⟩ => ⟨returns, own, constructs, takes⟩,
    fun ⟨returns, own, constructs, takes⟩ => ⟨own, ⟨returns, constructs⟩, takes⟩⟩

/-- The function returns the type that its block is for: `Self`, or the class with the arguments of the block. -/
def ReturnsOwn (className : String) (candidate : Candidate) : Prop :=
  ∃ result, candidate.function.signature.result = some result ∧
    (TypeOutline.own.Wraps result ∨ ∃ rooted segment rooted' subject,
      TypeOutline.Wraps (.path none rooted [segment]) result ∧ segment.name = className ∧
        TypeOutline.Wraps (.path none rooted' [subject]) candidate.block.selfType.outline ∧
        segment.types = subject.types)

end Candidate

namespace ClassDefinition

variable {definition : ClassDefinition} {d : Declaration} {candidate : Candidate}

theorem exists_calls_of_first (declares : definition.declaration = .declaration d) (copyable : d.Copyable)
    (clear : Implementation.AllClear d.name.text definition.blocks)
    (first : Candidate.First (Candidate.Builds d.name.text d.Stores) definition.blocks candidate) :
    ∃ expansion, definition.expand = .ok expansion ∧ expansion.Calls d definition.blocks candidate := by
  obtain ⟨shape, scanned⟩ := Shape.exists_ofDeclaration_iff.mpr copyable
  have selected := (Constructor.select_scanned_eq_ok_iff scanned).mpr ⟨clear, candidate, first, rfl⟩
  exact ⟨_, expand_eq_ok_iff.mpr ⟨d, shape, _, declares, scanned, selected, rfl⟩,
    Expansion.byConstructor_calls scanned first⟩

/-- Copies are built by a function that returns the class by name. Of its result nothing else counts, so that with
another result of that name, whatever the arguments, the same function serves. Functions that return anything else are
passed over, and the first one behind them that serves is called. -/
theorem calls_function_returning_class (definition : ClassDefinition) :
    (∀ expansion, definition.expand = .ok expansion → ∃ d candidate, definition.declaration = .declaration d ∧
      expansion.Calls d definition.blocks candidate ∧ candidate.function.Returns d.name.text) ∧
    (∀ (candidate : Candidate) className isProperty, candidate.Builds className isProperty ↔
      candidate.function.Returns className ∧ (candidate.returning TypeOutline.own).Builds className isProperty) ∧
    ∀ d front candidate back, definition.declaration = .declaration d → d.Copyable →
      Implementation.AllClear d.name.text definition.blocks →
      Candidate.all definition.blocks = front ++ candidate :: back → candidate.Builds d.name.text d.Stores →
      (∀ other ∈ front, ¬ other.function.Returns d.name.text ∨
        ¬ (other.returning TypeOutline.own).Builds d.name.text d.Stores) →
      ∃ expansion, definition.expand = .ok expansion ∧ expansion.Calls d definition.blocks candidate := by
  classical
  refine ⟨fun expansion expanded => ?_, fun _ _ _ => Candidate.builds_iff_returns, ?_⟩
  · obtain ⟨d, shape, constructor, declaration, scanned, selected, rfl⟩ := expand_eq_ok_iff.mp expanded
    obtain ⟨_, candidate, first, rfl⟩ := (Constructor.select_scanned_eq_ok_iff scanned).mp selected
    exact ⟨d, candidate, declaration, Expansion.byConstructor_calls scanned first,
      (Candidate.builds_iff_returns.mp first.1).1⟩
  · intro d front candidate back declares copyable clear parts builds passed
    have none : ∀ other ∈ front, (!decide (other.Builds d.name.text d.Stores)) = true := by
      intro other inFront
      rw [Bool.not_eq_true', decide_eq_false_iff_not, Candidate.builds_iff_returns, not_and_or]
      exact passed other inFront
    have found : (Candidate.all definition.blocks).find? (decide <| Candidate.Builds d.name.text d.Stores ·) =
        some candidate := List.find?_eq_some_iff_append.mpr ⟨decide_eq_true builds, front, back, parts, none⟩
    have first := (Candidate.First.congr fun _ => decide_eq_true_iff).mp (Candidate.find?_all_eq_some_iff.mp found)
    exact exists_calls_of_first declares copyable clear first

section Stack

open Token

def stackGenerics : Generics := ⟨[(⟨.type, [], [], spell "T", [], []⟩, false)], none⟩

def stackStruct : Declaration where
  attributes := []
  head := spell "struct"
  name := ⟨"Stack", .origin⟩
  generics := stackGenerics
  body := .struct (.named [(plainField "items" "Items" none, false)] .origin)
  stop := []

/-- The class, or another type, with this argument. -/
def instanceOf (type argument : String) : TypeOutline :=
  .path none false [.generic type false [.path none false [.bare argument]]]

def stackFunction (name : String) (result : TypeOutline) : Function :=
  (plainConstructor name ["items"] []).returning result

/-- A function for stacks of bytes, made from items of any kind. -/
def bytes : Function := stackFunction "bytes" (.parenthesized (instanceOf "Stack" "u8"))

/-- A block for stacks of any kind. Its first function may fail, and the last is the constructor. -/
def stackBlock : Implementation where
  attributes := []
  head := spell "impl"
  generics := stackGenerics
  trait := none
  selfType := ⟨instanceOf "Stack" "T", spellAll ["Stack", "<", "T", ">"]⟩
  items := [.function (stackFunction "checked" (instanceOf "Option" "Self")), .function bytes,
    .function (stackFunction "new" .own)]
  span := .origin

def stack : ClassDefinition := ⟨.declaration stackStruct, [stackBlock]⟩

theorem stackStruct_copyable : stackStruct.Copyable := Shape.exists_ofDeclaration_iff.mp ⟨_, rfl⟩

theorem stack_clear : Implementation.AllClear "Stack" stack.blocks := Candidate.exists_qualified_iff.mp ⟨_, rfl⟩

theorem stackFunction_builds {name : String} {result : TypeOutline} (named : result.Names "Stack") :
    Candidate.Builds "Stack" stackStruct.Stores ⟨stackBlock, stackFunction name result⟩ := by
  have accepted : ConstructorOptions.ofAttributes [] = .ok ⟨false, false⟩ := rfl
  obtain ⟨skip, convenience⟩ := ConstructorOptions.marks_of_ofAttributes accepted
  refine ⟨⟨rfl, .path (.inr rfl)⟩, ⟨?_, ?_, by rintro _ ⟨⟩, rfl, rfl, ⟨result, rfl, named⟩, by rintro _ ⟨⟩⟩, ?_⟩
  · exact fun marked => Bool.false_ne_true (skip.mpr marked)
  · exact fun marked => Bool.false_ne_true (convenience.mpr marked)
  · rintro _ ⟨field, member, name, isName, rfl, _⟩
    cases List.mem_singleton.mp member
    cases isName
    exact ⟨_, List.mem_cons_self, .typed .name⟩

theorem bytes_builds : Candidate.Builds "Stack" stackStruct.Stores ⟨stackBlock, bytes⟩ :=
  stackFunction_builds (.parenthesized (.path (.inr rfl)))

theorem not_returns_checked : ¬ (stackFunction "checked" (instanceOf "Option" "Self")).Returns "Stack" := by
  rintro ⟨_, _, segment, ⟨⟩, wraps, named⟩
  cases wraps
  exact absurd named (by decide)

theorem calls_function_returning_class_stack :
    ∃ expansion, stack.expand = .ok expansion ∧
      (∃ d candidate, expansion.Calls d stack.blocks candidate ∧ candidate.function.Returns d.name.text) ∧
      expansion.Calls stackStruct stack.blocks ⟨stackBlock, bytes⟩ := by
  obtain ⟨calls, _, finds⟩ := calls_function_returning_class stack
  obtain ⟨expansion, expanded, called⟩ := finds stackStruct [_] _ [_] rfl stackStruct_copyable stack_clear rfl
    bytes_builds (List.forall_mem_singleton.mpr (.inl not_returns_checked))
  obtain ⟨d, candidate, _, same⟩ := calls expansion expanded
  exact ⟨expansion, expanded, ⟨d, candidate, same⟩, called⟩

/-- The function for stacks of bytes is called, in a block for stacks of any kind that has a constructor of its own. -/
theorem calls_function_of_other_instance :
    ∃ expansion constructor, stack.expand = .ok expansion ∧
      expansion.Calls stackStruct stack.blocks ⟨stackBlock, bytes⟩ ∧
      ¬ Candidate.ReturnsOwn "Stack" ⟨stackBlock, bytes⟩ ∧ .function constructor ∈ stackBlock.items ∧
      Candidate.Builds "Stack" stackStruct.Stores ⟨stackBlock, constructor⟩ ∧
      Candidate.ReturnsOwn "Stack" ⟨stackBlock, constructor⟩ := by
  have first : Candidate.First (Candidate.Builds "Stack" stackStruct.Stores) stack.blocks ⟨stackBlock, bytes⟩ := by
    refine ⟨bytes_builds, [], [], [_], [_], rfl, rfl, by simp, fun f member builds => ?_⟩
    cases List.mem_singleton.mp member
    exact not_returns_checked (Candidate.builds_iff_returns.mp builds).1
  obtain ⟨expansion, expanded, calls⟩ := exists_calls_of_first rfl stackStruct_copyable stack_clear first
  refine ⟨expansion, stackFunction "new" .own, expanded, calls, ?_,
    List.mem_cons_of_mem _ (List.mem_cons_of_mem _ List.mem_cons_self), stackFunction_builds TypeOutline.names_own,
    _, rfl, .inl .core⟩
  rintro ⟨_, ⟨⟩, isOwn | ⟨_, _, _, _, wraps, _, subject, same⟩⟩
  · cases isOwn with
    | parenthesized isOwn => cases isOwn
  · cases wraps with
    | parenthesized wraps =>
        cases wraps
        cases subject
        simp [SegmentOutline.types] at same

end Stack

end ClassDefinition

end Replica
