import Replica.Class.Definition
import Replica.Proofs.Class.Scanning
import Replica.Proofs.Class.Selection

/-!
What is written for a class: the items of its user, and behind them either both generated blocks or the
report of a failure. Which of them it is depends on conditions of the declaration and of the blocks alone.
-/

namespace Replica

namespace Constructor

variable {d : Declaration} {shape : Shape} {blocks : List Implementation} {constructor : Constructor}

theorem select_scanned_eq_ok_iff (scanned : Shape.ofDeclaration d = .ok shape) :
    select shape blocks = .ok constructor ↔
      (∀ block ∈ blocks, ∀ f, .function f ∈ block.items → ¬ Candidate.Misread d.name.text ⟨block, f⟩) ∧
      ∃ candidate, Candidate.First (Candidate.Builds d.name.text d.Stores) blocks candidate ∧
        constructor = candidate.constructor := by
  have stored : (· ∈ shape.names) = d.Stores := funext fun _ => propext (Shape.mem_names_iff scanned)
  rw [select_eq_ok_iff, stored, Shape.name_eq scanned]

theorem exists_select_scanned_eq_ok_iff (scanned : Shape.ofDeclaration d = .ok shape) :
    (∃ constructor, select shape blocks = .ok constructor) ↔
      (∀ block ∈ blocks, ∀ f, .function f ∈ block.items → ¬ Candidate.Misread d.name.text ⟨block, f⟩) ∧
      ∃ block ∈ blocks, ∃ f, .function f ∈ block.items ∧ Candidate.Builds d.name.text d.Stores ⟨block, f⟩ := by
  simp only [select_scanned_eq_ok_iff scanned, ← Candidate.exists_first_iff]
  constructor
  · rintro ⟨constructor, clear, candidate, first, _⟩
    exact ⟨clear, candidate, first⟩
  · rintro ⟨clear, candidate, first⟩
    exact ⟨candidate.constructor, clear, candidate, first, rfl⟩

end Constructor

namespace Expansion

variable {d : Declaration} {expansion : Expansion}

theorem derive_eq_ok_iff :
    derive d = .ok expansion ↔ ∃ shape, Shape.ofDeclaration d = .ok shape ∧ memberwise shape = expansion := by
  have stepped : derive d = (Shape.ofDeclaration d >>= fun shape => .ok (memberwise shape)) := rfl
  simp [stepped, Except.bind_eq_ok_iff]

end Expansion

namespace ClassDefinition

variable {definition : ClassDefinition} {expansion : Expansion}

/-- The definition declares a struct that can be copied. The marks of all functions of the class are well
formed, and some function makes values of it from its stored properties. -/
structure Declares (definition : ClassDefinition) (d : Declaration) : Prop where
  declaration : definition.declaration = .declaration d
  copyable : d.Copyable
  clear : ∀ block ∈ definition.blocks, ∀ f, .function f ∈ block.items →
    ¬ Candidate.Misread d.name.text ⟨block, f⟩
  built : ∃ block ∈ definition.blocks, ∃ f, .function f ∈ block.items ∧
    Candidate.Builds d.name.text d.Stores ⟨block, f⟩

theorem expand_eq_ok_iff :
    definition.expand = .ok expansion ↔
      ∃ d shape constructor, definition.declaration = .declaration d ∧ Shape.ofDeclaration d = .ok shape ∧
        Constructor.select shape definition.blocks = .ok constructor ∧
        Expansion.byConstructor shape constructor = expansion := by
  have stepped : definition.expand = (definition.typeDeclaration >>= fun d => Shape.ofDeclaration d >>= fun shape =>
    Constructor.select shape definition.blocks >>= fun constructor =>
      .ok (Expansion.byConstructor shape constructor)) := rfl
  have declares (d : Declaration) :
      definition.typeDeclaration = .ok d ↔ definition.declaration = .declaration d := by
    unfold typeDeclaration
    cases definition.declaration <;> simp
  simp only [stepped, Except.bind_eq_ok_iff, declares, Except.ok.injEq]
  constructor
  · rintro ⟨d, declaration, shape, scanned, constructor, selected, same⟩
    exact ⟨d, shape, constructor, declaration, scanned, selected, same⟩
  · rintro ⟨d, shape, constructor, declaration, scanned, selected, same⟩
    exact ⟨d, declaration, shape, scanned, constructor, selected, same⟩

theorem exists_expand_eq_ok_iff :
    (∃ expansion, definition.expand = .ok expansion) ↔ ∃ d, definition.Declares d := by
  simp only [expand_eq_ok_iff]
  constructor
  · rintro ⟨_, d, shape, constructor, declaration, scanned, selected, _⟩
    obtain ⟨clear, first⟩ := (Constructor.exists_select_scanned_eq_ok_iff scanned).mp ⟨constructor, selected⟩
    exact ⟨d, declaration, Shape.exists_ofDeclaration_iff.mp ⟨shape, scanned⟩, clear, first⟩
  · rintro ⟨d, declaration, copyable, clear, built⟩
    obtain ⟨shape, scanned⟩ := Shape.exists_ofDeclaration_iff.mpr copyable
    obtain ⟨constructor, selected⟩ := (Constructor.exists_select_scanned_eq_ok_iff scanned).mpr ⟨clear, built⟩
    exact ⟨_, d, shape, constructor, declaration, scanned, selected, rfl⟩

end ClassDefinition

end Replica
