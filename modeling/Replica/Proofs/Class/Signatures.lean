import Replica.Proofs.Class.Agreement

/-!
What generated code takes from the blocks of a class. Only the functions that construct values matter, and of these
only their names, their generics, the names of their parameters and the type that their block is for. Whatever else
stands in the blocks can be changed or left out, and the same code is generated.
-/

namespace Replica

open Token

deriving instance DecidableEq for ConstructorOptions.Entry

instance Helper.Reading.decidableHas {α : Type} [DecidableEq α] {reading : Helper.Reading α} {meaning : α} :
    Decidable (reading.Has meaning) :=
  inferInstanceAs (Decidable (∃ entry ∈ reading.entries, entry.meaning = some meaning))

variable {className : String}

namespace Function

variable {f first second : Function}

theorem constructs_iff_checks :
    (¬ f.marks.Has .skip ∧ ¬ f.marks.Has .convenience ∧ f.isConstructor className = true ∧
      f.delegates className = false) ↔ f.Constructs className := by
  have direct : f.delegates className = false ↔
      ∀ outline, f.statements = [.expression outline false] → ¬ outline.CallsClass className := by
    rw [← Bool.not_eq_true, delegates_iff]
    push Not
    rfl
  rw [direct, isConstructor_iff, constructs_iff]
  simp only [and_assoc]

instance decidableConstructs : Decidable (f.Constructs className) :=
  decidable_of_iff _ constructs_iff_checks

/-- Generated code cannot tell the functions apart, if they are constructors. -/
structure Resembles (first second : Function) : Prop where
  name : first.signature.name.text = second.signature.name.text
  generics : first.signature.generics.Repeats second.signature.generics
  parameters : List.Forall₂ (fun parameter other => ∀ text, parameter.Binds text ↔ other.Binds text)
    first.signature.parameters second.signature.parameters

theorem Resembles.parameterNames_eq (resembles : first.Resembles second) :
    first.parameterNames = second.parameterNames := by
  have same (parameter other : Parameter) (binds : ∀ text, parameter.Binds text ↔ other.Binds text) :
      parameter.name? = other.name? := by
    ext text
    rw [Parameter.name?_eq_some_iff, Parameter.name?_eq_some_iff, binds]
  unfold parameterNames
  rw [← List.forall₂_eq_eq_eq, List.forall₂_map_left_iff, List.forall₂_map_right_iff]
  exact resembles.parameters.imp same

end Function

namespace Associated

/-- The item is a function that constructs values of the class. -/
def Constructs (className : String) : Associated → Prop
  | .function f => f.Constructs className
  | .other _ _ => False

instance decidableConstructs : (item : Associated) → Decidable (item.Constructs className)
  | .function _ => Function.decidableConstructs
  | .other _ _ => .isFalse id

inductive Resembles : Associated → Associated → Prop where
  | function {f g : Function} (resembles : f.Resembles g) : Resembles (.function f) (.function g)

end Associated

namespace Implementation

variable {block first second : Implementation} {blocks others : List Implementation}

instance decidableBelongsTo : Decidable (block.BelongsTo className) :=
  decidable_of_iff _ isInherent_iff

/-- The block with nothing in it but the functions that construct values. -/
def pruned (className : String) (block : Implementation) : Implementation :=
  { block with items := block.items.filter fun item => item.Constructs className }

/-- The blocks without those of traits and of other types, without all that constructs no values, and without the
blocks that are left empty. -/
def prunedAll (className : String) (blocks : List Implementation) : List Implementation :=
  ((blocks.filter fun block => block.BelongsTo className).map (pruned className)).filter
    fun block => !block.items.isEmpty

/-- The blocks stand under the same generics and for the same type, and their functions resemble each other. -/
structure Resembles (first second : Implementation) : Prop where
  generics : first.generics.Repeats second.generics
  selfType : Token.Alike first.selfType.tokens second.selfType.tokens
  items : List.Forall₂ Associated.Resembles first.items second.items

theorem functions_pruned :
    (block.pruned className).functions = block.functions.filter fun f => f.Constructs className := by
  unfold functions pruned
  induction block.items with
  | nil => rfl
  | cons item items ih =>
      cases item with
      | other attributes tokens =>
          have left : ¬ (Associated.other attributes tokens).Constructs className := id
          simpa [left] using ih
      | function f =>
          have same : (Associated.function f).Constructs className ↔ f.Constructs className := Iff.rfl
          by_cases constructs : f.Constructs className
          · simpa [same, constructs] using ih
          · simpa [same, constructs] using ih

theorem Resembles.functions (resembles : first.Resembles second) :
    List.Forall₂ Function.Resembles first.functions second.functions := by
  have items := resembles.items
  unfold Implementation.functions
  generalize first.items = left, second.items = right at items
  induction items with
  | nil => exact .nil
  | cons here _ ih =>
      cases here with
      | function same => exact .cons same ih

end Implementation

/-- A call of either constructor is written in the same way. -/
structure Constructor.Alike (first second : Constructor) : Prop where
  name : first.name.text = second.name.text
  parameters : first.parameters = second.parameters
  generics : first.generics.Repeats second.generics
  selfType : Token.Alike first.selfType.tokens second.selfType.tokens

namespace Candidate

variable {candidate first second : Candidate} {block other : Implementation} {f g : Function}
  {blocks others : List Implementation} {candidates rest : List Candidate} {properties : List String}

theorem parameters_generics : candidate.generics.parameters = candidate.block.generics.parameters := by
  unfold generics
  dsimp only
  split
  next => rfl
  next => rfl

/-- The predicates of the function join those of the block if the function has no parameters of its own. -/
theorem clause_generics :
    candidate.generics.clause.getD [] =
      if candidate.function.signature.generics.parameters.isEmpty then
        (candidate.block.generics.clause.getD []).extend (candidate.function.signature.generics.clause.getD []).items
      else candidate.block.generics.clause.getD [] := by
  unfold generics
  dsimp only
  cases candidate.function.signature.generics.parameters with
  | cons parameter parameters => rfl
  | nil =>
      cases candidate.function.signature.generics.clause with
      | none => rfl
      | some predicates => rfl

theorem constructor_alike (generics : block.generics.Repeats other.generics)
    (selfType : Token.Alike block.selfType.tokens other.selfType.tokens) (resembles : f.Resembles g) :
    (mk block f).constructor.Alike (mk other g).constructor := by
  refine ⟨resembles.name, resembles.parameterNames_eq, ⟨?_, ?_⟩, selfType⟩
  · change (mk block f).generics.parameters.mapItems _ = (mk other g).generics.parameters.mapItems _
    rw [parameters_generics, parameters_generics, generics.parameters]
  · change ((mk block f).generics.clause.getD []).mapItems _ = ((mk other g).generics.clause.getD []).mapItems _
    have own := resembles.generics.clause
    have predicates : (f.signature.generics.clause.getD []).items.map unplacedAll =
        (g.signature.generics.clause.getD []).items.map unplacedAll := by
      rw [← Separated.items_mapItems, own, Separated.items_mapItems]
    have none : f.signature.generics.parameters.isEmpty = g.signature.generics.parameters.isEmpty := by
      rw [← Separated.isEmpty_mapItems, resembles.generics.parameters, Separated.isEmpty_mapItems]
    rw [clause_generics, clause_generics, none]
    split
    next => rw [Separated.mapItems_extend, Separated.mapItems_extend, generics.clause, predicates]
    next => exact generics.clause

/-- Blocks without items add no functions. -/
theorem all_filter_nonempty : all (blocks.filter fun block => !block.items.isEmpty) = all blocks := by
  induction blocks with
  | nil => rfl
  | cons block blocks ih =>
      cases items : block.items with
      | nil => simp [all_cons, items, ih, Implementation.functions]
      | cons item rest => simp [all_cons, items, ih]

/-- A block has the same constructors when all else in it is left out. -/
theorem map_constructor_pruned :
    ((block.pruned className).functions.map (mk (block.pruned className))).map constructor =
      ((block.functions.map (mk block)).filter fun candidate => candidate.function.Constructs className).map
        constructor := by
  rw [Implementation.functions_pruned, List.filter_map, List.map_map, List.map_map]
  rfl

theorem map_constructor_prunedAll :
    (all (Implementation.prunedAll className blocks)).map constructor =
      ((all blocks).filter fun candidate =>
        candidate.block.BelongsTo className ∧ candidate.function.Constructs className).map constructor := by
  rw [Implementation.prunedAll, all_filter_nonempty]
  induction blocks with
  | nil => rfl
  | cons block blocks ih =>
      by_cases own : block.BelongsTo className
      · simp only [List.filter_cons, own, decide_true, if_true, List.map_cons, all_cons, List.filter_append,
          List.map_append, map_constructor_pruned, ih]
        simp [List.filter_map, Function.comp_def, own]
      · simp only [List.filter_cons, own, decide_false, Bool.false_eq_true, if_false, all_cons, List.filter_append,
          List.map_append, ih]
        simp [List.filter_map, Function.comp_def, own]

/-- Blocks that resemble each other offer the same constructors in the same order. -/
theorem constructors_alike (resemble : List.Forall₂ Implementation.Resembles blocks others) :
    List.Forall₂ Constructor.Alike ((all blocks).map constructor) ((all others).map constructor) := by
  induction resemble with
  | nil => exact .nil
  | @cons block other blocks others here _ ih =>
      have functions : List.Forall₂ Constructor.Alike ((block.functions.map (mk block)).map constructor)
          ((other.functions.map (mk other)).map constructor) := by
        rw [List.map_map, List.map_map, List.forall₂_map_left_iff, List.forall₂_map_right_iff]
        exact here.functions.imp fun _ _ => constructor_alike here.generics here.selfType
      rw [all_cons, all_cons, List.map_append, List.map_append]
      exact List.rel_append functions ih

theorem map_constructor_of_qualified (accepted : qualified className blocks = .ok candidates) :
    candidates.map constructor = (all (Implementation.prunedAll className blocks)).map constructor := by
  rw [map_constructor_prunedAll, eq_filter_of_qualified accepted]
  congr 1
  exact List.filter_congr fun _ _ => decide_eq_decide.mpr Iff.rfl

theorem missing_eq (alike : first.constructor.Alike second.constructor) :
    first.missing properties = second.missing properties := by
  have names : first.function.parameterNames = second.function.parameterNames := alike.parameters
  rw [missing, missing, names]

section Offered

variable (alike : List.Forall₂ (fun first second => first.constructor.Alike second.constructor) candidates rest)

include alike

theorem closest_eq : closest properties candidates = closest properties rest := by
  induction alike with
  | nil => rfl
  | @cons first second _ _ here _ ih =>
      have name : first.function.signature.name.text = second.function.signature.name.text := here.name
      rw [closest, closest, ih, missing_eq here, name]

theorem find?_alike :
    (candidates.find? (fun candidate => (candidate.missing properties).isEmpty) = none ∧
      rest.find? (fun candidate => (candidate.missing properties).isEmpty) = none) ∨
    ∃ first second, candidates.find? (fun candidate => (candidate.missing properties).isEmpty) = some first ∧
      rest.find? (fun candidate => (candidate.missing properties).isEmpty) = some second ∧
      first.constructor.Alike second.constructor := by
  induction alike with
  | nil => exact .inl ⟨rfl, rfl⟩
  | @cons first second _ _ here _ ih =>
      rw [List.find?_cons, List.find?_cons, missing_eq here]
      cases (second.missing properties).isEmpty with
      | true => exact .inr ⟨first, second, rfl, rfl, here⟩
      | false => exact ih

end Offered

end Candidate

/-- The blocks of a class with marks that are all well formed. -/
def Implementation.AllClear (className : String) (blocks : List Implementation) : Prop :=
  ∀ block ∈ blocks, ∀ f, .function f ∈ block.items → ¬ Candidate.Misread className ⟨block, f⟩

namespace Constructor

variable {shape : Shape} {blocks others : List Implementation} {first second : Constructor}

/-- From blocks that are pruned to the same, the same constructor is selected, or none for the same reason. -/
theorem select_alike (clear : Implementation.AllClear shape.name.text blocks)
    (otherClear : Implementation.AllClear shape.name.text others)
    (resemble : List.Forall₂ Implementation.Resembles (Implementation.prunedAll shape.name.text blocks)
      (Implementation.prunedAll shape.name.text others)) :
    (∃ first second, select shape blocks = .ok first ∧ select shape others = .ok second ∧ first.Alike second) ∨
      ∃ failure, select shape blocks = .error failure ∧ select shape others = .error failure := by
  obtain ⟨candidates, accepted⟩ := Candidate.exists_qualified_iff.mpr clear
  obtain ⟨rest, otherAccepted⟩ := Candidate.exists_qualified_iff.mpr otherClear
  have alike := Candidate.constructors_alike resemble
  rw [← Candidate.map_constructor_of_qualified accepted, ← Candidate.map_constructor_of_qualified otherAccepted,
    List.forall₂_map_left_iff, List.forall₂_map_right_iff] at alike
  unfold select
  rw [accepted, otherAccepted]
  dsimp only
  obtain ⟨none, otherNone⟩ | ⟨first, second, found, otherFound, same⟩ :=
    @Candidate.find?_alike candidates rest shape.names alike
  · rw [none, otherNone, Candidate.closest_eq alike]
    exact .inr ⟨_, rfl, rfl⟩
  · rw [found, otherFound]
    exact .inl ⟨_, _, rfl, rfl, same⟩

end Constructor

namespace Expansion

variable {shape : Shape} {first second : Constructor}

theorem byConstructor_alike (alike : first.Alike second) :
    Token.Alike (byConstructor shape first).tokens (byConstructor shape second).tokens := by
  have same : (byConstructor shape first).Alike (byConstructor shape second) :=
    ⟨rfl, rfl, rfl, alike.generics, boundPredicates_unplaced_eq rfl rfl rfl alike.generics, alike.selfType⟩
  refine same.tokens ?_
  have name : first.name.token.unplaced = second.name.token.unplaced := by
    rw [Name.token, Name.token, unplaced, unplaced, alike.name]
  change Token.Alike (CopyBody.call first.name (first.parameters.map (argument shape))).tokens
    (CopyBody.call second.name (second.parameters.map (argument shape))).tokens
  unfold Token.Alike CopyBody.tokens
  simp only [unplacedAll_append, unplacedAll, name, alike.parameters]

end Expansion

namespace ClassDefinition

variable {first second definition : ClassDefinition} {d : Declaration} {shape : Shape}

theorem expand_eq (declares : definition.declaration = .declaration d) :
    definition.expand = (Shape.ofDeclaration d >>= fun shape =>
      (Constructor.select shape definition.blocks).map (Expansion.byConstructor shape)) := by
  unfold expand typeDeclaration
  rw [declares]
  rfl

theorem expand_of_scanned (declares : definition.declaration = .declaration d)
    (scanned : Shape.ofDeclaration d = .ok shape) :
    definition.expand = (Constructor.select shape definition.blocks).map (Expansion.byConstructor shape) := by
  rw [expand_eq declares, scanned]
  rfl

/-- The generated code depends on the blocks through their constructors, and on these through no more than a call
of them shows. A failure is the same as well, wherever it is reported. -/
theorem expand_of_signatures (declares : first.declaration = .declaration d)
    (alsoDeclares : second.declaration = .declaration d)
    (clear : Implementation.AllClear d.name.text first.blocks)
    (alsoClear : Implementation.AllClear d.name.text second.blocks)
    (resemble : List.Forall₂ Implementation.Resembles (Implementation.prunedAll d.name.text first.blocks)
      (Implementation.prunedAll d.name.text second.blocks)) :
    (∃ expansion other, first.expand = .ok expansion ∧ second.expand = .ok other ∧
      Token.Alike expansion.tokens other.tokens) ∨
    ∃ failure, first.expand = .error failure ∧ second.expand = .error failure := by
  cases scanned : Shape.ofDeclaration d with
  | error failure =>
      refine .inr ⟨failure, ?_, ?_⟩
      · rw [expand_eq declares, scanned]
        rfl
      · rw [expand_eq alsoDeclares, scanned]
        rfl
  | ok shape =>
      rw [← Shape.name_eq scanned] at clear alsoClear resemble
      rw [expand_of_scanned declares scanned, expand_of_scanned alsoDeclares scanned]
      obtain ⟨constructor, other, selected, otherSelected, alike⟩ | ⟨failure, failed, otherFailed⟩ :=
        Constructor.select_alike clear alsoClear resemble
      · rw [selected, otherSelected]
        exact .inl ⟨_, _, rfl, rfl, Expansion.byConstructor_alike alike⟩
      · rw [failed, otherFailed]
        exact .inr ⟨failure, rfl, rfl⟩

section Label

def labelStruct : Declaration where
  attributes := []
  head := [.word "struct" .origin]
  name := ⟨"Label", .origin⟩
  generics := Generics.empty
  body := .struct (.named [(plainField "text" "String" none, false)] .origin)
  stop := []

/-- A function that takes a text, at this place. -/
def labelFunction (name : String) (first : Parameter) (head body : List Token) (statements : List StatementOutline)
    (span : Span) : Associated :=
  .function
    { attributes := [⟨false, ⟨false, [⟨"doc", span⟩]⟩, .value span, head⟩]
      head := head
      signature :=
        { name := ⟨name, span⟩
          isAsync := false
          isUnsafe := false
          generics := Generics.empty
          parameters := [first, .typed (.name "text" false)]
          result := some (.path none false [.bare "Self"]) }
      statements := statements
      body := body
      span := span }

def labelBlock (trait : Option (List Token)) (type : String) (items : List Associated) (span : Span) :
    Implementation where
  attributes := []
  head := [.word "impl" span]
  generics := Generics.empty
  trait := trait
  selfType := ⟨.path none false [.bare type], [.word type span]⟩
  items := items
  span := span

/-- The call of a function of the class. -/
def delegation (name : String) : List StatementOutline :=
  [.expression (.call (.path false [.bare "Self", .bare name])) false]

/-- A constructor among much else: blocks of a trait and of another type, a constant, a method, and a function that
leaves the work to the constructor. -/
def crowded : ClassDefinition where
  declaration := .declaration labelStruct
  blocks :=
    [labelBlock (some [.word "Clone" .origin, .word "for" .origin]) "Label"
        [labelFunction "clone" (.receiver .origin) [] [] [] .origin] .origin,
      labelBlock none "Other" [labelFunction "new" (.typed .other) [] [] [] .origin] .origin,
      labelBlock none "Label"
        [.other [] [.word "const" .origin], labelFunction "read" (.receiver .origin) [] [] [] .origin,
          labelFunction "short" (.typed .other) [] [] (delegation "new") .origin,
          labelFunction "new" (.typed .other) [] [.word "body" .origin] [] .origin] .origin]

/-- The same constructor further down, with another body and other words in front of it. -/
def lonely : ClassDefinition :=
  let place : Span := ⟨⟨7, 2⟩, ⟨7, 9⟩⟩
  { declaration := .declaration labelStruct
    blocks :=
      [labelBlock none "Label" [] place,
        labelBlock none "Label"
          [labelFunction "new" (.typed .other) [.word "pub" place, .word "const" place] [] [.other, .other] place]
          place] }

theorem expand_of_signatures_label :
    Implementation.AllClear "Label" crowded.blocks ∧ Implementation.AllClear "Label" lonely.blocks ∧
      List.Forall₂ Implementation.Resembles (Implementation.prunedAll "Label" crowded.blocks)
        (Implementation.prunedAll "Label" lonely.blocks) ∧
      ∃ expansion other, crowded.expand = .ok expansion ∧ lonely.expand = .ok other ∧
        Token.Alike expansion.tokens other.tokens := by
  have clear : Implementation.AllClear "Label" crowded.blocks := Candidate.exists_qualified_iff.mp ⟨_, rfl⟩
  have alsoClear : Implementation.AllClear "Label" lonely.blocks := Candidate.exists_qualified_iff.mp ⟨_, rfl⟩
  have resemble : List.Forall₂ Implementation.Resembles (Implementation.prunedAll "Label" crowded.blocks)
      (Implementation.prunedAll "Label" lonely.blocks) :=
    .cons ⟨⟨rfl, rfl⟩, rfl, .cons (.function ⟨rfl, ⟨rfl, rfl⟩,
      .cons (fun _ => Iff.rfl) (.cons (fun _ => Iff.rfl) .nil)⟩) .nil⟩ .nil
  refine ⟨clear, alsoClear, resemble, ?_⟩
  obtain both | ⟨failure, failed, _⟩ := expand_of_signatures (d := labelStruct) rfl rfl clear alsoClear resemble
  · exact both
  · cases failed

end Label

end ClassDefinition

end Replica
