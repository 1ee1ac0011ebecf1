import Replica.Proofs.Class.Locality
import Replica.Proofs.Class.Grouping
import Replica.Proofs.Grammar.Separation

/-!
The headers of generated blocks. Both blocks of an expansion stand under the same parameters and the same clause, and
are for the same type. The clause repeats what the base asks for, and behind it stand the predicates of the user, or
for each parameter that is a type the demand that its values can be copied.
-/

namespace Replica

open Token

namespace Bound

variable {α : Type} {isLifetime : α → Bool} {shown : α → List Token} {list front back : Separated α}

end Bound

namespace Separated

end Separated

namespace Generics

end Generics

namespace ContainerOptions

open Helper

variable {attributes : List Attribute} {options : ContainerOptions}

def Entry.literal? : Entry → Option Literal
  | .bound given => some given
  | _ => .none

theorem mem_picked_literal? {literal : Literal} (member : literal ∈ (reading attributes).picked Entry.literal?) :
    (reading attributes).Has (.bound literal) := by
  obtain ⟨meaning, isMeaning, picked⟩ := List.mem_filterMap.mp member
  obtain ⟨entry, isEntry, rfl⟩ := List.mem_map.mp isMeaning
  obtain ⟨known, means, shown⟩ := Option.bind_eq_some_iff.mp picked
  cases known <;> cases shown
  exact ⟨entry, isEntry, means⟩

/-- The bound is told by the last literal that is given for it. -/
theorem bound_of_accepted (accepted : ofAttributes attributes = .ok options) :
    (reading attributes).picked Entry.literal? = [] ∧ options.bound = .none ∨
      ∃ literal text predicates, ((reading attributes).picked Entry.literal?).getLast? = some literal ∧
        literal.string? = some text ∧ readBound text = .ok predicates ∧ options.bound = some predicates := by
  have predicates : (reading attributes).picked Entry.predicates? =
      ((reading attributes).picked Entry.literal?).filterMap
        fun literal => literal.string?.bind fun text => (readBound text).toOption := by
    unfold Reading.picked
    rw [List.filterMap_filterMap]
    refine List.filterMap_congr fun meaning _ => ?_
    rw [Option.bind_assoc]
    congr 1
    funext entry
    cases entry <;> rfl
  have last := (last_of_accepted accepted).2.2
  rw [predicates] at last
  obtain none | ⟨front, literal, parts⟩ := ((reading attributes).picked Entry.literal?).eq_nil_or_concat
  · rw [none] at last
    exact .inl ⟨none, last⟩
  · have has : (reading attributes).Has (.bound literal) := mem_picked_literal? (by simp [parts])
    obtain ⟨text, predicates, isText, read⟩ := (exists_ofAttributes_iff.mp ⟨options, accepted⟩).2 literal has
    refine .inr ⟨literal, text, predicates, by simp [parts], isText, read, ?_⟩
    rw [last, parts]
    simp [isText, read, Except.toOption]

end ContainerOptions

namespace Declaration

variable {d : Declaration} {options : ContainerOptions} {parameters : Separated GenericParameter}

/-- The path to the home of the trait: the last that is given, or that of the library itself. -/
inductive Home (d : Declaration) : List Token → Prop
  | given {path : PathText}
      (last : ((ContainerOptions.reading d.attributes).picked ContainerOptions.Entry.home?).getLast? = some path) :
      Home d path.tokens
  | default (none : (ContainerOptions.reading d.attributes).picked ContainerOptions.Entry.home? = []) :
      Home d (spellAll ["::", "deepcopy_rs"])

/-- What is asked beyond the base: the predicates of the last bound that is given, or that values can be copied of
each parameter that is a type. -/
inductive Demands (d : Declaration) (parameters : Separated GenericParameter) (home : List Token) :
    List (List Token) → Prop
  | given {literal : Literal} {text : String} {predicates : List (List Token)}
      (last : ((ContainerOptions.reading d.attributes).picked ContainerOptions.Entry.literal?).getLast? = some literal)
      (isText : literal.string? = some text) (reads : ContainerOptions.readBound text = .ok predicates) :
      Demands d parameters home predicates
  | inferred (none : (ContainerOptions.reading d.attributes).picked ContainerOptions.Entry.literal? = []) :
      Demands d parameters home ((parameters.items.filter fun parameter => parameter.kind = .type).map
        fun parameter => parameter.name ++ spell ":" ++ home ++ spellAll ["::", "DeepCopy"])

theorem home_homeTokens (accepted : ContainerOptions.ofAttributes d.attributes = .ok options) :
    d.Home options.homeTokens := by
  have last := (ContainerOptions.last_of_accepted accepted).1
  unfold ContainerOptions.homeTokens
  cases given : options.home with
  | some path => exact .given (last.symm.trans given)
  | none => exact .default (List.getLast?_eq_none_iff.mp (last.symm.trans given))

end Declaration

namespace Shape

variable {d : Declaration} {shape : Shape}

theorem options_accepted (scanned : ofDeclaration d = .ok shape) :
    ContainerOptions.ofAttributes d.attributes = .ok shape.options := by
  obtain ⟨kind, options, roles, _, accepted, _, rfl⟩ := ofDeclaration_eq_ok_iff.mp scanned
  exact accepted

theorem generics_eq (scanned : ofDeclaration d = .ok shape) : shape.generics = d.generics := by
  obtain ⟨kind, options, roles, _, _, _, rfl⟩ := ofDeclaration_eq_ok_iff.mp scanned
  rfl

end Shape

namespace Expansion

variable {expansion : Expansion} {d : Declaration} {shape : Shape}

section Built

variable {generics : Generics} {selfType : List Token} {body : CopyBody}

theorem demands_boundPredicates (accepted : ContainerOptions.ofAttributes d.attributes = .ok shape.options) :
    d.Demands generics.parameters shape.options.homeTokens
      (build shape generics selfType body).boundPredicates := by
  obtain ⟨none, inferred⟩ | ⟨literal, text, predicates, last, isText, read, given⟩ :=
    ContainerOptions.bound_of_accepted accepted
  · have demanded : (build shape generics selfType body).boundPredicates =
        (generics.parameters.items.filter fun parameter => parameter.kind = .type).map fun parameter =>
          parameter.name ++ spell ":" ++ shape.options.homeTokens ++ spellAll ["::", "DeepCopy"] := by
      simp only [boundPredicates, build, boundsFor, inferred, Generics.typeParameters, List.map_map, traitTokens]
      exact List.map_congr_left fun parameter _ => (List.append_assoc ..).symm
    rw [demanded]
    exact .inferred none
  · have demanded : (build shape generics selfType body).boundPredicates = predicates := by
      simp only [boundPredicates, build, boundsFor, given]
    rw [demanded]
    exact .given last isText read

end Built

end Expansion

/-- The predicates that a constructor adds to those of its block. They may speak of its own parameters, and are left
out if it has any. -/
def Candidate.ownPredicates (candidate : Candidate) : List (List Token) :=
  if candidate.function.signature.generics.parameters = [] then
    (candidate.function.signature.generics.clause.getD []).items
  else []

theorem Candidate.clause_extend {candidate : Candidate} :
    candidate.generics.clause.getD [] =
      (candidate.block.generics.clause.getD []).extend candidate.ownPredicates := by
  rw [clause_generics, ownPredicates]
  simp only [List.isEmpty_iff]
  split
  next => rfl
  next => rfl

section Gauge

def gaugePredicate (type bound : String) : List Token :=
  spellAll [type, ":", bound]

/-- Parameters of all kinds, with a default and with a lifetime behind a type, and a clause that ends with a comma. -/
def gaugeGenerics : Generics where
  parameters :=
    [(⟨.type, [], [], spell "T", spellAll [":", "Clone"], spellAll ["=", "u8"]⟩, true),
      (⟨.lifetime, [], [], [.mark '\'' true .origin, .word "a" .origin], [], []⟩, true),
      (⟨.constant, [], spell "const", spell "N", spellAll [":", "usize"], []⟩, false)]
  clause := some [(gaugePredicate "T" "Sized", true)]

def gaugeStruct : Declaration where
  attributes := []
  head := spell "struct"
  name := ⟨"Gauge", .origin⟩
  generics := gaugeGenerics
  body := .struct (.named [(ClassDefinition.plainField "level" "Level" none, false)] .origin)
  stop := []

def gaugeConstructor : Function where
  attributes := []
  head := []
  signature :=
    { name := ⟨"new", .origin⟩
      isAsync := false
      isUnsafe := false
      generics := { Generics.empty with clause := some [(gaugePredicate "T" "Send", false)] }
      parameters := [.typed (.name "level" false)]
      result := some (.path none false [.bare "Self"]) }
  statements := []
  body := []
  span := .origin

def gaugeBlock : Implementation :=
  { ClassDefinition.labelBlock none "Gauge" [.function gaugeConstructor] .origin with generics := gaugeGenerics }

example : (ClassDefinition.expand ⟨.declaration gaugeStruct, [gaugeBlock]⟩).map Expansion.clause =
    .ok (spellAll ["where", "T", ":", "Sized", ",", "T", ":", "Send", ",", "T", ":", "::", "deepcopy_rs", "::",
      "DeepCopy"]) := rfl

end Gauge

end Replica
