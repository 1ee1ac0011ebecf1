import Replica.Proofs.Class.Acceptance

/-!
Items that are no classes. Whatever stands behind them, no copy is generated and one report is written. It names the
kind of the item, and points to its name where it has one. Only a struct with positional fields can hide what it is: its
own attributes are read before its fields are looked at, and a fault in them is reported in the place of its kind.
-/

namespace Replica

namespace Item

variable {item : Item} {d : Declaration} {kind : NonClass} {span : Span} {fault : Helper.Fault}

/-- The item is a struct that copies can be asked for: it has named fields, or no body. -/
inductive IsClass : Item → Prop
  | unit {d : Declaration} (struct : d.body = .struct .unit) : IsClass (.declaration d)
  | named {d : Declaration} {fields : Separated Field} {span : Span} (struct : d.body = .struct (.named fields span)) :
      IsClass (.declaration d)

/-- The item is no class, but of this kind. The span is that of its name, or of the whole item if it has none. -/
inductive Differs : Item → NonClass → Span → Prop
  | enumeration {d : Declaration} {variants : Separated Variant} {span : Span}
      (body : d.body = .enumeration variants span) : Differs (.declaration d) .enumeration d.name.span
  | union {d : Declaration} {fields : Fields} (body : d.body = .union fields) :
      Differs (.declaration d) .union d.name.span
  | tupleStruct {d : Declaration} {fields : Separated Field} {span : Span}
      (body : d.body = .struct (.positional fields span)) : Differs (.declaration d) .tupleStruct d.name.span
  | implementation {block : Implementation} :
      Differs (.implementation block) .implementation (Token.spanAll block.tokens)
  | named {kind : ItemKind} {name : Span} {tokens : List Token} :
      Differs (.other kind (some name) tokens) (ClassDefinition.kindOf kind) name
  | nameless {kind : ItemKind} {tokens : List Token} :
      Differs (.other kind none tokens) (ClassDefinition.kindOf kind) (Token.spanAll tokens)

/-- The item is a struct with positional fields whose own attributes have this fault. -/
inductive Distracts : Item → Helper.Fault → Prop
  | tupleStruct {d : Declaration} {fields : Separated Field} {span : Span} {fault : Helper.Fault}
      (body : d.body = .struct (.positional fields span))
      (faulty : ContainerOptions.ofAttributes d.attributes = .error fault) : Distracts (.declaration d) fault

/-- Why an item that is no class is refused. -/
inductive Refused (item : Item) : Failure → Prop
  | kind {kind : NonClass} {span : Span} (differs : item.Differs kind span)
      (undistracted : ∀ fault, ¬ item.Distracts fault) : Refused item (.notAClass kind span)
  | faulty {fault : Helper.Fault} (distracts : item.Distracts fault) : Refused item (.helper fault)

theorem differs_iff_not_isClass : (∃ kind span, item.Differs kind span) ↔ ¬ item.IsClass := by
  constructor
  · rintro ⟨kind, span, differs⟩ isClass
    cases isClass with
    | unit struct => cases differs <;> simp_all
    | named struct => cases differs <;> simp_all
  · intro notClass
    cases item with
    | implementation block => exact ⟨_, _, .implementation⟩
    | other kind name tokens =>
        cases name with
        | none => exact ⟨_, _, .nameless⟩
        | some name => exact ⟨_, _, .named⟩
    | declaration d =>
        cases body : d.body with
        | enumeration variants span => exact ⟨_, _, .enumeration body⟩
        | union fields => exact ⟨_, _, .union body⟩
        | struct fields =>
            cases fields with
            | positional fields span => exact ⟨_, _, .tupleStruct body⟩
            | named fields span => exact absurd (.named body) notClass
            | unit => exact absurd (.unit body) notClass

theorem Differs.unique {sort : NonClass} {place : Span} (differs : item.Differs kind span)
    (alsoDiffers : item.Differs sort place) : kind = sort ∧ span = place := by
  cases differs with
  | enumeration body => cases alsoDiffers <;> simp_all
  | union body => cases alsoDiffers <;> simp_all
  | tupleStruct body => cases alsoDiffers <;> simp_all
  | implementation =>
      cases alsoDiffers
      exact ⟨rfl, rfl⟩
  | named =>
      cases alsoDiffers
      exact ⟨rfl, rfl⟩
  | nameless =>
      cases alsoDiffers
      exact ⟨rfl, rfl⟩

theorem notAClass_iff {α : Type} {result : Except Failure α}
    (refused : ¬ item.IsClass → ∃ failure, item.Refused failure ∧ result = .error failure)
    (others : item.IsClass → ∀ kind span, result ≠ .error (.notAClass kind span)) :
    result = .error (.notAClass kind span) ↔ item.Differs kind span ∧ ∀ fault, ¬ item.Distracts fault := by
  constructor
  · intro failed
    obtain ⟨failure, why, alsoFailed⟩ := refused fun isClass => others isClass kind span failed
    cases failed.symm.trans alsoFailed
    cases why with
    | kind differs undistracted => exact ⟨differs, undistracted⟩
  · rintro ⟨differs, undistracted⟩
    obtain ⟨failure, why, failed⟩ := refused (differs_iff_not_isClass.mp ⟨kind, span, differs⟩)
    cases why with
    | faulty distracts => exact absurd distracts (undistracted _)
    | kind alsoDiffers _ =>
        obtain ⟨rfl, rfl⟩ := differs.unique alsoDiffers
        exact failed

end Item

namespace Role

theorem ofField_ne_notAClass {name : Name} {field : Field} {kind : NonClass} {span : Span} :
    ofField name field ≠ .error (.notAClass kind span) := by
  unfold ofField
  split
  next => simp
  next => simp
  next => split <;> simp
  next => simp

end Role

namespace Shape

variable {d : Declaration} {kind : NonClass} {span : Span}

theorem ofDeclaration_refused (notClass : ¬ (Item.declaration d).IsClass) :
    ∃ failure, (Item.declaration d).Refused failure ∧ ofDeclaration d = .error failure := by
  have clear (body : ∀ fields span, d.body ≠ .struct (.positional fields span)) (fault : Helper.Fault) :
      ¬ (Item.declaration d).Distracts fault := by
    rintro ⟨positional, _⟩
    exact body _ _ positional
  unfold ofDeclaration
  cases body : d.body with
  | enumeration variants span => exact ⟨_, .kind (.enumeration body) (clear (by simp [body])), rfl⟩
  | union fields => exact ⟨_, .kind (.union body) (clear (by simp [body])), rfl⟩
  | struct fields =>
      cases fields with
      | unit => exact absurd (.unit body) notClass
      | named fields span => exact absurd (.named body) notClass
      | positional fields span =>
          cases read : ContainerOptions.ofAttributes d.attributes with
          | error fault => exact ⟨_, .faulty (.tupleStruct body read), rfl⟩
          | ok options =>
              refine ⟨_, .kind (.tupleStruct body) ?_, rfl⟩
              rintro fault ⟨_, faulty⟩
              rw [read] at faulty
              cases faulty

theorem ofDeclaration_ne_notAClass (isClass : (Item.declaration d).IsClass) :
    ofDeclaration d ≠ .error (.notAClass kind span) := by
  intro failed
  unfold ofDeclaration at failed
  cases read : ContainerOptions.ofAttributes d.attributes with
  | error fault => cases isClass <;> simp_all
  | ok options =>
      cases isClass with
      | unit struct => simp_all
      | named struct =>
          simp only [struct, read] at failed
          obtain faulty | ⟨roles, _, final⟩ := Except.bind_eq_error_iff.mp failed
          · obtain ⟨entry, _, faulty⟩ := Except.mapM_eq_error_iff.mp faulty
            exact Role.ofField_ne_notAClass faulty
          · cases final

end Shape

theorem Constructor.select_ne_notAClass {shape : Shape} {blocks : List Implementation} {kind : NonClass}
    {span : Span} : select shape blocks ≠ .error (.notAClass kind span) := by
  unfold select
  split
  next => simp
  next => split <;> simp

namespace Expansion

variable {d : Declaration} {failure : Failure}

theorem derive_eq_error_iff : derive d = .error failure ↔ Shape.ofDeclaration d = .error failure := by
  have stepped : derive d = (Shape.ofDeclaration d >>= fun shape => .ok (memberwise shape)) := rfl
  simp [stepped, Except.bind_eq_error_iff]

end Expansion

namespace ClassDefinition

variable {definition : ClassDefinition} {kind : NonClass} {span : Span}

theorem expand_refused (notClass : ¬ definition.declaration.IsClass) :
    ∃ failure, definition.declaration.Refused failure ∧ definition.expand = .error failure := by
  have undistracted {item : Item} (other : ∀ d, item ≠ .declaration d) (fault : Helper.Fault) :
      ¬ item.Distracts fault := by
    rintro ⟨_, _⟩
    exact other _ rfl
  obtain ⟨item, blocks⟩ := definition
  cases item with
  | implementation block => exact ⟨_, .kind .implementation (undistracted (by simp)), rfl⟩
  | other kind name tokens =>
      cases name with
      | none => exact ⟨_, .kind .nameless (undistracted (by simp)), rfl⟩
      | some name => exact ⟨_, .kind .named (undistracted (by simp)), rfl⟩
  | declaration d =>
      obtain ⟨failure, refused, scanned⟩ := Shape.ofDeclaration_refused notClass
      refine ⟨failure, refused, ?_⟩
      change (Shape.ofDeclaration d >>= _) = _
      rw [scanned]
      rfl

theorem expand_ne_notAClass (isClass : definition.declaration.IsClass) :
    definition.expand ≠ .error (.notAClass kind span) := by
  intro failed
  obtain ⟨item, blocks⟩ := definition
  obtain ⟨d, rfl⟩ : ∃ d, item = .declaration d := by cases isClass <;> exact ⟨_, rfl⟩
  obtain scanned | ⟨shape, _, behind⟩ := Except.bind_eq_error_iff.mp
    (show (Shape.ofDeclaration d >>= _) = _ from failed)
  · exact Shape.ofDeclaration_ne_notAClass isClass scanned
  · obtain selected | ⟨constructor, _, final⟩ := Except.bind_eq_error_iff.mp behind
    · exact Constructor.select_ne_notAClass selected
    · cases final

end ClassDefinition

namespace Item

/-- For an item that is no class nothing is generated but a report, whatever is wrong with it besides and with the
blocks behind it. The report is that of its kind, unless a fault in the own attributes of a struct with positional
fields comes first. The kind is reported of no class. -/
theorem refused_unless_class (definition : ClassDefinition) (d : Declaration) :
    (¬ definition.declaration.IsClass → ∃ failure, definition.declaration.Refused failure ∧
      definition.expand = .error failure ∧ definition.output = definition.userItems ++ reportTokens failure.message) ∧
    (¬ (declaration d).IsClass → ∃ failure, (declaration d).Refused failure ∧
      Expansion.derive d = .error failure ∧ d.derived = reportTokens failure.message) ∧
    (∀ kind span, definition.expand = .error (.notAClass kind span) ↔
      definition.declaration.Differs kind span ∧ ∀ fault, ¬ definition.declaration.Distracts fault) ∧
    ∀ kind span, Expansion.derive d = .error (.notAClass kind span) ↔
      (declaration d).Differs kind span ∧ ∀ fault, ¬ (declaration d).Distracts fault := by
  refine ⟨?_, ?_, ?_, ?_⟩
  · intro notClass
    obtain ⟨failure, refused, expanded⟩ := ClassDefinition.expand_refused notClass
    refine ⟨failure, refused, expanded, ?_⟩
    rw [ClassDefinition.output, expanded]
    rfl
  · intro notClass
    obtain ⟨failure, refused, scanned⟩ := Shape.ofDeclaration_refused notClass
    have derived := Expansion.derive_eq_error_iff.mpr scanned
    refine ⟨failure, refused, derived, ?_⟩
    rw [Declaration.derived, derived]
    rfl
  · intro kind span
    exact notAClass_iff ClassDefinition.expand_refused fun isClass _ _ => ClassDefinition.expand_ne_notAClass isClass
  · intro kind span
    rw [Expansion.derive_eq_error_iff]
    exact notAClass_iff Shape.ofDeclaration_refused fun isClass _ _ => Shape.ofDeclaration_ne_notAClass isClass

section Shallow

def shallow : Attribute :=
  ⟨false, ⟨false, [⟨Helper.name, .origin⟩]⟩, .list [.word "shallow" .origin] .origin, []⟩

def shallowDeclaration (word name : String) (body : Body) (stop : List Token) : Declaration where
  attributes := [shallow]
  head := [.word word .origin]
  name := ⟨name, .origin⟩
  generics := Generics.empty
  body := body
  stop := stop

def choiceEnum : Declaration :=
  shallowDeclaration "enum" "Choice" (.enumeration [] .origin) []

/-- A block for another type, in the place of a declaration and behind one. -/
def strayBlock : Implementation where
  attributes := [shallow]
  head := [.word "impl" .origin]
  generics := Generics.empty
  trait := none
  selfType := ⟨.path none false [.bare "Stray"], [.word "Stray" .origin]⟩
  items := []
  span := .origin

theorem refused_unless_class_choice :
    (∃ failure, (implementation strayBlock).Refused failure ∧
      ClassDefinition.expand ⟨implementation strayBlock, [strayBlock]⟩ = .error failure) ∧
    (∃ failure, (declaration choiceEnum).Refused failure ∧ Expansion.derive choiceEnum = .error failure) ∧
    (declaration choiceEnum).Differs .enumeration .origin ∧ ∀ fault, ¬ (declaration choiceEnum).Distracts fault := by
  obtain ⟨expands, derives, _, kinds⟩ := refused_unless_class ⟨implementation strayBlock, [strayBlock]⟩ choiceEnum
  have stray : ¬ (implementation strayBlock).IsClass := differs_iff_not_isClass.mp ⟨_, _, .implementation⟩
  have choice : ¬ (declaration choiceEnum).IsClass := differs_iff_not_isClass.mp ⟨_, _, .enumeration rfl⟩
  refine ⟨?_, ?_, (kinds _ _).mp rfl⟩
  · obtain ⟨failure, refused, expanded, _⟩ := expands stray
    exact ⟨failure, refused, expanded⟩
  · obtain ⟨failure, refused, derived, _⟩ := derives choice
    exact ⟨failure, refused, derived⟩

def byteField : Field where
  attributes := []
  visibility := []
  name := none
  type := ⟨.path none false [.bare "u8"], [.word "u8" .origin]⟩

def pairStruct : Declaration :=
  shallowDeclaration "struct" "Pair" (.struct (.positional [(byteField, true), (byteField, false)] .origin))
    [.mark ';' false .origin]

/-- A struct with positional fields is not always reported as one. -/
theorem tupleStruct_distracted :
    ¬ (Item.declaration pairStruct).IsClass ∧
      (∀ kind span, Expansion.derive pairStruct ≠ .error (.notAClass kind span)) ∧
      ∀ kind span, ClassDefinition.expand ⟨.declaration pairStruct, []⟩ ≠ .error (.notAClass kind span) := by
  refine ⟨differs_iff_not_isClass.mp ⟨_, _, .tupleStruct rfl⟩, ?_, ?_⟩
  · intro kind span refused
    cases refused
  · intro kind span refused
    cases refused

end Shallow

end Item

end Replica
