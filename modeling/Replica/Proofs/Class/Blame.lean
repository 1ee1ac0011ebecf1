import Replica.Proofs.Class.Obstacles
import Replica.Proofs.Class.Scanning

/-!
What a struct with named fields is refused for. Its own attributes are read first. Behind them the fields are looked at
one after the other, and the first that has a fault is reported, with the fault of its attributes rather than that of
its type.
-/

namespace Replica

/-- The first item that fails has nothing but results in front of it. -/
theorem Except.mapM_eq_error_iff_append {ε α β : Type} {f : α → Except ε β} {items : List α} {error : ε} :
    items.mapM f = .error error ↔
      ∃ before item after, items = before ++ item :: after ∧
        (∀ earlier ∈ before, ∃ result, f earlier = .ok result) ∧ f item = .error error := by
  have isOk (item : α) : (f item).isOk ↔ ∃ result, f item = .ok result := by
    cases f item <;> simp [Except.isOk, Except.toBool]
  rw [mapM_eq_error_iff]
  constructor
  · rintro ⟨item, found, failed⟩
    obtain ⟨_, before, after, rfl, passed⟩ := List.find?_eq_some_iff_append.mp found
    refine ⟨before, item, after, rfl, ?_, failed⟩
    intro earlier member
    exact (isOk earlier).mp (by simpa using passed earlier member)
  · rintro ⟨before, item, after, rfl, passed, failed⟩
    refine ⟨item, List.find?_eq_some_iff_append.mpr ⟨?_, before, after, rfl, ?_⟩, failed⟩
    · simp [failed, Except.isOk, Except.toBool]
    · intro earlier member
      simpa using (isOk earlier).mpr (passed earlier member)

namespace Field

variable {field : Field} {name : Name} {failure : Failure}

/-- The marks of the field could be read, and there is none. -/
structure Unmarked (field : Field) : Prop where
  readable : field.marks.fault = none
  empty : field.marks.entries = []

/-- What is wrong with a field: its attributes, or where these leave it without a strategy, its type. The reason is
the first obstacle in the type. -/
inductive Faulty (field : Field) (name : Name) : Failure → Prop
  | marks {fault : Helper.Fault} (faulty : Strategy.ofAttributes field.attributes = .error fault) :
      Faulty field name (.helper fault)
  | type {obstacle : Obstacle} (unmarked : field.Unmarked)
      (hindered : Foremost field.type.outline.Hindered (some obstacle.message)) :
      Faulty field name (.unsupported name.text (Token.renderAll field.type.tokens) obstacle
        (Token.spanAll field.type.tokens))

theorem unmarked_iff : field.Unmarked ↔ Strategy.ofAttributes field.attributes = .ok .deep := by
  constructor
  · rintro ⟨readable, empty⟩
    exact Strategy.ofAttributes_eq_ok_iff.mpr ⟨readable, .inl ⟨empty, rfl⟩⟩
  · intro accepted
    exact ⟨(Strategy.ofAttributes_eq_ok_iff.mp accepted).1, (Strategy.eq_deep_iff accepted).mp rfl⟩

/-- The field with another type, if its attributes do not leave it without a strategy. -/
def retyped (field : Field) (type : TypeText) : Field :=
  match Strategy.ofAttributes field.attributes with
  | .ok .deep => field
  | _ => { field with type }

@[simp]
theorem name_retyped (field : Field) (type : TypeText) : (field.retyped type).name = field.name := by
  unfold retyped
  split <;> rfl

end Field

namespace TypeOutline

variable {type : TypeOutline} {obstacle : Obstacle}

theorem message_injective {first second : Obstacle} (same : first.message = second.message) : first = second := by
  cases first <;> cases second <;> first | rfl | (revert same; decide)

theorem obstacle?_eq_some_iff : type.obstacle? = some obstacle ↔ Foremost type.Hindered (some obstacle.message) := by
  rw [Foremost, ← type.foremost_obstacle?.eq_some_iff fun _ _ _ => Hindered.unique, Option.map_eq_some_iff]
  constructor
  · intro found
    exact ⟨obstacle, found, rfl⟩
  · rintro ⟨other, found, same⟩
    rw [found, message_injective same]

theorem obstacle?_eq_none_iff : type.obstacle? = none ↔ ∀ place reason, ¬ type.Hindered place reason := by
  have answered := type.foremost_obstacle?.exists_iff
  rw [ne_eq, Option.map_eq_none_iff] at answered
  rw [← not_iff_not, answered]
  simp

end TypeOutline

namespace Role

variable {name : Name} {field : Field} {failure : Failure}

theorem ofField_eq_error_iff : ofField name field = .error failure ↔ field.Faulty name failure := by
  constructor
  · intro failed
    unfold ofField at failed
    split at failed
    next fault faulty =>
      cases failed
      exact .marks faulty
    next => cases failed
    next accepted =>
      split at failed
      next obstacle found =>
        cases failed
        exact .type (Field.unmarked_iff.mpr accepted) (TypeOutline.obstacle?_eq_some_iff.mp found)
      next => cases failed
    next => cases failed
  · intro faulty
    cases faulty with
    | marks faulty => simp [ofField, faulty]
    | type unmarked hindered =>
        simp [ofField, Field.unmarked_iff.mp unmarked, TypeOutline.obstacle?_eq_some_iff.mpr hindered]

theorem exists_ofField_iff_not_faulty :
    (∃ role, ofField name field = .ok role) ↔ ∀ failure, ¬ field.Faulty name failure := by
  simp only [← ofField_eq_error_iff]
  cases ofField name field <;> simp

theorem exists_ofField_iff_supported :
    (∃ role, ofField name field = .ok role) ↔
      (∃ strategy, Strategy.ofAttributes field.attributes = .ok strategy) ∧
        (field.Unmarked → ∀ place reason, ¬ field.type.outline.Hindered place reason) := by
  rw [exists_ofField_iff_not_faulty]
  constructor
  · intro faultless
    constructor
    · cases accepted : Strategy.ofAttributes field.attributes with
      | ok strategy => exact ⟨strategy, rfl⟩
      | error fault => exact absurd (.marks accepted) (faultless _)
    · intro unmarked
      rw [← TypeOutline.obstacle?_eq_none_iff]
      cases found : field.type.outline.obstacle? with
      | none => rfl
      | some obstacle => exact absurd (.type unmarked (TypeOutline.obstacle?_eq_some_iff.mp found)) (faultless _)
  · rintro ⟨⟨strategy, accepted⟩, supported⟩ failure faulty
    cases faulty with
    | marks faulty => simp [accepted] at faulty
    | type unmarked hindered =>
        have clear := TypeOutline.obstacle?_eq_none_iff.mpr (supported unmarked)
        rw [TypeOutline.obstacle?_eq_some_iff.mpr hindered] at clear
        cases clear

theorem ofField_retyped (type : TypeText) : ofField name (field.retyped type) = ofField name field := by
  unfold Field.retyped
  split
  next => rfl
  next marked =>
    unfold ofField
    cases accepted : Strategy.ofAttributes field.attributes with
    | error fault => rfl
    | ok strategy =>
        cases strategy with
        | deep => exact absurd accepted marked
        | _ => rfl

end Role

/-- What a struct with these attributes and fields is refused for. -/
inductive Blames (attributes : List Attribute) (fields : List Field) : Failure → Prop
  | container {fault : Helper.Fault} (faulty : ContainerOptions.ofAttributes attributes = .error fault) :
      Blames attributes fields (.helper fault)
  | field {options : ContainerOptions} {before after : List Field} {field : Field} {name : Name} {failure : Failure}
      (clear : ContainerOptions.ofAttributes attributes = .ok options) (split : fields = before ++ field :: after)
      (first : ∀ earlier ∈ before, ∀ name, earlier.name = some name → ∀ failure, ¬ earlier.Faulty name failure)
      (named : field.name = some name) (faulty : field.Faulty name failure) : Blames attributes fields failure

namespace Declaration

/-- The struct with named fields that has everything else from the declaration. -/
def withFields (d : Declaration) (fields : Separated Field) (span : Span) : Declaration :=
  { d with body := .struct (.named fields span) }

end Declaration

namespace Shape

variable {fields : List Field} {failure : Failure}

/-- What the fields are to a copy, in their order. -/
def scanned (fields : List Field) : Except Failure (List Role) :=
  (namedFields fields).mapM fun (name, field) => Role.ofField name field

theorem scanned_eq_error_iff :
    scanned fields = .error failure ↔
      ∃ before field after name, fields = before ++ field :: after ∧
        (∀ earlier ∈ before, ∀ name, earlier.name = some name → ∀ failure, ¬ earlier.Faulty name failure) ∧
        field.name = some name ∧ field.Faulty name failure := by
  rw [scanned, Except.mapM_eq_error_iff_append]
  constructor
  · rintro ⟨front, ⟨name, field⟩, behind, split, passed, failed⟩
    obtain ⟨first, second, rfl, rfl, others⟩ := List.filterMap_eq_append_iff.mp split
    obtain ⟨nameless, _, after, rfl, skipped, here, _⟩ := List.filterMap_eq_cons_iff.mp others
    obtain ⟨_, named, same⟩ := Option.map_eq_some_iff.mp here
    cases same
    refine ⟨first ++ nameless, field, after, name, by simp, ?_, named, Role.ofField_eq_error_iff.mp failed⟩
    intro earlier member other isNamed
    rcases List.mem_append.mp member with inFront | isNameless
    · exact Role.exists_ofField_iff_not_faulty.mp
        (passed (other, earlier) (mem_namedFields_iff.mpr ⟨inFront, isNamed⟩))
    · have absent := skipped earlier isNameless
      rw [isNamed] at absent
      cases absent
  · rintro ⟨before, field, after, name, rfl, passed, named, faulty⟩
    refine ⟨namedFields before, (name, field), namedFields after, by simp [namedFields, named], ?_,
      Role.ofField_eq_error_iff.mpr faulty⟩
    rintro ⟨other, earlier⟩ member
    obtain ⟨inFront, isNamed⟩ := mem_namedFields_iff.mp member
    exact Role.exists_ofField_iff_not_faulty.mpr (passed earlier inFront other isNamed)

theorem scanned_retyped (fields : List Field) (retype : Nat → TypeText) :
    scanned (fields.mapIdx fun n field => field.retyped (retype n)) = scanned fields := by
  induction fields generalizing retype with
  | nil => rfl
  | cons field fields ih =>
      have rest := ih fun n => retype (n + 1)
      unfold scanned namedFields at rest ⊢
      rw [List.mapIdx_cons, List.filterMap_cons, List.filterMap_cons, Field.name_retyped]
      cases field.name with
      | none => exact rest
      | some name => simp only [Option.map_some, List.mapM_cons, Role.ofField_retyped, rest]

variable {d : Declaration} {span : Span}

theorem ofDeclaration_withFields (d : Declaration) (fields : Separated Field) (span : Span) :
    ofDeclaration (d.withFields fields span) =
      (ContainerOptions.ofAttributes d.attributes).mapError .helper >>= fun options =>
        scanned fields.items >>= fun roles => .ok (ofRoles d .named options roles) := by
  unfold ofDeclaration
  rw [Declaration.withFields]
  cases ContainerOptions.ofAttributes d.attributes <;> rfl

theorem ofDeclaration_withFields_eq_error_iff {fields : Separated Field} :
    ofDeclaration (d.withFields fields span) = .error failure ↔ Blames d.attributes fields.items failure := by
  simp only [ofDeclaration_withFields, Except.bind_eq_error_iff, Except.mapError_eq_error_iff,
    Except.mapError_eq_ok_iff, scanned_eq_error_iff, reduceCtorEq, and_false, exists_false, or_false]
  constructor
  · rintro (⟨fault, faulty, rfl⟩ | ⟨options, clear, before, field, after, name, split, first, named, faulty⟩)
    · exact .container faulty
    · exact .field clear split first named faulty
  · intro blamed
    cases blamed with
    | container faulty => exact .inl ⟨_, faulty, rfl⟩
    | field clear split first named faulty => exact .inr ⟨_, clear, _, _, _, _, split, first, named, faulty⟩

theorem exists_ofDeclaration_withFields_iff {fields : Separated Field} :
    (∃ shape, ofDeclaration (d.withFields fields span) = .ok shape) ↔
      (∃ options, ContainerOptions.ofAttributes d.attributes = .ok options) ∧
        ∀ field ∈ fields.items, ∀ name, field.name = some name →
          (∃ strategy, Strategy.ofAttributes field.attributes = .ok strategy) ∧
            (field.Unmarked → ∀ place reason, ¬ field.type.outline.Hindered place reason) := by
  have accepted : (∃ roles, scanned fields.items = .ok roles) ↔
      ∀ field ∈ fields.items, ∀ name, field.name = some name →
        (∃ strategy, Strategy.ofAttributes field.attributes = .ok strategy) ∧
          (field.Unmarked → ∀ place reason, ¬ field.type.outline.Hindered place reason) := by
    rw [scanned, Except.exists_mapM_eq_ok_iff]
    simp only [Prod.forall, mem_namedFields_iff, Role.exists_ofField_iff_supported]
    exact ⟨fun all field member name named => all name field ⟨member, named⟩,
      fun all name field member => all field member.1 name member.2⟩
  rw [← accepted]
  simp only [ofDeclaration_withFields, Except.bind_eq_ok_iff, Except.mapError_eq_ok_iff]
  constructor
  · rintro ⟨_, options, clear, roles, made, _⟩
    exact ⟨⟨options, clear⟩, roles, made⟩
  · rintro ⟨⟨options, clear⟩, roles, made⟩
    exact ⟨_, options, clear, roles, made, rfl⟩

/-- A struct with named fields is accepted if and only if its attributes can be read, those of each field can be read,
and the type of each field without a strategy can be copied. Otherwise it is refused for its own attributes or else
for the first field with a fault. Types of fields with a strategy do not count. -/
theorem scan_blames_first (d : Declaration) (fields : Separated Field) (span : Span) :
    ((∃ shape, ofDeclaration (d.withFields fields span) = .ok shape) ↔
      (∃ options, ContainerOptions.ofAttributes d.attributes = .ok options) ∧
        ∀ field ∈ fields.items, ∀ name, field.name = some name →
          (∃ strategy, Strategy.ofAttributes field.attributes = .ok strategy) ∧
            (field.Unmarked → ∀ place reason, ¬ field.type.outline.Hindered place reason)) ∧
    (∀ failure, ofDeclaration (d.withFields fields span) = .error failure ↔
      Blames d.attributes fields.items failure) ∧
    ∀ retype : Nat → TypeText,
      (ofDeclaration (d.withFields (fields.mapIdx fun n entry => (entry.1.retyped (retype n), entry.2)) span)) =
        ofDeclaration (d.withFields fields span) := by
  refine ⟨exists_ofDeclaration_withFields_iff, fun _ => ofDeclaration_withFields_eq_error_iff, ?_⟩
  intro retype
  have items : Separated.items (fields.mapIdx fun n entry => (entry.1.retyped (retype n), entry.2)) =
      fields.items.mapIdx fun n field => field.retyped (retype n) := by
    apply List.ext_getElem?
    intro n
    simp [Separated.items, Function.comp_def]
  rw [ofDeclaration_withFields, ofDeclaration_withFields, items, scanned_retyped]

end Shape

end Replica
