import Replica.Class.Shape
import Replica.Proofs.Class.Attributes

/-!
Which structs can be copied, and what is known of their fields then.
-/

namespace Replica

namespace Field

variable {field : Field}

/-- The entries at the field. -/
def marks (field : Field) : Helper.Reading Strategy :=
  Strategy.reading field.attributes

/-- The marks of the field are well formed. It has at most one, and without any its type has to be one whose
values can be copied deeply. -/
structure Copyable (field : Field) : Prop where
  clear : field.marks.WellFormed
  single : field.marks.entries.length ≤ 1
  supported : field.marks.entries = [] → field.type.outline.obstacle? = none

/-- The field has this name and is carried into copies. -/
def Stores (field : Field) (text : String) : Prop :=
  ∃ name, field.name = some name ∧ name.text = text ∧ ¬ field.marks.Has .skip

end Field

namespace Strategy

variable {attributes : List Attribute} {strategy : Strategy}

theorem exists_ofAttributes_iff :
    (∃ strategy, ofAttributes attributes = .ok strategy) ↔
      (reading attributes).WellFormed ∧ (reading attributes).entries.length ≤ 1 := by
  simp only [ofAttributes_eq_ok_iff]
  constructor
  · rintro ⟨strategy, readable, ⟨empty, _⟩ | ⟨span, single⟩⟩
    · exact ⟨⟨readable, by simp [empty]⟩, by simp [empty]⟩
    · exact ⟨⟨readable, by simp [single]⟩, by simp [single]⟩
  · rintro ⟨⟨readable, known⟩, short⟩
    generalize (reading attributes).entries = entries at known short
    match entries with
    | [] => exact ⟨.deep, readable, .inl ⟨rfl, rfl⟩⟩
    | [⟨some strategy, span⟩] => exact ⟨strategy, readable, .inr ⟨span, rfl⟩⟩
    | [⟨none, span⟩] => simp at known

theorem eq_deep_iff (accepted : ofAttributes attributes = .ok strategy) :
    strategy = .deep ↔ (reading attributes).entries = [] := by
  obtain ⟨_, ⟨empty, isDeep⟩ | ⟨span, single⟩⟩ := ofAttributes_eq_ok_iff.mp accepted
  · simp [empty, isDeep]
  · simp only [single, reduceCtorEq, iff_false]
    rintro rfl
    have member : (⟨some .deep, span⟩ : Helper.Entry Strategy) ∈ (reading attributes).entries := by simp [single]
    exact not_expresses_deep (Helper.expresses_of_mem_ofAttributes member rfl)

theorem eq_skip_iff (accepted : ofAttributes attributes = .ok strategy) :
    strategy = .skip ↔ (reading attributes).Has .skip := by
  obtain ⟨_, ⟨empty, isDeep⟩ | ⟨span, single⟩⟩ := ofAttributes_eq_ok_iff.mp accepted
  · simp [Helper.Reading.Has, empty, isDeep]
  · simp [Helper.Reading.Has, single]

end Strategy

namespace Role

variable {name : Name} {field : Field} {role : Role}

theorem ofField_eq_ok_iff :
    ofField name field = .ok role ↔
      ∃ strategy, Strategy.ofAttributes field.attributes = .ok strategy ∧
        (strategy = .deep → field.type.outline.obstacle? = none) ∧
        (strategy = .skip ∧ role = .skipped name ∨ strategy ≠ .skip ∧ role = .copied ⟨name, strategy⟩) := by
  unfold ofField
  cases Strategy.ofAttributes field.attributes with
  | error fault => simp
  | ok strategy =>
      cases strategy with
      | skip => simp [eq_comm]
      | clone => simp [eq_comm]
      | custom path => simp [eq_comm]
      | deep =>
          cases field.type.outline.obstacle? with
          | none => simp [eq_comm]
          | some obstacle => simp

theorem exists_ofField_iff : (∃ role, ofField name field = .ok role) ↔ field.Copyable := by
  simp only [ofField_eq_ok_iff]
  constructor
  · rintro ⟨_, strategy, accepted, supported, _⟩
    obtain ⟨clear, single⟩ := Strategy.exists_ofAttributes_iff.mp ⟨strategy, accepted⟩
    exact ⟨clear, single, fun empty => supported ((Strategy.eq_deep_iff accepted).mpr empty)⟩
  · rintro ⟨clear, single, supported⟩
    obtain ⟨strategy, accepted⟩ := Strategy.exists_ofAttributes_iff.mpr ⟨clear, single⟩
    have deep (isDeep : strategy = .deep) := supported ((Strategy.eq_deep_iff accepted).mp isDeep)
    by_cases isSkip : strategy = .skip
    · exact ⟨.skipped name, strategy, accepted, deep, .inl ⟨isSkip, rfl⟩⟩
    · exact ⟨.copied ⟨name, strategy⟩, strategy, accepted, deep, .inr ⟨isSkip, rfl⟩⟩

end Role

namespace Field

variable {field : Field} {name : Name} {role : Role}

/-- What the field is to a copy. -/
def role? (field : Field) : Option Role :=
  match field.name, Strategy.ofAttributes field.attributes with
  | some name, .ok .skip => some (.skipped name)
  | some name, .ok strategy => some (.copied ⟨name, strategy⟩)
  | _, _ => none

def property? (field : Field) : Option Property :=
  field.role?.bind Role.property?

theorem role?_eq_some_iff :
    field.role? = some role ↔
      ∃ name strategy, field.name = some name ∧ Strategy.ofAttributes field.attributes = .ok strategy ∧
        (strategy = .skip ∧ role = .skipped name ∨ strategy ≠ .skip ∧ role = .copied ⟨name, strategy⟩) := by
  unfold role?
  cases field.name with
  | none => simp
  | some name =>
      cases Strategy.ofAttributes field.attributes with
      | error fault => simp
      | ok strategy => cases strategy <;> simp [eq_comm]

theorem role?_of_ofField (named : field.name = some name) (made : Role.ofField name field = .ok role) :
    field.role? = some role := by
  obtain ⟨strategy, accepted, _, cases⟩ := Role.ofField_eq_ok_iff.mp made
  exact role?_eq_some_iff.mpr ⟨name, strategy, named, accepted, cases⟩

theorem property?_eq_some_iff {property : Property} :
    field.property? = some property ↔
      field.name = some property.name ∧ Strategy.ofAttributes field.attributes = .ok property.strategy ∧
        property.strategy ≠ .skip := by
  unfold property?
  rw [Option.bind_eq_some_iff]
  simp only [role?_eq_some_iff]
  constructor
  · rintro ⟨_, ⟨name, strategy, named, accepted, ⟨_, rfl⟩ | ⟨notSkip, rfl⟩⟩, shown⟩
    · cases shown
    · cases shown
      exact ⟨named, accepted, notSkip⟩
  · rintro ⟨named, accepted, notSkip⟩
    exact ⟨.copied property, ⟨property.name, property.strategy, named, accepted, .inr ⟨notSkip, rfl⟩⟩, rfl⟩

theorem stores_iff {text : String} (copyable : ∀ name, field.name = some name → field.Copyable) :
    field.Stores text ↔ ∃ property, field.property? = some property ∧ property.name.text = text := by
  simp only [Stores, property?_eq_some_iff]
  constructor
  · rintro ⟨name, named, rfl, stored⟩
    obtain ⟨clear, single, _⟩ := copyable name named
    obtain ⟨strategy, accepted⟩ := Strategy.exists_ofAttributes_iff.mpr ⟨clear, single⟩
    exact ⟨⟨name, strategy⟩, ⟨named, accepted, (Strategy.eq_skip_iff accepted).not.mpr stored⟩, rfl⟩
  · rintro ⟨⟨name, strategy⟩, ⟨named, accepted, notSkip⟩, rfl⟩
    exact ⟨name, named, rfl, (Strategy.eq_skip_iff accepted).not.mp notSkip⟩

end Field

namespace Declaration

/-- The fields of a struct. -/
def fields (d : Declaration) : List Field :=
  match d.body with
  | .struct fields => fields.toList
  | _ => []

/-- A field of this name is carried into copies. -/
def Stores (d : Declaration) (text : String) : Prop :=
  ∃ field ∈ d.fields, field.Stores text

/-- The declaration is a struct with named fields or none, and nothing about it stands against copies. -/
structure Copyable (d : Declaration) : Prop where
  struct : d.body = .struct .unit ∨ ∃ fields span, d.body = .struct (.named fields span)
  clear : (ContainerOptions.reading d.attributes).WellFormed
  bounds : ∀ literal, (ContainerOptions.reading d.attributes).Has (.bound literal) →
    ContainerOptions.Bounding literal
  fields : ∀ field ∈ d.fields, ∀ name, field.name = some name → field.Copyable

end Declaration

namespace Shape

variable {d : Declaration} {shape : Shape}

theorem mem_namedFields_iff {fields : List Field} {name : Name} {field : Field} :
    (name, field) ∈ namedFields fields ↔ field ∈ fields ∧ field.name = some name := by
  simp only [namedFields, List.mem_filterMap, Option.map_eq_some_iff, Prod.mk.injEq]
  constructor
  · rintro ⟨_, member, _, named, rfl, rfl⟩
    exact ⟨member, named⟩
  · rintro ⟨member, named⟩
    exact ⟨field, member, name, named, rfl, rfl⟩

theorem ofDeclaration_eq_ok_iff :
    ofDeclaration d = .ok shape ↔
      ∃ kind options roles, (d.body = .struct .unit ∧ kind = .unit ∨
          ∃ fields span, d.body = .struct (.named fields span) ∧ kind = .named) ∧
        ContainerOptions.ofAttributes d.attributes = .ok options ∧
        ((namedFields d.fields).mapM fun (name, field) => Role.ofField name field) = .ok roles ∧
        ofRoles d kind options roles = shape := by
  unfold ofDeclaration Declaration.fields
  cases d.body with
  | enumeration variants span => simp
  | union fields => simp
  | struct fields =>
      cases ContainerOptions.ofAttributes d.attributes with
      | error fault => simp
      | ok options =>
          cases fields with
          | positional fields span => simp
          | unit => simp [Fields.toList, namedFields, pure, Except.pure]
          | named fields span => simp [Fields.toList, Except.bind_eq_ok_iff, pure, Except.pure]

theorem exists_ofDeclaration_iff : (∃ shape, ofDeclaration d = .ok shape) ↔ d.Copyable := by
  have fields : (∃ roles, ((namedFields d.fields).mapM fun (name, field) => Role.ofField name field) = .ok roles) ↔
      ∀ field ∈ d.fields, ∀ name, field.name = some name → field.Copyable := by
    rw [Except.exists_mapM_eq_ok_iff]
    simp only [Prod.forall, mem_namedFields_iff, Role.exists_ofField_iff]
    exact ⟨fun all field member name named => all name field ⟨member, named⟩,
      fun all name field ⟨member, named⟩ => all field member name named⟩
  simp only [ofDeclaration_eq_ok_iff]
  constructor
  · rintro ⟨shape, kind, options, roles, struct, accepted, made, _⟩
    obtain ⟨clear, bounds⟩ := ContainerOptions.exists_ofAttributes_iff.mp ⟨options, accepted⟩
    refine ⟨?_, clear, bounds, fields.mp ⟨roles, made⟩⟩
    exact struct.imp And.left fun ⟨fields, span, named, _⟩ => ⟨fields, span, named⟩
  · rintro ⟨struct, clear, bounds, all⟩
    obtain ⟨options, accepted⟩ := ContainerOptions.exists_ofAttributes_iff.mpr ⟨clear, bounds⟩
    obtain ⟨roles, made⟩ := fields.mpr all
    rcases struct with unit | ⟨fields, span, named⟩
    · exact ⟨_, .unit, options, roles, .inl ⟨unit, rfl⟩, accepted, made, rfl⟩
    · exact ⟨_, .named, options, roles, .inr ⟨fields, span, named, rfl⟩, accepted, made, rfl⟩

theorem roles_eq {fields : List Field} {roles : List Role}
    (made : ((namedFields fields).mapM fun (name, field) => Role.ofField name field) = .ok roles) :
    roles = fields.filterMap Field.role? := by
  induction fields generalizing roles with
  | nil =>
      cases made
      rfl
  | cons field fields ih =>
      cases named : field.name with
      | none =>
          have nothing : field.role? = none := by simp [Field.role?, named]
          rw [List.filterMap_cons_none nothing]
          exact ih (by simpa [namedFields, named] using made)
      | some name =>
          have split : namedFields (field :: fields) = (name, field) :: namedFields fields := by
            simp [namedFields, named]
          rw [split, Except.mapM_eq_ok_iff] at made
          obtain _ | ⟨here, others⟩ := made
          rw [List.filterMap_cons_some (Field.role?_of_ofField named here),
            ← ih (Except.mapM_eq_ok_iff.mpr others)]

section Scanned

variable (scanned : ofDeclaration d = .ok shape)

include scanned

theorem name_eq : shape.name = d.name := by
  obtain ⟨kind, options, roles, _, _, _, rfl⟩ := ofDeclaration_eq_ok_iff.mp scanned
  rfl

/-- The fields that are carried into copies are known in the order of their declaration. -/
theorem properties_eq : shape.properties = d.fields.filterMap Field.property? := by
  obtain ⟨kind, options, roles, _, _, made, rfl⟩ := ofDeclaration_eq_ok_iff.mp scanned
  rw [ofRoles, roles_eq made, List.filterMap_filterMap]
  rfl

theorem skipped_eq : shape.skipped = (d.fields.filterMap Field.role?).filterMap Role.skipped? := by
  obtain ⟨kind, options, roles, _, _, made, rfl⟩ := ofDeclaration_eq_ok_iff.mp scanned
  rw [ofRoles, roles_eq made]

theorem mem_names_iff {text : String} : text ∈ shape.names ↔ d.Stores text := by
  have copyable := (exists_ofDeclaration_iff.mp ⟨shape, scanned⟩).fields
  simp only [names, properties_eq scanned, List.mem_map, List.mem_filterMap, Declaration.Stores]
  constructor
  · rintro ⟨property, ⟨field, member, isProperty⟩, same⟩
    exact ⟨field, member, (Field.stores_iff (copyable field member)).mpr ⟨property, isProperty, same⟩⟩
  · rintro ⟨field, member, stores⟩
    obtain ⟨property, isProperty, same⟩ := (Field.stores_iff (copyable field member)).mp stores
    exact ⟨property, ⟨field, member, isProperty⟩, same⟩

end Scanned

end Shape

end Replica
