import Replica.Class.Failure

/-!
What is known of a class: its properties, each with the way it is carried into a copy.
-/

namespace Replica

structure Property where
  name : Name
  strategy : Strategy

/-- Whether values of a class have fields. -/
inductive FieldKind where
  | named
  | unit
deriving DecidableEq, Repr

structure Shape where
  name : Name
  generics : Generics
  kind : FieldKind
  options : ContainerOptions
  /-- The fields that are copied, in the order of their declaration. -/
  properties : List Property
  skipped : List Name

/-- What a field is to a copy. -/
inductive Role where
  | copied (property : Property)
  | skipped (name : Name)

namespace Role

def property? : Role → Option Property
  | .copied property => some property
  | .skipped _ => none

def skipped? : Role → Option Name
  | .copied _ => none
  | .skipped name => some name

/-- The role that a field has by its attributes. Only a field without a strategy has to be
of a type that can be copied deeply. -/
def ofField (name : Name) (field : Field) : Except Failure Role :=
  match Strategy.ofAttributes field.attributes with
  | .error fault => .error (.helper fault)
  | .ok .skip => .ok (.skipped name)
  | .ok .deep =>
    match field.type.outline.obstacle? with
    | some obstacle =>
      .error (.unsupported name.text (Token.renderAll field.type.tokens) obstacle
        (Token.spanAll field.type.tokens))
    | none => .ok (.copied ⟨name, .deep⟩)
  | .ok strategy => .ok (.copied ⟨name, strategy⟩)

end Role

namespace Shape

def names (shape : Shape) : List String :=
  shape.properties.map fun property => property.name.text

def property? (shape : Shape) (name : String) : Option Property :=
  shape.properties.find? fun property => property.name.text = name

def namedFields (fields : List Field) : List (Name × Field) :=
  fields.filterMap fun field => field.name.map fun name => (name, field)

def ofRoles (declaration : Declaration) (kind : FieldKind) (options : ContainerOptions)
    (roles : List Role) : Shape where
  name := declaration.name
  generics := declaration.generics
  kind := kind
  options := options
  properties := roles.filterMap Role.property?
  skipped := roles.filterMap Role.skipped?

/-- The shape of a struct with named fields or none. The first fault wins: that of the
struct's own attributes, then those of its fields in order. -/
def ofDeclaration (declaration : Declaration) : Except Failure Shape :=
  match declaration.body with
  | .enumeration _ _ => .error (.notAClass .enumeration declaration.name.span)
  | .union _ => .error (.notAClass .union declaration.name.span)
  | .struct fields =>
    match ContainerOptions.ofAttributes declaration.attributes with
    | .error fault => .error (.helper fault)
    | .ok options =>
      match fields with
      | .positional _ _ => .error (.notAClass .tupleStruct declaration.name.span)
      | .unit => .ok (ofRoles declaration .unit options [])
      | .named fields _ => do
        let roles ← (namedFields fields.items).mapM fun (name, field) => Role.ofField name field
        return ofRoles declaration .named options roles

end Shape

end Replica
