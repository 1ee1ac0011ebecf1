import Replica.Class.Constructor

/-!
What is generated for a class, before it is written out.
-/

namespace Replica

inductive CopyExpression where
  | deep (field : Name)
  | clone (field : Name)
  | custom (path : PathText) (field : Name)
  | default

inductive CopyBody where
  | unit
  /-- A literal with the fields that are copied in front of those that are not. -/
  | literal (copied : List (Name × CopyExpression)) (skipped : List Name)
  | call (constructor : Name) (arguments : List CopyExpression)

/-- What is asked of the parameters of the generated blocks. -/
inductive Bounds where
  /-- Predicates of the user. -/
  | given (predicates : List (List Token))
  /-- That values of these parameters can be copied. -/
  | inferred (parameters : List (List Token))

structure Expansion where
  name : Name
  /-- The path to the trait's home. -/
  home : List Token
  method : Name
  generics : Generics
  bounds : Bounds
  selfType : List Token
  body : CopyBody

namespace Property

def expression (property : Property) : CopyExpression :=
  match property.strategy with
  | .deep => .deep property.name
  | .clone => .clone property.name
  | .custom path => .custom path property.name
  | .skip => .default

end Property

namespace Generics

def typeParameters (generics : Generics) : List (List Token) :=
  (generics.parameters.items.filter fun p => p.kind = .type).map GenericParameter.name

end Generics

namespace Expansion

def boundsFor (options : ContainerOptions) (generics : Generics) : Bounds :=
  match options.bound with
  | some predicates => .given predicates
  | none => .inferred generics.typeParameters

/-- What is common to both ways of building a copy. -/
def build (shape : Shape) (generics : Generics) (selfType : List Token) (body : CopyBody) :
    Expansion where
  name := shape.name
  home := shape.options.homeTokens
  method := shape.options.methodName
  generics := generics
  bounds := boundsFor shape.options generics
  selfType := selfType
  body := body

def literalBody (shape : Shape) : CopyBody :=
  match shape.kind with
  | .unit => .unit
  | .named =>
    .literal (shape.properties.map fun property => (property.name, property.expression))
      shape.skipped

def memberwise (shape : Shape) : Expansion :=
  build shape shape.generics (shape.name.token :: shape.generics.arguments) (literalBody shape)

/-- The argument for a parameter: the copy of the property that it is named after. -/
def argument (shape : Shape) (parameter : Option String) : CopyExpression :=
  match parameter.bind shape.property? with
  | some property => property.expression
  | none => .default

def byConstructor (shape : Shape) (constructor : Constructor) : Expansion :=
  build shape constructor.generics constructor.selfType.tokens
    (.call constructor.name (constructor.parameters.map (argument shape)))

def derive (declaration : Declaration) : Except Failure Expansion := do
  return memberwise (← Shape.ofDeclaration declaration)

end Expansion

end Replica
