import Replica.Class.Shape

/-!
Constructors. A copy is built by the first function of a class that takes every property
as a parameter.
-/

namespace Replica

namespace TypeOutline

/-- The type is the class: `Self` or the class's name, whatever arguments it has. -/
def isClass (className : String) : TypeOutline → Bool
  | .path none _ [segment] => segment.name = "Self" || segment.name = className
  | .parenthesized inner => isClass className inner
  | .grouped inner => isClass className inner
  | _ => false

end TypeOutline

namespace ExpressionOutline

/-- The expression inside parentheses, invisible groups and `return`. -/
def peel : ExpressionOutline → ExpressionOutline
  | .parenthesized inner => peel inner
  | .grouped inner => peel inner
  | .returned (some value) => peel value
  | outline => outline

def isClassCall (className : String) (outline : ExpressionOutline) : Bool :=
  match outline.peel with
  | .call callee =>
    match callee.peel with
    | .path _ [first, _] => first.name = "Self" || first.name = className
    | _ => false
  | _ => false

end ExpressionOutline

namespace PatternOutline

/-- The one name that the pattern binds to the whole value. -/
def name? : PatternOutline → Option String
  | .name text false => some text
  | .parenthesized inner => name? inner
  | _ => none

end PatternOutline

namespace Parameter

def name? : Parameter → Option String
  | .typed pattern => pattern.name?
  | _ => none

def isReceiver : Parameter → Bool
  | .receiver _ => true
  | _ => false

end Parameter

namespace Function

def hasReceiver (f : Function) : Bool :=
  f.signature.parameters.head?.any Parameter.isReceiver

/-- The function makes a value of the class from nothing but its arguments. -/
def isConstructor (className : String) (f : Function) : Bool :=
  !f.hasReceiver && !f.signature.isAsync && !f.signature.isUnsafe &&
    f.signature.result.any (TypeOutline.isClass className)

/-- The whole body is a call of another function of the class. -/
def delegates (className : String) (f : Function) : Bool :=
  match f.statements with
  | [.expression outline false] => outline.isClassCall className
  | _ => false

def parameterNames (f : Function) : List (Option String) :=
  f.signature.parameters.map Parameter.name?

end Function

namespace Implementation

def functions (block : Implementation) : List Function :=
  block.items.filterMap fun
    | .function f => some f
    | .other _ _ => none

/-- The block belongs to the class itself and not to a trait. -/
def isInherent (className : String) (block : Implementation) : Bool :=
  block.trait.isNone && block.selfType.outline.isClass className

end Implementation

/-- A function that may build copies, and the block that it stands in. -/
structure Candidate where
  block : Implementation
  function : Function

structure Constructor where
  name : Name
  /-- For each parameter the name that it binds. -/
  parameters : List (Option String)
  /-- The generics under which the constructor can be called. -/
  generics : Generics
  selfType : TypeText

namespace Candidate

/-- All functions of the class in the order of their declaration. -/
def listed (className : String) (blocks : List Implementation) : List Candidate :=
  (blocks.filter (Implementation.isInherent className)).flatMap fun block =>
    block.functions.map fun function => ⟨block, function⟩

/-- The function is not excluded by its attributes, and builds values by itself. -/
def qualifies (className : String) (options : ConstructorOptions) (f : Function) : Bool :=
  !options.skip && !options.convenience && f.isConstructor className && !f.delegates className

def withOptions (candidate : Candidate) :
    Except Helper.Fault (Candidate × ConstructorOptions) := do
  return (candidate, ← ConstructorOptions.ofAttributes candidate.function.attributes)

/-- The functions that qualify. The attributes of all functions of the class have to be well
formed, also of those that do not qualify. -/
def qualified (className : String) (blocks : List Implementation) :
    Except Helper.Fault (List Candidate) := do
  let all ← (listed className blocks).mapM withOptions
  return (all.filter fun (candidate, options) =>
    qualifies className options candidate.function).map Prod.fst

/-- The properties that no parameter is named after. -/
def missing (properties : List String) (candidate : Candidate) : List String :=
  properties.filter fun name => !candidate.function.parameterNames.contains (some name)

/-- The generics of the block. The clause of a function without parameters of its own
speaks of the block's parameters only, and joins the clause of the block. -/
def generics (candidate : Candidate) : Generics :=
  let block := candidate.block.generics
  let own := candidate.function.signature.generics
  match own.parameters, own.clause with
  | [], some predicates =>
    { block with clause := some ((block.clause.getD []).extend predicates.items) }
  | _, _ => block

def constructor (candidate : Candidate) : Constructor where
  name := candidate.function.signature.name
  parameters := candidate.function.parameterNames
  generics := candidate.generics
  selfType := candidate.block.selfType

/-- The first of the candidates that miss the fewest properties. -/
def closest (properties : List String) : List Candidate → Option Closest
  | [] => none
  | candidate :: rest =>
    let here : Closest :=
      ⟨candidate.function.signature.name.text, candidate.missing properties⟩
    match closest properties rest with
    | none => some here
    | some other => if other.missing.length < here.missing.length then some other else some here

end Candidate

namespace Constructor

/-- The first candidate that misses no property. -/
def select (shape : Shape) (blocks : List Implementation) : Except Failure Constructor :=
  match Candidate.qualified shape.name.text blocks with
  | .error fault => .error (.helper fault)
  | .ok candidates =>
    match candidates.find? fun candidate => (candidate.missing shape.names).isEmpty with
    | some candidate => .ok candidate.constructor
    | none =>
      .error (.noInitializer shape.name.text (Candidate.closest shape.names candidates)
        shape.name.span)

end Constructor

end Replica
