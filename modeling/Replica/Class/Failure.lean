import Replica.Class.Options
import Replica.Class.Support

/-!
Why no copy can be generated for a declaration.
-/

namespace Replica

/-- Kinds of declarations that are no classes. -/
inductive NonClass where
  | enumeration
  | union
  | tupleStruct
  | trait
  | typeAlias
  | function
  | module
  | constant
  | static
  | implementation
  | use
  | call
  | externCrate
  | externBlock
  | traitAlias
  | other
deriving DecidableEq, Repr

namespace NonClass

def description : NonClass → String
  | .enumeration => "an enum"
  | .union => "a union"
  | .tupleStruct => "a tuple struct"
  | .trait => "a trait"
  | .typeAlias => "a type alias"
  | .function => "a function"
  | .module => "a module"
  | .constant => "a constant"
  | .static => "a static"
  | .implementation => "an impl block"
  | .use => "a use declaration"
  | .call => "a macro"
  | .externCrate => "an extern crate declaration"
  | .externBlock => "an extern block"
  | .traitAlias => "a trait alias"
  | .other => "an item that declares no type"

end NonClass

/-- The constructor that misses the fewest properties, and those that it misses. -/
structure Closest where
  constructor : String
  missing : List String
deriving DecidableEq, Repr

inductive Failure where
  | notAClass (kind : NonClass) (span : Span)
  | noInitializer (type : String) (closest : Option Closest) (span : Span)
  | unsupported (field : String) (type : String) (obstacle : Obstacle) (span : Span)
  | helper (fault : Helper.Fault)
deriving Repr

namespace Failure

def span : Failure → Span
  | .notAClass _ span => span
  | .noInitializer _ _ span => span
  | .unsupported _ _ _ span => span
  | .helper fault => fault.span

def quoted (text : String) : String := "`" ++ text ++ "`"

def detail : Option Closest → String
  | none => "; no constructor returning `Self` was found"
  | some closest =>
    "; closest is " ++ quoted closest.constructor ++ ", which does not take " ++
      ", ".intercalate (closest.missing.map quoted)

def message : Failure → String
  | .notAClass kind _ =>
    "`DeepCopy` can only be applied to a struct with named fields, found " ++ kind.description
  | .noInitializer type closest _ =>
    "no constructor of " ++ quoted type ++ " takes every stored property as a parameter" ++
      detail closest
  | .unsupported field type obstacle _ =>
    "field " ++ quoted field ++ " of type " ++ quoted type ++ " cannot be deep-copied: " ++
      obstacle.message ++
      "; use `#[deep_copy(clone)]`, `#[deep_copy(with = path)]` or `#[deep_copy(skip)]`"
  | .helper fault => fault.message

end Failure

end Replica
