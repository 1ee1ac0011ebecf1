import Replica.Grammar.Parser

/-!
What is known of the parts of a declaration beside their printed form. An outline keeps
the structure that decides how a type is copied, which names it shows and what a
function body does; the tokens keep all the rest.
-/

namespace Replica

mutual

inductive TypeOutline where
  | reference (lifetime : Option String) (mutable : Bool) (element : TypeOutline)
  | pointer (element : TypeOutline)
  | function (result : Option TypeOutline)
  /-- Bounds, the last of which may end `bare`. A `single` one stands without `dyn` in front. -/
  | traitObject (single bare : Bool)
  | opaqueType (bare : Bool)
  | parenthesized (inner : TypeOutline)
  | grouped (inner : TypeOutline)
  | array (element : TypeOutline)
  | slice (element : TypeOutline)
  | tuple (elements : List TypeOutline)
  /-- A path, behind the type in angle brackets that qualifies it. -/
  | path (qualifier : Option TypeOutline) (rooted : Bool) (segments : List SegmentOutline)
  | other

/-- A segment of a path, with the types among its arguments. -/
inductive SegmentOutline where
  | bare (name : String)
  /-- Arguments in angle brackets; in a `turbofish` a double colon stands in front of them. -/
  | generic (name : String) (turbofish : Bool) (types : List TypeOutline)
  /-- Angle brackets with nothing between them. -/
  | hollow (name : String) (turbofish : Bool)

end

instance : Inhabited TypeOutline := ⟨.other⟩

namespace SegmentOutline

def name : SegmentOutline → String
  | .bare name => name
  | .generic name _ _ => name
  | .hollow name _ => name

def isBare : SegmentOutline → Bool
  | .bare _ => true
  | _ => false

end SegmentOutline

namespace TypeOutline

/-- The type ends with a path without arguments, behind which an angle bracket would seem to
open some. -/
def endsBare : TypeOutline → Bool
  | .reference _ _ element => element.endsBare
  | .pointer element => element.endsBare
  | .function (some result) => result.endsBare
  | .traitObject _ bare => bare
  | .opaqueType bare => bare
  | .path _ _ segments => segments.getLast?.any SegmentOutline.isBare
  | _ => false

end TypeOutline

structure TypeText where
  outline : TypeOutline
  tokens : List Token

structure PathText where
  rooted : Bool
  segments : List SegmentOutline
  tokens : List Token

/-- Kinds of expressions that a reader of what follows has to know. -/
inductive ExpressionShape where
  | plain
  | range
  | comparison
  /-- It ends with its own block, and a statement of it needs no semicolon. -/
  | block
  | braceMacro
  /-- It ends with a cast to a type that ends bare. The cast is what was printed behind the first
  `mark` tokens. -/
  | openCast (mark : Nat)
  /-- It is kept as it is in the source. -/
  | unparsed
deriving DecidableEq

/-- An expression, as far as it can be a call. -/
inductive ExpressionOutline where
  | path (qualified : Bool) (segments : List SegmentOutline)
  | call (callee : ExpressionOutline)
  | parenthesized (inner : ExpressionOutline)
  | grouped (inner : ExpressionOutline)
  | returned (value : Option ExpressionOutline)
  | other (shape : ExpressionShape)

namespace ExpressionOutline

def plain : ExpressionOutline := .other .plain

def shape : ExpressionOutline → ExpressionShape
  | .other shape => shape
  | _ => .plain

/-- The shape inside all invisible groups. -/
def innerShape : ExpressionOutline → ExpressionShape
  | .grouped inner => innerShape inner
  | outline => outline.shape

end ExpressionOutline

/-- A pattern, as far as it can bind one name. -/
inductive PatternOutline where
  | name (text : String) (restricted : Bool)
  | parenthesized (inner : PatternOutline)
  | rest
  /-- A range. If it lacks one of its ends, the span of its dots is known. -/
  | range (limits : Option Span)
  /-- A pattern that is kept as it is in the source. -/
  | unparsed
  | other

inductive StatementOutline where
  | expression (outline : ExpressionOutline) (terminated : Bool)
  | other

structure AttributePath where
  rooted : Bool
  names : List Name

inductive AttributeArguments where
  | absent
  | list (tokens : List Token) (span : Span)
  | value (equals : Span)

structure Attribute where
  /-- It stands inside what it describes. -/
  inner : Bool
  path : AttributePath
  arguments : AttributeArguments
  tokens : List Token

namespace Attribute

def isNamed (a : Attribute) (text : String) : Bool :=
  !a.path.rooted && a.path.names.map Name.text = [text]

end Attribute

/-- Elements of a list, each with whether a separator follows it. -/
abbrev Separated (α : Type) := List (α × Bool)

namespace Separated

variable {α : Type}

def items (list : Separated α) : List α := list.map Prod.fst

/-- The tokens of the elements, with separators where they were written. -/
def tokens (separator : Char) (shown : α → List Token) (list : Separated α) : List Token :=
  list.flatMap fun (a, followed) =>
    shown a ++ if followed then [.mark separator false .origin] else []

/-- Puts an element behind the others, and a separator in front of it if there is none yet. -/
def push (list : Separated α) (a : α) : Separated α :=
  list.map (fun (a, _) => (a, true)) ++ [(a, false)]

def extend (list : Separated α) (more : List α) : Separated α :=
  more.foldl push list

end Separated

inductive ParameterKind where
  | lifetime
  | type
  | constant
deriving DecidableEq, Repr

/-- A parameter of a generic declaration, in the parts that its printed form is made of. -/
structure GenericParameter where
  kind : ParameterKind
  attributes : List Token
  /-- The word `const`, if the parameter is a constant. -/
  head : List Token
  name : List Token
  /-- The bounds or the type, behind a colon. -/
  bounds : List Token
  /-- The default, behind an equals sign. -/
  default : List Token

structure Generics where
  parameters : Separated GenericParameter
  /-- The predicates, if a clause is written at all. -/
  clause : Option (Separated (List Token))

end Replica
