import Replica.Class.Helper
import Replica.Token.Lexer

/-!
What helper attributes decide.
-/

namespace Replica

/-- How a field is carried into the copy. -/
inductive Strategy where
  | deep
  | clone
  /-- By a function of the user. -/
  | custom (path : PathText)
  /-- Not at all: the copy gets a default value. -/
  | skip

/-- What a type says about its copy. -/
structure ContainerOptions where
  home : Option PathText
  method : Option Name
  /-- Predicates in place of the inferred ones. -/
  bound : Option (List (List Token))

structure ConstructorOptions where
  skip : Bool
  convenience : Bool
deriving DecidableEq, Repr

namespace ContainerOptions

open Replica.Parser Helper

inductive Entry where
  | home (path : PathText)
  | method (name : Name)
  | bound (text : Literal)

def Entry.vocabulary : Vocabulary Entry
  | "crate" => some do
    let _ ← symbol "="
    return .home (← Source.leveled Path.text)
  | "method" => some do
    let _ ← symbol "="
    return .method (← Parser.name)
  | "bound" => some do
    let _ ← symbol "="
    return .bound (← literal)
  | _ => none

def none : ContainerOptions := ⟨.none, .none, .none⟩

def defaultHome : PathText where
  rooted := true
  segments := [.bare "deepcopy_rs"]
  tokens := [.mark ':' true .origin, .mark ':' false .origin, .word "deepcopy_rs" .origin]

def homeTokens (options : ContainerOptions) : List Token :=
  (options.home.getD defaultHome).tokens

def methodName (options : ContainerOptions) : Name :=
  options.method.getD ⟨"copy", .origin⟩

def readBound (text : String) : Except Replica.Fault (List (List Token)) :=
  match Token.ofText? text with
  | .none => .error ⟨.notTokens, false, .origin⟩
  | some tokens => do
    let predicates ← Source.read
      (fun level => separated "," (Generics.readPredicate level)) .origin tokens
    return predicates.map Prod.fst

/-- Of each kind of entry the last one counts. -/
def apply (options : ContainerOptions) (entry : Entry) (_ : Span) :
    Except Helper.Fault ContainerOptions :=
  match entry with
  | .home path => .ok { options with home := some path }
  | .method word => .ok { options with method := some word }
  | .bound literal =>
    match literal.string? with
    | .none => .error (.notText literal.span)
    | some text =>
      match readBound text with
      | .error fault => .error (.bound fault literal.span)
      | .ok predicates => .ok { options with bound := some predicates }

def ofAttributes (attributes : List Attribute) : Except Helper.Fault ContainerOptions :=
  interpret .container apply none (Helper.ofAttributes Entry.vocabulary attributes)

end ContainerOptions

namespace Strategy

open Replica.Parser Helper

def vocabulary : Vocabulary Strategy
  | "clone" => some (return .clone)
  | "skip" => some (return .skip)
  | "with" => some do
    let _ ← symbol "="
    return .custom (← Source.leveled Path.text)
  | _ => none

/-- A field has at most one entry. -/
def apply (strategy entry : Strategy) (span : Span) : Except Helper.Fault Strategy :=
  match strategy with
  | .deep => .ok entry
  | _ => .error (.conflict span)

def ofAttributes (attributes : List Attribute) : Except Helper.Fault Strategy :=
  interpret .field apply .deep (Helper.ofAttributes vocabulary attributes)

end Strategy

namespace ConstructorOptions

open Replica.Parser Helper

inductive Entry where
  | skip
  | convenience

def Entry.vocabulary : Vocabulary Entry
  | "skip" => some (return .skip)
  | "convenience" => some (return .convenience)
  | _ => none

def apply (options : ConstructorOptions) (entry : Entry) (_ : Span) :
    Except Helper.Fault ConstructorOptions :=
  match entry with
  | .skip => .ok { options with skip := true }
  | .convenience => .ok { options with convenience := true }

def ofAttributes (attributes : List Attribute) : Except Helper.Fault ConstructorOptions :=
  interpret .constructor apply ⟨false, false⟩ (Helper.ofAttributes Entry.vocabulary attributes)

end ConstructorOptions

end Replica
