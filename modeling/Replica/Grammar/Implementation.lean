import Replica.Grammar.Signature

/-!
Implementation blocks. Their functions are kept in parts, so that constructors can be
found among them and attributes can be taken off them.
-/

namespace Replica

structure Function where
  /-- The attributes in front of the function, and behind them those inside its body. -/
  attributes : List Attribute
  /-- What stands between the outer attributes and the body. -/
  head : List Token
  signature : Signature
  statements : List StatementOutline
  body : List Token
  span : Span

inductive Associated where
  | function (function : Function)
  /-- Any other item, with the attributes in front of it. -/
  | other (attributes : List Attribute) (tokens : List Token)

structure Implementation where
  /-- The attributes in front of the block, and behind them those inside it. -/
  attributes : List Attribute
  head : List Token
  generics : Generics
  /-- The trait, if the block implements one: its path and the word `for`. -/
  trait : Option (List Token)
  selfType : TypeText
  items : List Associated
  span : Span

namespace Function

open Replica.Parser

def outer (attributes : List Attribute) : List Attribute := attributes.filter fun a => !a.inner

def inner (attributes : List Attribute) : List Attribute := attributes.filter Attribute.inner

def tokens (f : Function) : List Token :=
  Attribute.tokensOf (outer f.attributes) ++ f.head ++
    [.group .brace (Attribute.tokensOf (inner f.attributes) ++ f.body) f.span]

/-- A body in braces: the attributes in it, its statements and their tokens. -/
def readBody (level : Level) :
    Parser (List Attribute × List StatementOutline × List Token × Span) := do
  let span ← spanAhead
  inside .brace do
    let attributes ← Attribute.readInner level
    let (statements, tokens) ← capture level.statements
    return (attributes, statements, tokens, span)

/-- A function of a block. Without a body, nothing is answered. -/
def read (level : Level) : Parser (Option Function) := do
  let attributes ← Attribute.readOuter level
  let ((signature, _), head) ← capture do
    let _ ← Visibility.read
    let _ ← keyword? "default"
    Signature.read level false
  if ← symbol? ";" then return none
  let (innerAttributes, statements, body, span) ← readBody level
  return some ⟨attributes ++ innerAttributes, head, signature, statements, body, span⟩

end Function

namespace Macro

open Replica.Parser

/-- The call of a macro. The answer is the delimiter of its arguments. -/
def read : Parser Delimiter := do
  let _ ← Path.simple
  let _ ← symbol "!"
  let (delimiter, _, _) ← rawGroup
  return delimiter

/-- The call of a macro as an item: arguments in braces need no semicolon. -/
def readItem : Parser Unit := do
  if (← read) ≠ .brace then
    let _ ← symbol ";"

def ahead : Ahead :=
  .any [.name, .anyWordOf ["self", "super", "crate"], .symbol "::"]

def expectations : List Expectation :=
  .described "identifier" :: symbols ["self", "super", "crate", "::"]

end Macro

/-- Where the clause of an associated type may stand. -/
inductive ClausePlace where
  | beforeDefinition
  | behindDefinition
  | anywhere
deriving DecidableEq

/-- What an alias of a type shows. -/
structure Alias where
  name : Name
  bounded : Bool
  defined : Bool

namespace Alias

open Replica.Parser

/-- A type that is named and perhaps defined. A colon without bounds behind it is not printed. -/
def read (level : Level) (mayDefault : Bool) (place : ClausePlace) : Parser Alias := do
  let _ ← Visibility.read
  if mayDefault then
    let _ ← keyword? "default"
  let _ ← keyword "type"
  let name ← Parser.name
  let _ ← Generics.read level
  let bounded ← peek (.symbol ":")
  let _ ← Generics.unlessEmpty do
    if ← symbol? ":" then
      Bound.readUpTo level ⟨false, true⟩ (.any [.word "where", .symbol "=", .symbol ";"])
    else return []
  let early ← if place = .behindDefinition then pure none else Generics.readClause level
  let defined ← symbol? "="
  if defined then
    let _ ← level.type true true
  if place ≠ .beforeDefinition && early.isNone then
    let _ ← Generics.readClause level
  let _ ← symbol ";"
  return ⟨name, bounded, defined⟩

end Alias

namespace Constant

open Replica.Parser

def wordAhead : Ahead := .any [.name, .word "_"]

/-- What follows the word `const`. The answer tells whether the constant is of the plain
form, which has no parameters and no clause, and whether it has a value. -/
def readBehind (level : Level) : Parser (Name × Bool × Bool) := do
  if !(← peek wordAhead) then expect [.described "identifier", .symbol "_"]
  let name ← anyWord
  let generic ← peek (.symbol "<")
  let _ ← Generics.read level
  let _ ← symbol ":"
  let _ ← level.type true true
  let valued ← symbol? "="
  if valued then
    let _ ← level.expression .anywhere
  let clause ← Generics.readClause level
  let _ ← symbol ";"
  return (name, !generic && clause.isNone, valued)

end Constant

namespace Associated

open Replica.Parser

def tokens : Associated → List Token
  | .function f => f.tokens
  | .other _ tokens => tokens

/-- What comes next behind the visibility and the word `default`. -/
inductive Kind where
  | function
  | constant
  | type
  | call

def kindAhead : Parser Kind :=
  lookahead do
    let visible ← Visibility.read
    let mayDefault := (← peek (.word "default")) && !(← peek (.second (.symbol "!")))
    if mayDefault then
      let _ ← keyword "default"
    if ← peek (Signature.ahead false) then return .function
    else if ← peek (.word "const") then return .constant
    else if ← peek (.word "type") then return .type
    else
      let plain := !visible && !mayDefault
      if plain && (← peek Macro.ahead) then return .call
      else
        let passed := mayDefault || (← peek (.word "default"))
        expect ((if passed then [] else symbols ["default"]) ++
          symbols ["fn", "const", "type"] ++ if plain then Macro.expectations else [])

/-- An item of a block that is no function, and whether it is kept as it is in the source. -/
def readOther (level : Level) (kind : Kind) : Parser Bool := do
  match kind with
  | .constant =>
    let _ ← Visibility.read
    let _ ← keyword? "default"
    let _ ← keyword "const"
    let (_, plain, valued) ← Constant.readBehind level
    return !plain || !valued
  | .type =>
    let shown ← Alias.read level true .behindDefinition
    return shown.bounded || !shown.defined
  | _ =>
    Macro.readItem
    return false

/-- An item of a block. A function without a body is kept as it is in the source. -/
def read (level : Level) : Parser Associated := do
  let attributes ← lookahead (Attribute.readOuter level)
  let kind ← lookahead do
    let _ ← Attribute.readOuter level
    kindAhead
  match kind with
  | .function =>
    let (f?, tokens) ← capture (verbatimIf (Function.read level) Option.isNone)
    match f? with
    | some f => return .function f
    | none => return .other attributes tokens
  | kind =>
    let (_, tokens) ← capture do
      let item : Parser Bool := do
        let _ ← Attribute.readOuter level
        readOther level kind
      verbatimIf item id
    return .other attributes tokens

end Associated

namespace Implementation

open Replica.Parser

def tokens (i : Implementation) : List Token :=
  Attribute.tokensOf (Function.outer i.attributes) ++ i.head ++ i.generics.declared ++
    i.trait.getD [] ++ i.selfType.tokens ++ Generics.clauseTokens i.generics.clause ++
    [.group .brace
      (Attribute.tokensOf (Function.inner i.attributes) ++ i.items.flatMap Associated.tokens)
      i.span]

def isPlainPath : TypeOutline → Bool
  | .path none _ _ => true
  | .grouped inner => isPlainPath inner
  | _ => false

/-- The span of a type's tokens. Invisible groups around the type are no part of it. -/
def spanWithin : TypeOutline → List Token → Span
  | .grouped inner, [.group .invisible content _] => spanWithin inner content
  | _, tokens => Token.spanAll tokens

/-- What the block implements: a trait for a type, or the type alone. The answer tells also
whether the block has to be kept as it is in the source. -/
def readSubject (level : Level) (lenient : Bool) :
    Parser (Option (List Token) × TypeText × Bool) := do
  let negative := (← peek (.symbol "!")) && !(← peek (.second (.group .brace)))
  let sign ← spanAhead
  let (_, polarity) ← capture do
    if negative then
      let _ ← symbol "!"
  let (first, shown) ← capture (level.type true true)
  if ← peek (.word "for") then
    let (_, word) ← capture (keyword "for")
    let plain := isPlainPath first
    if !plain && !lenient then
      failAt (spanWithin first shown) (.expected [.described "trait path"])
    let trait := if plain then some (polarity ++ shown ++ word) else none
    return (trait, ← TypeText.read level, !plain)
  else if negative then failAt sign .negativeInherent
  else return (none, ⟨first, shown⟩, false)

def readItems (level : Level) : Parser (List Associated) :=
  many do
    if ← atEnd then return none
    return some (← Associated.read level)

/-- A block. Where `lenient` allows it, forms are read that have no parts of their own; the
answer tells whether the block has one and is to be kept as it is in the source. -/
def readBehind (level : Level) (lenient : Bool) (attributes : List Attribute) :
    Parser (Implementation × Bool) := do
  let visible ← if lenient then Visibility.read else pure false
  let (_, head) ← capture do
    let _ ← keyword? "default"
    let _ ← keyword? "unsafe"
    keyword "impl"
  let generics ← if ← peek Generics.ahead then Generics.read level else pure Generics.empty
  let optional ← peek (.symbol "?")
  let constant := lenient && ((← peek (.word "const")) ||
    (optional && (← peek (.second (.word "const")))))
  if constant then
    let _ ← symbol? "?"
    let _ ← keyword "const"
  let (trait, selfType, odd) ← readSubject level lenient
  let clause ← Generics.readClause level
  let span ← spanAhead
  let (innerAttributes, items) ← inside .brace do
    let innerAttributes ← Attribute.readInner level
    return (innerAttributes, ← readItems level)
  return (⟨attributes ++ innerAttributes, head, { generics with clause }, trait, selfType, items,
    span⟩, visible || constant || odd)

/-- A block of the plain form, and nothing else. -/
def read (level : Level) : Parser Implementation := do
  let (block, _) ← readBehind level false (← Attribute.readOuter level)
  return block

end Implementation

end Replica
