import Replica.Grammar.Statement

/-!
Visibilities and signatures of functions.
-/

namespace Replica

namespace Visibility

open Replica.Parser

/-- An empty invisible group counts as a visibility that is left out. -/
def emptyGroup : Ahead
  | .group .invisible [] _ :: _ => true
  | _ => false

def restrictionAhead : Ahead := fun tokens =>
  match Ahead.visible tokens with
  | .group .parenthesis content _ :: _ =>
    Ahead.word "in" content ||
      (Ahead.anyWordOf ["crate", "self", "super"] content &&
        (Ahead.skip content).any List.isEmpty)
  | _ => false

/-- A visibility. The answer tells whether one is written. -/
def read : Parser Bool := do
  if ← peek emptyGroup then
    modify fun s => { s with tokens := s.tokens.tail }
    return false
  if ← keyword? "pub" then
    if ← peek restrictionAhead then
      inside .parenthesis do
        if ← keyword? "in" then
          let _ ← Path.simple
        else
          let _ ← anyWord
    return true
  else return false

end Visibility

inductive Parameter where
  | receiver (word : Span)
  | typed (pattern : PatternOutline)
  | variadic

/-- What is known of a signature beside its tokens. -/
structure Signature where
  name : Name
  isAsync : Bool
  isUnsafe : Bool
  generics : Generics
  parameters : List Parameter
  /-- The type behind the arrow, if one is written. -/
  result : Option TypeOutline

namespace Signature

open Replica.Parser

/-- A receiver comes next: the word `self`, which begins no path, perhaps by reference. -/
def receiverAhead : Ahead := fun tokens =>
  let pass (ahead : Ahead) (tokens : List Token) : List Token :=
    if ahead tokens then (Ahead.skip tokens).getD [] else tokens
  let behind := if Ahead.symbol "&" tokens then pass .lifetime (pass (.symbol "&") tokens)
    else tokens
  let behind := pass (.word "mut") behind
  Ahead.word "self" behind && !Ahead.second (.symbol "::") behind

def readReceiver (level : Level) : Parser Span := do
  let reference ← symbol? "&"
  if reference then
    let _ ← lifetime?
  let _ ← keyword? "mut"
  let word ← keyword "self"
  if !reference then
    if ← symbol? ":" then
      let _ ← level.type true true
  return word.span

/-- A parameter, or the dots that stand for any number of them. A type alone is read as an
unnamed parameter if it has arguments. -/
def readParameter (level : Level) : Parser Parameter := do
  if ← peek receiverAhead then return .receiver (← readReceiver level)
  if (← peek .name) && (← peek (.second (.symbol "<"))) then
    let start ← here
    print [.word "_" start, .mark ':' false start]
    let _ ← level.type true true
    return .typed .other
  let pattern ← level.pattern false
  let _ ← symbol ":"
  if ← symbol? "..." then return .variadic
  let _ ← level.type true true
  return .typed pattern

/-- The parameters. A receiver may only be the first. -/
def readParameters (level : Level) : (fuel : Nat) → (before : List Parameter) →
    Parser (List Parameter)
  | 0, _ => refuse .exhausted
  | fuel + 1, before => do
    if ← atEnd then return before
    let _ ← Attribute.readOuter level
    let parameter ← if ← symbol? "..." then pure .variadic else readParameter level
    match parameter with
    | .variadic =>
      if !(← atEnd) then
        let _ ← symbol ","
      return before
    | .receiver word =>
      if before.any isReceiver then failAt word .secondReceiver
      if !before.isEmpty then failAt word .receiver
    | .typed _ => pure ()
    let all := before ++ [parameter]
    if ← atEnd then return all
    let _ ← symbol ","
    readParameters level fuel all
where
  isReceiver : Parameter → Bool
    | .receiver _ => true
    | _ => false

/-- A signature. Where `safe` allows it, the function may be declared safe; the answer
tells whether it is. -/
def read (level : Level) (safe : Bool) : Parser (Signature × Bool) := do
  let _ ← keyword? "const"
  let isAsync ← keyword? "async"
  let isUnsafe ← keyword? "unsafe"
  let isSafe ← if safe && !isUnsafe then keyword? "safe" else pure false
  TypeOutline.readOrigin
  let _ ← keyword "fn"
  let name ← Parser.name
  let generics ← Generics.read level
  let listed : Parser (List Parameter) := do
    readParameters level (Token.weightAll (← get).tokens + 1) []
  insideThen .parenthesis listed fun parameters => do
    let result ← Path.result level true
    let clause ← Generics.readClause level
    return (⟨name, isAsync, isUnsafe, { generics with clause }, parameters, result⟩, isSafe)

def ahead (safe : Bool) : Ahead := fun tokens =>
  let pass (texts : List String) (tokens : List Token) : List Token :=
    if Ahead.anyWordOf texts tokens then (Ahead.skip tokens).getD [] else tokens
  let behind := pass (if safe then ["unsafe", "safe"] else ["unsafe"])
    (pass ["async"] (pass ["const"] tokens))
  let text := fun tokens => if Ahead.literalIs (fun l => l.string?.isSome) tokens then
    (Ahead.skip tokens).getD [] else tokens
  let behind := if Ahead.word "extern" behind then text ((Ahead.skip behind).getD []) else behind
  Ahead.word "fn" behind

end Signature

end Replica
