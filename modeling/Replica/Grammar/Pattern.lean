import Replica.Grammar.Types
import Replica.Grammar.Member

/-!
Patterns.
-/

namespace Replica

namespace PatternOutline

open Replica.Parser

inductive Limits where
  | halfOpen
  | closed
deriving DecidableEq

/-- The dots of a range, and their span. Three dots are an old spelling of a closed range
where `old` allows it. -/
def readLimits (old : Bool) : Parser (Limits × Span) := do
  let spanned (text : String) : Parser Span := do
    let (_, shown) ← capture (symbol text)
    return Token.spanAll shown
  if ← peek (.symbol "..=") then return (.closed, ← spanned "..=")
  else if ← peek (.symbol "...") then
    if old then
      let (span, shown) ← withhold (spanned "...")
      print (closedTokens shown)
      return (.closed, span)
    else expect [.symbol "..="]
  else if ← peek (.symbol "..") then return (.halfOpen, ← spanned "..")
  else expect [.symbol ".."]
where
  closedTokens : List Token → List Token
    | [.mark _ _ a, .mark _ _ b, .mark _ _ c] =>
      [.mark '.' true a, .mark '.' true b, .mark '=' false c]
    | tokens => tokens

def boundEnd : Ahead := fun tokens =>
  Ahead.any [.ended, .symbol "|", .symbol "=", .symbol ",", .symbol ";", .word "if"] tokens ||
    (Ahead.symbol ":" tokens && !Ahead.symbol "::" tokens)

def readConstantBlock (level : Level) : Parser Unit := do
  let _ ← keyword "const"
  Generics.readBlock level

/-- An end of a range. The answer tells whether there is one. -/
def readBound (level : Level) : Parser Bool := do
  if ← peek boundEnd then return false
  if ← peek .literal then
    let _ ← literal
  else if ← peek TypeOutline.pathAhead then
    let _ ← Path.qualified level true
  else if ← peek (.word "const") then readConstantBlock level
  else
    expect ([.described "literal", .described "identifier"] ++
      symbols ["::", "<", "self", "Self", "super", "crate", "const"])
  return true

def readRange (level : Level) : Parser PatternOutline := do
  let (limits, span) ← readLimits true
  if ← readBound level then return .range none
  else if limits = .closed then expectKind "range upper bound"
  else return .range (some span)

def readOpenRange (level : Level) : Parser PatternOutline := do
  let (limits, span) ← readLimits false
  if ← readBound level then return .range (some span)
  else if limits = .closed then expectKind "range upper bound"
  else return .rest

def readConstant (level : Level) : Parser PatternOutline := do
  let _ ← readBound level
  if ← peek (.symbol "..") then readRange level else return .other

def readField (level : Level) : Parser Unit := do
  let read : Parser Bool := do
    let boxed ← keyword? "box"
    let byReference ← keyword? "ref"
    let mutable ← keyword? "mut"
    if boxed || byReference || mutable then
      let _ ← Parser.name
    else
      let member ← Member.read
      if member = .position || (← peek (.symbol ":")) then
        let _ ← symbol ":"
        let _ ← level.pattern true
    return boxed
  let _ ← verbatimIf read id

def readFields (level : Level) : (fuel : Nat) → Parser Unit
  | 0 => refuse .exhausted
  | fuel + 1 => do
    if ← atEnd then return
    let _ ← Attribute.readOuter level
    if ← symbol? ".." then return
    readField level
    if ← atEnd then return
    let _ ← symbol ","
    readFields level fuel

def readPath (level : Level) : Parser PatternOutline := do
  let (qualifier, _, segments) ← Path.qualified level true
  if qualifier.isNone && (← peek (.symbol "!")) && !(← peek (.symbol "!=")) &&
      segments.all SegmentOutline.isBare then
    let _ ← symbol "!"
    let _ ← rawGroup
    return .other
  if ← peek (.group .brace) then
    inside .brace do readFields level (Token.weightAll (← get).tokens + 1)
    return .other
  else if ← peek (.group .parenthesis) then
    let _ ← inside .parenthesis (separated "," (level.pattern true))
    return .other
  else if ← peek (.symbol "..") then readRange level
  else return .other

def readName (level : Level) : Parser PatternOutline := do
  let _ ← keyword? "ref"
  let _ ← keyword? "mut"
  let name ← if ← peek (.word "self") then anyWord else Parser.name
  if ← symbol? "@" then
    let _ ← level.pattern false
    return .name name.text true
  else return .name name.text false

def readReference (level : Level) : Parser PatternOutline := do
  let _ ← symbol "&"
  let _ ← keyword? "mut"
  let _ ← level.pattern false
  return .other

def readTuple (level : Level) : Parser PatternOutline := do
  let elements ← inside .parenthesis (separated "," (level.pattern true))
  match elements with
  | [(.rest, false)] => return .other
  | [(outline, false)] => return .parenthesized outline
  | _ => return .other

def readSlice (level : Level) : Parser PatternOutline := do
  let _ ← inside .bracket do
    separated "," do
      match ← level.pattern true with
      | .range (some limits) => failAt limits .openRangeInSlice
      | _ => return
  return .other

def pathAhead : Ahead := fun tokens =>
  let follows := Ahead.second
    (.any [.symbol "::", .symbol "!", .group .brace, .group .parenthesis, .symbol ".."]) tokens
  (Ahead.name tokens && follows) ||
    (Ahead.word "self" tokens && Ahead.second (.symbol "::") tokens) ||
    Ahead.any [.symbol "::", .symbol "<", .anyWordOf ["Self", "super", "crate"]] tokens

def readSingle (level : Level) : Parser PatternOutline := do
  if ← peek pathAhead then readPath level
  else if ← peek (.word "_") then
    let _ ← anyWord
    return .other
  else if ← peek (.word "box") then
    verbatim do
      let _ ← anyWord
      let _ ← level.pattern false
    return .unparsed
  else if ← peek (.any [.symbol "-", .literal, .word "const"]) then readConstant level
  else if ← peek (.any [.anyWordOf ["ref", "mut", "self"], .name]) then readName level
  else if ← peek (.symbol "&") then readReference level
  else if ← peek (.group .parenthesis) then readTuple level
  else if ← peek (.group .bracket) then readSlice level
  else if (← peek (.symbol "..")) && !(← peek (.symbol "...")) then readOpenRange level
  else
    let dots := if ← peek (.symbol "...") then [] else symbols [".."]
    expect ([.described "identifier", .symbol "::", .symbol "<", .symbol "_",
      .described "literal", .symbol "const", .symbol "ref", .symbol "mut", .symbol "&",
      .described "parentheses", .described "square brackets"] ++ dots ++ [.symbol "const"])

def alternativeAhead : Ahead := fun tokens =>
  Ahead.symbol "|" tokens && !Ahead.any [.symbol "||", .symbol "|="] tokens

def read (level : Level) (alternatives : Bool) : Parser PatternOutline := do
  if alternatives then
    let leading ← symbol? "|"
    let first ← readSingle level
    let others ← manyWhile alternativeAhead do
      let _ ← symbol "|"
      readSingle level
    if leading || !others.isEmpty then return .other else return first
  else readSingle level

end PatternOutline

end Replica
