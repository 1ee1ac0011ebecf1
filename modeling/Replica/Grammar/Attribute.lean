import Replica.Grammar.Path

/-!
Attributes. Outer ones stand in front of what they describe, inner ones in it behind
an exclamation mark.
-/

namespace Replica

namespace Attribute

open Replica.Parser

def readPath : Parser AttributePath := do
  if ← peek (.word "unsafe") then return ⟨false, [← anyWord]⟩ else Path.simple

/-- The value behind an equals sign: a literal that ends the attribute, or an expression. -/
def readValue (level : Level) : Parser Unit := do
  let literal ← lookahead do
    if ← peek .literal then
      let _ ← literal
      atEnd
    else return false
  if literal then
    let _ ← Parser.literal
  else if (← peek (.symbol "#")) && (← peek (.second (.group .bracket))) then
    refuse .attributeValue
  else
    let _ ← level.expression .anywhere

def readArguments (level : Level) : Parser AttributeArguments := do
  if ← peek (.any [.group .parenthesis, .group .bracket, .group .brace]) then
    let (_, tokens, span) ← rawGroup
    return .list tokens span
  else if (← peek (.symbol "=")) && !(← peek (.symbol "==")) && !(← peek (.symbol "=>")) then
    let equals ← symbol "="
    readValue level
    return .value equals
  else return .absent

def read (level : Level) (inner : Bool) : Parser Attribute := do
  let ((path, arguments), tokens) ← capture do
    let _ ← symbol "#"
    if inner then
      let _ ← symbol "!"
    inside .bracket do
      let path ← readPath
      return (path, ← readArguments level)
  return ⟨inner, path, arguments, tokens⟩

def readOuter (level : Level) : Parser (List Attribute) :=
  manyWhile (.symbol "#") (read level false)

def innerAhead : Ahead := fun tokens =>
  Ahead.symbol "#" tokens && Ahead.second (.symbol "!") tokens

def readInner (level : Level) : Parser (List Attribute) :=
  manyWhile innerAhead (read level true)

def tokensOf (attributes : List Attribute) : List Token :=
  attributes.flatMap Attribute.tokens

end Attribute

end Replica
