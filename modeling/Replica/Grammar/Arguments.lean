import Replica.Grammar.Generics

/-!
Arguments in angle brackets. Lifetimes are printed in front of the others.
-/

namespace Replica

structure Argument where
  isLifetime : Bool
  type : Option TypeOutline
  tokens : List Token

namespace Argument

open Replica.Parser

/-- The argument may be followed by the type or the bounds of an associated item. -/
def namesItem : TypeOutline → Bool
  | .path none false [_] => true
  | _ => false

/-- An argument that is no lifetime. -/
def readOther (level : Level) : Parser (Option TypeOutline) := do
  if ← peek (.any [.literal, .group .brace]) then
    Generics.readConstant level
    return none
  let type ← level.type true true
  if namesItem type then
    if ← symbol? "=" then
      if ← peek (.any [.literal, .group .brace]) then Generics.readConstant level
      else
        let _ ← level.type true true
      return none
    if ← symbol? ":" then
      let _ ← chain "+" (.any [.symbol ",", .symbol ">"]) (Bound.read level ⟨false, true⟩)
      return none
  return some type

def read (level : Level) : Parser Argument := do
  if (← peek .lifetime) && !(← peek (.second (.symbol "+"))) then
    let (_, tokens) ← capture lifetime
    return ⟨true, none, tokens⟩
  else
    let (type, tokens) ← capture (readOther level)
    return ⟨false, type, tokens⟩

/-- Arguments with their brackets, which make a segment of a name. -/
def readAll (level : Level) (name : String) : Parser SegmentOutline := do
  let turbofish ← symbol? "::"
  let ((start, list, stop), _) ← withhold do
    let start ← symbol "<"
    let list ← upTo ">" (read level)
    return (start, list, ← symbol ">")
  print (.mark '<' false start :: Bound.lifetimesFirst isLifetime Argument.tokens list ++
    [.mark '>' false stop])
  if list.isEmpty then return .hollow name turbofish
  else return .generic name turbofish (list.filterMap fun (argument, _) => argument.type)

end Argument

end Replica
