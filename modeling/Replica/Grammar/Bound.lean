import Replica.Grammar.Attribute

/-!
Bounds: the traits and lifetimes that are asked of a type, joined by plus signs.
-/

namespace Replica

/-- What a bound names, with the place where an error about it ends. A trait may end with a path
without arguments. -/
inductive Bound where
  | trait (bare : Bool)
  | lifetime (span : Span)
  | capture (span : Span)

namespace Bound

open Replica.Parser

def endsBare : Bound → Bool
  | .trait bare => bare
  | _ => false

/-- Which bounds may stand in a place. -/
structure Places where
  captures : Bool
  constant : Bool

def commaTokens {α : Type} (shown : α → List Token) (list : Separated α) : List Token :=
  list.tokens ',' shown

/-- The elements with the lifetimes among them first, and a comma between the two parts. -/
def lifetimesFirst {α : Type} (isLifetime : α → Bool) (shown : α → List Token)
    (list : Separated α) : List Token :=
  let lifetimes := list.filter fun (a, _) => isLifetime a
  let others := list.filter fun (a, _) => !isLifetime a
  let between : List Token :=
    if others.isEmpty || (lifetimes.getLast?.all Prod.snd) then [] else [.mark ',' false .origin]
  commaTokens shown lifetimes ++ between ++ commaTokens shown others

/-- A lifetime or a name between the angle brackets of a capture list. -/
def readCaptured : Parser (Option ((Bool × List Token) × Bool)) := do
  if ← peek (.symbol ">") then return none
  let isLifetime ← peek .lifetime
  let ((), shown) ← Parser.capture do
    if isLifetime then
      let _ ← Parser.lifetime
    else if ← peek (.any [.name, .word "Self"]) then
      let _ ← anyWord
    else expect [.described "lifetime", .described "identifier", .symbol ">"]
  if ← peek (.symbol ">") then return some ((isLifetime, shown), false)
  if ← symbol? "," then return some ((isLifetime, shown), true)
  expect [.symbol ",", .symbol ">"]

def readCaptures : Parser Bound := do
  let ((start, list, stop), _) ← withhold do
    let start ← keyword "use"
    let _ ← symbol "<"
    let list ← many readCaptured
    return (start, list, ← symbol ">")
  print (start.token :: .mark '<' false .origin ::
    lifetimesFirst Prod.fst Prod.snd list ++ [.mark '>' false stop])
  return .capture (start.span.join stop)

/-- The path of a trait, which may have arguments in parentheses. The answer tells whether it ends
with a path without arguments. -/
def readPath (level : Level) : Parser Bool := do
  let ((_, segments), shown) ← withhold (Path.plain level false)
  if Path.lastIsEmpty segments && (← peek Path.callAhead) then
    print (Path.withoutHollow segments shown)
    return (← Path.callArguments level).any TypeOutline.endsBare
  else
    print shown
    return Path.lastIsBare segments

/-- A trait. The first answer tells whether it is asked for in constant evaluation, the second
whether it ends with a path without arguments. -/
def readTrait (level : Level) (places : Places) : Parser (Bool × Bool) := do
  let bound ← peek (.word "for")
  if bound then level.binder
  let conditional ← peek (.group .bracket)
  let unconditional := !conditional && (← peek (.word "const"))
  let start ← spanAhead
  if conditional then
    inside .bracket do
      let _ ← keyword "const"
    if !places.constant then failAt start (.notAllowed "[const]")
  else if unconditional then
    let _ ← keyword "const"
    if !places.constant then failAt start (.notAllowed "const")
  let polarity ← spanAhead
  let optional ← symbol? "?"
  let late ← if !bound && optional then peek (.word "for") else pure false
  if late then level.binder
  let bare ← readPath level
  if (bound || late) && optional then failAt polarity .binderWithPolarity
  return (conditional || unconditional, bare)

def read (level : Level) (places : Places) : Parser Bound := do
  if ← peek .lifetime then return .lifetime (← Parser.lifetime).span
  if ← peek (.word "use") then
    let bound ← readCaptures
    match bound with
    | .capture span => if !places.captures then failAt span .capture
    | _ => pure ()
    return bound
  let bound : Parser (Bool × Bool) := do
    if ← peek (.group .parenthesis) then inside .parenthesis (readTrait level places)
    else readTrait level places
  let (constant, bare) ← verbatimIf bound Prod.fst
  return .trait (bare && !constant)

/-- Bounds up to where `stop` holds, with plus signs between. A last plus sign is allowed. -/
def readUpTo (level : Level) (places : Places) (stop : Ahead) : Parser (List Bound) :=
  many do
    if ← peek stop then return none
    let bound ← read level places
    if !(← peek stop) then
      let _ ← symbol "+"
    return some bound

end Bound

end Replica
