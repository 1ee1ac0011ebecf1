import Replica.Grammar.Arguments

/-!
Types.
-/

namespace Replica

namespace TypeOutline

open Replica.Parser

/-- What may begin a further bound behind a plus sign. -/
def boundAhead (places : Bound.Places) : Ahead := fun tokens =>
  Ahead.any [.anyWord, .symbol "::", .symbol "?", .lifetime, .group .parenthesis] tokens ||
    (places.constant && Ahead.group .bracket tokens)

/-- Further bounds behind one that is already read. A plus sign that no bound follows ends them. -/
def readMoreBounds (level : Level) (places : Bound.Places) : Parser (List Bound) :=
  many do
    if !(← symbol? "+") then return none
    if ← peek (boundAhead places) then return some (← Bound.read level places) else return none

def readBounds (level : Level) (sum : Bool) (places : Bound.Places) : Parser (List Bound) := do
  let first ← Bound.read level places
  if sum then return first :: (← readMoreBounds level places) else return [first]

def lastBoundIsBare (bounds : List Bound) : Bool :=
  bounds.getLast?.any Bound.endsBare

/-- The bounds name a trait. Otherwise an error spans from `start` to the last of them. -/
def requireTrait (start : Span) (bounds : List Bound) (cause : Cause) : Parser Unit := do
  let ends := bounds.map fun
    | .trait _ => none
    | .lifetime span => some span
    | .capture span => some span
  if ends.any Option.isNone then return
  match ends.getLast? with
  | some (some stop) => failAt (start.join stop) cause
  | _ => return

def readObjectBounds (level : Level) (start : Span) (sum : Bool) : Parser TypeOutline := do
  let bounds ← readBounds level sum ⟨false, false⟩
  requireTrait start bounds .noObjectTrait
  return .traitObject false (lastBoundIsBare bounds)

/-- An object type that begins with a lifetime. -/
def readObject (level : Level) (sum : Bool) : Parser TypeOutline := do
  readObjectBounds level (← here) sum

/-- `dyn` with a star behind it is kept as it is in the source. -/
def readDynamic (level : Level) (sum : Bool) : Parser TypeOutline := do
  let read : Parser (TypeOutline × Bool) := do
    let word ← keyword "dyn"
    let star ← symbol? "*"
    return (← readObjectBounds level word.span sum, star)
  let (outline, star) ← verbatimIf read Prod.snd
  return if star then .other else outline

def readOpaque (level : Level) (sum : Bool) : Parser TypeOutline := do
  let word ← keyword "impl"
  let bounds ← readBounds level sum ⟨true, true⟩
  requireTrait word.span bounds .noTrait
  return .opaqueType (lastBoundIsBare bounds)

def readPointer (level : Level) : Parser TypeOutline := do
  let _ ← symbol "*"
  if ← peek (.anyWordOf ["const", "mut"]) then
    let _ ← anyWord
    return .pointer (← level.type false true)
  else expect (symbols ["const", "mut"])

def readReference (level : Level) : Parser TypeOutline := do
  let _ ← symbol "&"
  let lifetime ← lifetime?
  let mutable ← keyword? "mut"
  let element ← level.type false true
  return .reference (lifetime.map Name.text) mutable element

def readArray (level : Level) : Parser TypeOutline :=
  inside .bracket do
    let element ← level.type true true
    if ← symbol? ";" then
      let _ ← level.expression .anywhere
      return .array element
    else return .slice element

def readOrigin : Parser Unit := do
  if ← keyword? "extern" then
    if ← peek (.literalIs fun l => l.string?.isSome) then
      let _ ← literal

def mutableReceiverAhead : Ahead := fun tokens =>
  Ahead.word "mut" tokens && Ahead.second (.word "self") tokens

/-- The name of a parameter and the colon behind it, if both come next. -/
def readParameterName (first : Bool) : Parser (Option String) := do
  let nameAhead ← peek (.any [.name, .anyWordOf (if first then ["_", "self"] else ["_"])])
  if nameAhead && (← peek (.second (.symbol ":"))) && !(← peek (.second (.symbol "::"))) then
    let name ← anyWord
    let _ ← symbol ":"
    return some name.text
  else return none

/-- A parameter of a function type, with or without a name. Only the `first` may be a receiver. One
that is declared mutable is kept as it is in the source. -/
def readFunctionParameter (level : Level) (first : Bool) : Parser Unit := do
  let read : Parser Bool := do
    let mutable := first && (← peek mutableReceiverAhead)
    if mutable then
      let _ ← keyword "mut"
    let name ← readParameterName first
    if first && name ≠ some "self" && (← peek mutableReceiverAhead) then
      let _ ← keyword "mut"
      let _ ← keyword "self"
      return true
    else if mutable && name.isNone then
      let _ ← keyword "self"
      return true
    else
      let _ ← level.type true true
      return mutable
  let _ ← verbatimIf read id

def variadicAhead : Ahead := fun tokens =>
  Ahead.symbol "..." tokens ||
    (Ahead.any [.name, .word "_"] tokens && Ahead.second (.symbol ":") tokens &&
      Ahead.third (.symbol "...") tokens)

def readVariadic : Parser Unit := do
  if ← peek (.any [.name, .word "_"]) then
    let _ ← anyWord
    let _ ← symbol ":"
  let _ ← symbol "..."
  let _ ← symbol? ","

/-- The parameters of a function type, the last of which may stand for any number. -/
def readFunctionParameters (level : Level) : (fuel : Nat) → (first : Bool) → Parser Unit
  | 0, _ => refuse .exhausted
  | fuel + 1, first => do
    if ← atEnd then return
    let _ ← Attribute.readOuter level
    if ← peek variadicAhead then readVariadic
    else
      readFunctionParameter level first
      if ← atEnd then return
      let _ ← symbol ","
      readFunctionParameters level fuel false

def readFunction (level : Level) : Parser TypeOutline := do
  let _ ← keyword? "unsafe"
  readOrigin
  let _ ← keyword "fn"
  let parameters : Parser Unit := do
    readFunctionParameters level (Token.weightAll (← get).tokens + 1) true
  insideThen .parenthesis parameters fun _ => do
    return .function (← Path.result level false)

/-- What stands between parentheses. -/
inductive Enclosed where
  | nothing
  | object (outline : TypeOutline)
  | optionalBound (bare : Bool)
  | one (outline : TypeOutline)
  | several (outlines : List TypeOutline)

def readEnclosed (level : Level) : Parser Enclosed := do
  if ← atEnd then return .nothing
  if ← peek .lifetime then return .object (← readObject level true)
  if ← peek (.symbol "?") then
    let (_, bare) ← Bound.readTrait level ⟨false, false⟩
    return .optionalBound bare
  let first ← level.type true true
  if ← symbol? "," then
    let rest ← separated "," (level.type true true)
    return .several (first :: rest.map Prod.fst)
  else return .one first

/-- In parentheses, the type may stand for a bound. -/
def isSingleBound : TypeOutline → Bool
  | .path none _ _ => true
  | .traitObject single _ => single
  | _ => false

/-- The bounds behind a bound in parentheses. -/
def readBoundsBehind (level : Level) (bare : Bool) : Parser TypeOutline := do
  let bounds ← manyWhile (.symbol "+") do
    let _ ← symbol "+"
    Bound.read level ⟨false, false⟩
  return .traitObject bounds.isEmpty ((bounds.getLast?.map Bound.endsBare).getD bare)

/-- Parentheses around parentheses are printed once. -/
def mergeParentheses : Parser Unit :=
  modify fun s =>
    match s.printed with
    | .group .parenthesis [.group .parenthesis content _] span :: rest =>
      { s with printed := .group .parenthesis content span :: rest }
    | _ => s

/-- A type in parentheses. Where a sum is allowed, a single trait in parentheses may be
its first bound. -/
def readParenthesized (level : Level) (sum : Bool) : Parser TypeOutline :=
  insideThen .parenthesis (readEnclosed level) fun
    | .nothing => return .tuple []
    | .several outlines => return .tuple outlines
    | .object outline => return .parenthesized outline
    | .optionalBound bare => readBoundsBehind level bare
    | .one outline => do
      if sum && isSingleBound outline && (← peek (.symbol "+")) then
        mergeParentheses
        readBoundsBehind level outline.endsBare
      else return .parenthesized outline

/-- A path, the call of a macro, or bounds that begin with a path. -/
def readPath (level : Level) (quantified sum : Bool) : Parser TypeOutline := do
  let (qualifier, rooted, segments) ← Path.qualified level false
  let path := TypeOutline.path qualifier rooted segments
  if qualifier.isSome then return path
  if (← peek (.symbol "!")) && !(← peek (.symbol "!=")) && segments.all SegmentOutline.isBare then
    let _ ← symbol "!"
    let _ ← rawGroup
    return .other
  let continued := sum && (← peek (.symbol "+"))
  if quantified || continued then
    let more ← if continued then readMoreBounds level ⟨false, false⟩ else pure []
    return .traitObject (!continued) (lastBoundIsBare (.trait path.endsBare :: more))
  return path

/-- The last segment takes the arguments that follow it. -/
def readLastArguments (level : Level) : List SegmentOutline → Parser (List SegmentOutline)
  | [] => return []
  | [last] => return [← level.arguments last.name]
  | first :: rest => return first :: (← readLastArguments level rest)

/-- A type in an invisible group. A path in the group may go on behind it. -/
def readGrouped (level : Level) (arguments : Bool) : Parser TypeOutline := do
  let (outline, inner, shown) ← insideInvisible (level.type true true) fun outline inner whole =>
    return (outline, inner, whole)
  let double ← peek (.symbol "::")
  if double && (← peek (.third .anyWord)) then
    match outline with
    | .path qualifier rooted segments =>
      print inner
      return .path qualifier rooted (segments ++ (← Path.more level false))
    | _ =>
      let span := (shown.head?.map Token.span).getD .origin
      print (.mark '<' false span :: inner ++ [.mark '>' false span])
      let (rooted, segments) ← Path.plain level false
      return .path (some outline) rooted segments
  if (arguments && (← peek (.symbol "<"))) || (double && (← peek (.third (.symbol "<")))) then
    match outline with
    | .path qualifier rooted segments =>
      if Path.lastIsBare segments then
        print inner
        let segments ← readLastArguments level segments
        return .path qualifier rooted (segments ++ (← Path.more level false))
    | _ => pure ()
  print shown
  return .grouped outline

def pathAhead : Ahead :=
  .any [.name, .anyWordOf ["super", "self", "Self", "crate"], .symbol "::", .symbol "<"]

/-- A type. A sum of bounds is read only where `sum` allows it. The parameters that the call of a
macro is quantified over are not printed. -/
def read (level : Level) (sum arguments : Bool) : Parser TypeOutline := do
  if ← peek .invisibleGroup then return ← readGrouped level arguments
  let quantified ← peek (.word "for")
  let (_, binder) ← withhold do
    if quantified then level.binder
  if quantified then
    let next : Ahead :=
      .any [.name, .anyWordOf ["fn", "unsafe", "extern", "super", "self", "Self", "crate"]]
    if !(← peek next) then
      expect (.described "identifier" ::
        symbols ["fn", "unsafe", "extern", "super", "self", "Self", "crate"])
  if ← peek (.group .parenthesis) then readParenthesized level sum
  else if ← peek (.anyWordOf ["fn", "unsafe", "extern"]) then
    print binder
    readFunction level
  else if ← peek Builtin.ahead then
    print binder
    Builtin.read
    return .other
  else if ← peek pathAhead then
    let (outline, shown) ← withhold (readPath level quantified sum)
    match outline with
    | .other => print shown
    | _ => print (binder ++ shown)
    return outline
  else if ← peek (.word "dyn") then readDynamic level sum
  else if ← peek (.group .bracket) then readArray level
  else if ← peek (.symbol "*") then readPointer level
  else if ← peek (.symbol "&") then readReference level
  else if (← peek (.symbol "!")) && !(← peek (.symbol "=")) then
    let _ ← symbol "!"
    return .other
  else if ← peek (.word "impl") then readOpaque level sum
  else if ← peek (.word "_") then
    let _ ← anyWord
    return .other
  else if ← peek .lifetime then readObject level true
  else
    expect [.symbol "for", .described "parentheses", .symbol "fn", .symbol "unsafe",
      .symbol "extern", .described "identifier", .symbol "::", .symbol "<", .symbol "dyn",
      .described "square brackets", .symbol "*", .symbol "&", .symbol "!", .symbol "impl",
      .symbol "_", .described "lifetime"]

end TypeOutline

namespace TypeText

def read (level : Level) : Parser TypeText := do
  let (outline, tokens) ← Parser.capture (level.type true true)
  return ⟨outline, tokens⟩

end TypeText

end Replica
