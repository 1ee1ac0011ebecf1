import Replica.Grammar.Level

/-!
Paths. In an expression the arguments of a segment stand behind a double colon; in a
type they need none. Behind the path of a bound arguments may stand in parentheses.
-/

namespace Replica

namespace Path

open Replica.Parser

def segment (level : Level) (expression : Bool) : Parser SegmentOutline := do
  if ← peek (.anyWordOf ["super", "self", "crate", "try"]) then
    return .bare (← anyWord).text
  let name ← if ← peek (.word "Self") then anyWord else name
  let direct := !expression && (← peek (.symbol "<")) &&
    !(← peek (.any [.symbol "<=", .symbol "<<="]))
  if direct || ((← peek (.symbol "::")) && (← peek (.third (.symbol "<")))) then
    level.arguments name.text
  else return .bare name.text

def separatorAhead : Ahead := fun tokens =>
  Ahead.symbol "::" tokens && !Ahead.third (.group .parenthesis) tokens

/-- The segments behind those that are already read. -/
def more (level : Level) (expression : Bool) : Parser (List SegmentOutline) :=
  manyWhile separatorAhead do
    let _ ← symbol "::"
    segment level expression

/-- A path, and whether it begins with a double colon. -/
def plain (level : Level) (expression : Bool) : Parser (Bool × List SegmentOutline) := do
  let rooted ← symbol? "::"
  let first ← segment level expression
  return (rooted, first :: (← more level expression))

def text (level : Level) : Parser PathText := do
  let ((rooted, segments), tokens) ← capture (plain level false)
  return ⟨rooted, segments, tokens⟩

def simpleWord : Ahead := fun tokens =>
  Ahead.name tokens || Ahead.anyWordOf ["super", "self", "Self", "crate"] tokens

def simpleSegment : Parser Name := do
  if ← peek simpleWord then anyWord else name

def simple : Parser AttributePath := do
  let rooted ← symbol? "::"
  let first ← simpleSegment
  let rest ← manyWhile (.symbol "::") do
    let _ ← symbol "::"
    if ← peek simpleWord then anyWord else expectKind "path segment after `::`"
  return ⟨rooted, first :: rest⟩

/-- A path, or a path behind the type that qualifies it. -/
def qualified (level : Level) (expression : Bool) :
    Parser (Option TypeOutline × Bool × List SegmentOutline) := do
  if ← peek (.symbol "<") then
    let _ ← symbol "<"
    let type ← level.type true true
    let bound ← if ← keyword? "as" then some <$> plain level false else pure none
    let _ ← symbol ">"
    let _ ← symbol "::"
    let first ← segment level expression
    let rest ← manyWhile (.symbol "::") do
      let _ ← symbol "::"
      segment level expression
    match bound with
    | some (rooted, segments) => return (some type, rooted, segments ++ first :: rest)
    | none => return (some type, true, first :: rest)
  else
    let (rooted, segments) ← plain level expression
    return (none, rooted, segments)

def result (level : Level) (sum : Bool) : Parser (Option TypeOutline) := do
  if ← symbol? "->" then some <$> level.type sum true else return none

def callAhead : Ahead := fun tokens =>
  Ahead.group .parenthesis tokens ||
    (Ahead.symbol "::" tokens && Ahead.third (.group .parenthesis) tokens)

/-- Arguments in parentheses and the result behind them. A double colon in front is not
printed. -/
def callArguments (level : Level) : Parser (Option TypeOutline) := do
  let _ ← unprinted (symbol? "::")
  let _ ← inside .parenthesis (separated "," (level.type true true))
  result level false

def lastIsBare (segments : List SegmentOutline) : Bool :=
  segments.getLast?.any SegmentOutline.isBare

/-- The last segment has no arguments, though it may have brackets for them. -/
def lastIsEmpty (segments : List SegmentOutline) : Bool :=
  segments.getLast?.any fun
    | .generic _ _ _ => false
    | _ => true

/-- The tokens of a path without the empty angle brackets of its last segment. -/
def withoutHollow (segments : List SegmentOutline) (shown : List Token) : List Token :=
  match segments.getLast? with
  | some (.hollow _ turbofish) => shown.take (shown.length - if turbofish then 4 else 2)
  | _ => shown

end Path

namespace Builtin

open Replica.Parser

def ahead : Ahead := fun tokens =>
  Ahead.word "builtin" tokens && Ahead.second (.symbol "#") tokens

/-- A construct of which only the tokens are known. -/
def read : Parser Unit :=
  verbatim do
    let _ ← keyword "builtin"
    let _ ← symbol "#"
    let _ ← name
    inside .parenthesis (modify fun s => { s with tokens := [] })

end Builtin

end Replica
