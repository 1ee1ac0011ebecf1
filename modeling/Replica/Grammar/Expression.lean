import Replica.Grammar.Pattern

/-!
Expressions: operands with operators in front of them, between them and behind them.
-/

namespace Replica

/-- How strongly operators bind, the weakest first. -/
inductive Strength where
  | jump
  | assignment
  | range
  | disjunction
  | conjunction
  | condition
  | comparison
  | bitOr
  | bitXor
  | bitAnd
  | shift
  | sum
  | product
  | cast
deriving DecidableEq

namespace Strength

def rank : Strength → Nat
  | .jump => 0
  | .assignment => 1
  | .range => 2
  | .disjunction => 3
  | .conjunction => 4
  | .condition => 5
  | .comparison => 6
  | .bitOr => 7
  | .bitXor => 8
  | .bitAnd => 9
  | .shift => 10
  | .sum => 11
  | .product => 12
  | .cast => 13

end Strength

namespace ExpressionOutline

open Replica.Parser

/-- The operators between two operands. Of two that fit, the earlier one is meant. -/
def binaryOperators : List (String × Strength) :=
  [("+=", .assignment), ("-=", .assignment), ("*=", .assignment), ("/=", .assignment),
    ("%=", .assignment), ("^=", .assignment), ("&=", .assignment), ("|=", .assignment),
    ("<<=", .assignment), (">>=", .assignment), ("&&", .conjunction), ("||", .disjunction),
    ("<<", .shift), (">>", .shift), ("==", .comparison), ("<=", .comparison),
    ("!=", .comparison), (">=", .comparison), ("+", .sum), ("-", .sum), ("*", .product),
    ("/", .product), ("%", .product), ("^", .bitXor), ("&", .bitAnd), ("|", .bitOr),
    ("<", .comparison), (">", .comparison)]

def binaryAhead (tokens : List Token) : Option (String × Strength) :=
  binaryOperators.find? fun (text, _) => Ahead.symbol text tokens

def assignmentAhead : Ahead := fun tokens =>
  Ahead.symbol "=" tokens && !Ahead.symbol "=>" tokens

def strengthAhead (tokens : List Token) : Strength :=
  match binaryAhead tokens with
  | some (_, strength) => strength
  | none =>
    if assignmentAhead tokens then .assignment
    else if Ahead.symbol ".." tokens then .range
    else if Ahead.word "as" tokens then .cast
    else .jump

def ahead : Ahead := fun tokens =>
  let alone (text : String) (others : List String) : Bool :=
    Ahead.symbol text tokens && !others.any (Ahead.symbol · tokens)
  (Ahead.anyWord tokens && !Ahead.word "as" tokens) ||
    Ahead.any [.group .parenthesis, .group .bracket, .group .brace, .literal] tokens ||
    alone "!" ["!="] || alone "-" ["-=", "->"] || alone "*" ["*="] || alone "|" ["|="] ||
    alone "&" ["&="] || Ahead.symbol ".." tokens || alone "<" ["<=", "<<="] ||
    Ahead.any [.symbol "::", .lifetime, .symbol "#"] tokens

def attributeAhead : Ahead := fun tokens =>
  !Ahead.invisibleGroup tokens && Ahead.symbol "#" tokens

def readAttributes (level : Level) : Parser (List Attribute) :=
  manyWhile attributeAhead (Attribute.read level false)

/-- The operand behind an operator of some strength, with the stronger operators behind it. -/
def readRight (level : Level) (context : Context) (strength : Strength) :
    Parser ExpressionOutline := do
  let before := (← get).printed
  let first ← level.operand context
  go before (Token.weightAll (← get).tokens + 1) first
where
  go (before : List Token) : (fuel : Nat) → ExpressionOutline → Parser ExpressionOutline
    | 0, left => return left
    | fuel + 1, left => do
      let tokens := (← get).tokens
      let next := strengthAhead tokens
      if strength.rank < next.rank || (next = strength && strength = .assignment) then
        let longer ← level.operators context next.rank before left
        let rest := (← get).tokens
        if Token.weightAll rest = Token.weightAll tokens then return longer
        else go before fuel longer
      else return left

/-- The end of a range without a bound on the right. -/
def openEnd (context : Context) : Ahead := fun tokens =>
  Ahead.any [.ended, .symbol ",", .symbol ";", .symbol "?", .symbol "=>", .symbol "=",
    .symbol "+", .symbol "/", .symbol "%", .symbol "^", .symbol ">", .symbol "<=", .symbol "!=",
    .symbol "-=", .symbol "*=", .symbol "&=", .symbol "|=", .symbol "<<=", .word "as"] tokens ||
    (Ahead.symbol "." tokens && !Ahead.symbol ".." tokens) ||
    (context.inCondition && Ahead.group .brace tokens)

def readRange (level : Level) (context : Context) : Parser ExpressionOutline := do
  let (limits, _) ← PatternOutline.readLimits false
  if limits = .halfOpen && (← peek (openEnd context)) then return .other .range
  let _ ← readRight level context.optional .range
  return .other .range

/-- Nothing that ends an operand may stand behind a cast. -/
def refuseTrailer : Parser Unit := do
  if (← peek (.symbol ".")) && !(← peek (.symbol "..")) then
    if ← peek (.second (.word "await")) then refuse (.castFollowed "`.await`")
    else if (← peek (.second .name)) &&
        (← peek (.third (.any [.group .parenthesis, .symbol "::"]))) then
      refuse (.castFollowed "a method call")
    else refuse (.castFollowed "a field access")
  else if ← peek (.symbol "?") then refuse (.castFollowed "`?`")
  else if ← peek (.group .bracket) then refuse (.castFollowed "indexing")
  else if ← peek (.group .parenthesis) then refuse (.castFollowed "a function call")

/-- An angle bracket behind a cast to a bare path would seem to open the arguments of the path.
The cast is printed in parentheses then. -/
def guardCast (operator : String) : ExpressionShape → Parser Unit
  | .openCast mark => if operator = "<" || operator = "<<" then enclose mark else return
  | _ => return

/-- The shape of two operands with an operator between them. -/
def joined (strength : Strength) (right : ExpressionShape) : ExpressionShape :=
  match strength, right with
  | .comparison, _ => .comparison
  | _, .openCast mark => .openCast mark
  | _, _ => .plain

/-- The operators of rank at least `base` behind an expression, `before` which other tokens were
printed. -/
def readOperatorsFrom (level : Level) (context : Context) (base : Nat) (before : List Token) :
    (fuel : Nat) → ExpressionOutline → Parser ExpressionOutline
  | 0, _ => refuse .exhausted
  | fuel + 1, left => do
    if left.shape = .range then return left
    let tokens := (← get).tokens
    match binaryAhead tokens with
    | some (text, strength) =>
      if strength.rank < base then return left
      if strength = .comparison && left.shape = .comparison then refuse .chainedComparison
      guardCast text left.shape
      let _ ← symbol text
      let right ← readRight level context.behind strength
      readOperatorsFrom level context base before fuel (.other (joined strength right.shape))
    | none =>
      if base ≤ Strength.assignment.rank && assignmentAhead tokens then
        let _ ← symbol "="
        let _ ← readRight level context.behind .assignment
        readOperatorsFrom level context base before fuel plain
      else if base ≤ Strength.range.rank && Ahead.symbol ".." tokens then
        readOperatorsFrom level context base before fuel (← readRange level context)
      else if base ≤ Strength.cast.rank && Ahead.word "as" tokens then
        let _ ← keyword "as"
        let type ← level.type false false
        refuseTrailer
        let shape := if type.endsBare then .openCast before.length else .plain
        readOperatorsFrom level context base before fuel (.other shape)
      else return left

def readOperators (level : Level) (context : Context) (base : Nat) (before : List Token)
    (left : ExpressionOutline) : Parser ExpressionOutline := do
  readOperatorsFrom level context base before (Token.weightAll (← get).tokens + 1) left

def readList (level : Level) (delimiter : Delimiter) : Parser Unit := do
  let _ ← inside delimiter (separated "," (level.expression .anywhere))

/-- Calls, members, indices and question marks behind an operand. -/
def readTrailers (level : Level) : (fuel : Nat) → ExpressionOutline → Parser ExpressionOutline
  | 0, _ => refuse .exhausted
  | fuel + 1, left => do
    if ← peek (.group .parenthesis) then
      readList level .parenthesis
      readTrailers level fuel (.call left)
    else if (← peek (.symbol ".")) && !(← peek (.symbol "..")) && left.shape ≠ .range then
      let _ ← symbol "."
      if ← peek (.literalIs Literal.isFloat) then
        if ← Member.readPositions then readMember
      else readMember
      readTrailers level fuel plain
    else if ← peek (.group .bracket) then
      let _ ← inside .bracket (level.expression .anywhere)
      readTrailers level fuel plain
    else if (← peek (.symbol "?")) && left.shape ≠ .range then
      let _ ← symbol "?"
      readTrailers level fuel plain
    else return left
where
  readMember : Parser Unit := do
    if ← keyword? "await" then return
    let member ← Member.read
    let generic := member = .named && (← peek (.symbol "::"))
    if generic then
      let _ ← level.arguments ""
    if member = .named && (generic || (← peek (.group .parenthesis))) then
      readList level .parenthesis

def readAllTrailers (level : Level) (left : ExpressionOutline) : Parser ExpressionOutline := do
  readTrailers level (Token.weightAll (← get).tokens + 1) left

def readPlainBlock (level : Level) : Parser Unit := do
  let _ ← inside .brace level.statements

def readFieldValue (level : Level) : Parser Unit := do
  let _ ← Attribute.readOuter level
  let member ← Member.read
  if member = .position || (← peek (.symbol ":")) then
    let _ ← symbol ":"
    let _ ← level.expression .anywhere

/-- The fields of a literal, the last of which may be the rest of another value. -/
def readFieldValues (level : Level) : (fuel : Nat) → Parser Unit
  | 0 => refuse .exhausted
  | fuel + 1 => do
    if ← atEnd then return
    if ← symbol? ".." then
      if !(← atEnd) then
        let _ ← level.expression .anywhere
      return
    readFieldValue level
    if ← atEnd then return
    let _ ← symbol ","
    readFieldValues level fuel

/-- What a path begins: the call of a macro, a literal, or the path alone. -/
def readBehindPath (level : Level) (context : Context) (qualified : Bool)
    (segments : List SegmentOutline) : Parser ExpressionOutline := do
  if !qualified && (← peek (.symbol "!")) && !(← peek (.symbol "!=")) &&
      segments.all SegmentOutline.isBare then
    let _ ← symbol "!"
    let (delimiter, _, _) ← rawGroup
    return .other (if delimiter = .brace then .braceMacro else .plain)
  if !context.inCondition && (← peek (.group .brace)) then
    inside .brace do readFieldValues level (Token.weightAll (← get).tokens + 1)
    return plain
  return .path qualified segments

def readPath (level : Level) (context : Context) : Parser ExpressionOutline := do
  let (qualifier, _, segments) ← Path.qualified level true
  readBehindPath level context qualifier.isSome segments

/-- An expression in an invisible group. A path in the group may go on behind it, unless it has
attributes. -/
def readGrouped (level : Level) (context : Context) : Parser ExpressionOutline := do
  let attributed ← peek (.within attributeAhead)
  insideInvisible (level.expression .anywhere) fun outline inner whole => do
    match attributed, outline with
    | false, .path qualified segments =>
      let (extended, rest) ← withhold do
        let more ← Path.more level true
        readBehindPath level context qualified (segments ++ more)
      if rest.isEmpty then
        print whole
        return .grouped outline
      else
        print (inner ++ rest)
        return extended
    | _, _ =>
      print whole
      return .grouped outline

def readTuple (level : Level) : Parser ExpressionOutline := do
  let elements ← inside .parenthesis (separated "," (level.expression .anywhere))
  match elements with
  | [(outline, false)] => return .parenthesized outline
  | _ => return plain

def readArray (level : Level) : Parser ExpressionOutline := do
  inside .bracket do
    if ← atEnd then return
    let _ ← level.expression .anywhere
    if ← atEnd then return
    if ← symbol? "," then
      let _ ← separated "," (level.expression .anywhere)
    else if ← symbol? ";" then
      let _ ← level.expression .anywhere
    else expect (symbols [",", ";"])
  return plain

/-- A parameter of a closure. Attributes of a pattern alone are not printed in front of one that is
kept as it is in the source, and a range with attributes is printed in parentheses. -/
def readClosureParameter (level : Level) : Parser Unit := do
  let (_, attributes) ← withhold (Attribute.readOuter level)
  let (pattern, shown) ← withhold (level.pattern false)
  if ← peek (.symbol ":") then
    print (attributes ++ shown)
    let _ ← symbol ":"
    let _ ← level.type true true
  else
    match pattern with
    | .unparsed => print shown
    | .range _ => print (if attributes.isEmpty then shown else attributes ++ enclosed shown)
    | _ => print (attributes ++ shown)

def readClosure (level : Level) (context : Context) : Parser ExpressionOutline := do
  if ← peek (.word "for") then level.binder
  let _ ← keyword? "const"
  let _ ← keyword? "static"
  let _ ← keyword? "async"
  let _ ← keyword? "move"
  let _ ← symbol "|"
  let _ ← upTo "|" (readClosureParameter level)
  let _ ← symbol "|"
  if ← symbol? "->" then
    let _ ← level.type true true
    readPlainBlock level
  else
    let _ ← level.expression context.behind
  return plain

def readConditional (level : Level) : (fuel : Nat) → Parser Unit
  | 0 => refuse .exhausted
  | fuel + 1 => do
    let _ ← keyword "if"
    let _ ← level.expression .condition
    readPlainBlock level
    if ← keyword? "else" then
      if ← peek (.word "if") then readConditional level fuel
      else if ← peek (.group .brace) then readPlainBlock level
      else expect [.symbol "if", .described "curly braces"]

def readIf (level : Level) : Parser ExpressionOutline := do
  let _ ← Attribute.readOuter level
  readConditional level (Token.weightAll (← get).tokens + 1)
  return .other .block

def readLabel : Parser Unit := do
  if ← peek .lifetime then
    let _ ← lifetime
    let _ ← symbol ":"

def readWhile (level : Level) : Parser ExpressionOutline := do
  let _ ← keyword "while"
  let _ ← level.expression .condition
  Generics.readBlock level
  return .other .block

def readFor (level : Level) : Parser ExpressionOutline := do
  let _ ← keyword "for"
  let _ ← level.pattern true
  let _ ← keyword "in"
  let _ ← level.expression .condition
  Generics.readBlock level
  return .other .block

def readLoop (level : Level) : Parser ExpressionOutline := do
  let _ ← keyword "loop"
  Generics.readBlock level
  return .other .block

def readBlock (level : Level) : Parser ExpressionOutline := do
  Generics.readBlock level
  return .other .block

def readLabeled (level : Level) : Parser ExpressionOutline := do
  readLabel
  if ← peek (.word "while") then readWhile level
  else if ← peek (.word "for") then readFor level
  else if ← peek (.word "loop") then readLoop level
  else if ← peek (.group .brace) then readBlock level
  else expectKind "loop or block expression"

/-- A word and the block behind it, with attributes in it where `attributes` says so. -/
def readWordBlock (level : Level) (word : String) (attributes : Bool) :
    Parser ExpressionOutline := do
  let _ ← keyword word
  if attributes then Generics.readBlock level else readPlainBlock level
  return .other .block

/-- A loop over values, and not a closure that is quantified over parameters. -/
def loopAhead : Ahead := fun tokens =>
  Ahead.word "for" tokens && !Ahead.second Generics.ahead tokens

def readArm (level : Level) : Parser Unit := do
  let _ ← Attribute.readOuter level
  let _ ← level.pattern true
  if ← keyword? "if" then
    let _ ← level.expression .anywhere
  let _ ← symbol "=>"
  let body ← level.early .anywhere []
  if body.shape ≠ .block && !(← atEnd) then
    let _ ← symbol ","
  else
    let _ ← symbol? ","

def readMatch (level : Level) : Parser ExpressionOutline := do
  let _ ← keyword "match"
  let _ ← level.expression .condition
  inside .brace do
    let _ ← Attribute.readInner level
    let _ ← many do
      if ← atEnd then return none
      readArm level
      return some ()
  return .other .block

def earlyOperand (level : Level) (context : Context) : Parser ExpressionOutline := do
  if ← peek .invisibleGroup then
    let atom ← readGrouped level .anywhere
    if atom.innerShape = .block then return atom else return ← readAllTrailers level atom
  if ← peek (.word "if") then readIf level
  else if ← peek (.word "while") then readWhile level
  else if ← peek loopAhead then readFor level
  else if ← peek (.word "loop") then readLoop level
  else if ← peek (.word "match") then readMatch level
  else if (← peek (.word "try")) && (← peek (.second (.group .brace))) then
    readWordBlock level "try" false
  else if ← peek (.word "unsafe") then readWordBlock level "unsafe" true
  else if (← peek (.word "const")) && (← peek (.second (.group .brace))) then
    readWordBlock level "const" true
  else if ← peek (.group .brace) then readBlock level
  else if ← peek .lifetime then readLabeled level
  else level.operand context

/-- An operand as it is printed behind its attributes. -/
def attributedTokens (attributes : List Token) (shape : ExpressionShape) (shown : List Token) :
    List Token :=
  match shape with
  | .unparsed => shown
  | .range => if attributes.isEmpty then shown else attributes ++ enclosed shown
  | _ => attributes ++ shown

/-- An operator comes next, behind which an expression goes on. -/
def operatorAhead : Ahead := fun tokens =>
  strengthAhead tokens ≠ .jump

def readEarly (level : Level) (context : Context) (front : List Token) :
    Parser ExpressionOutline := do
  let before := (← get).printed
  print front
  let (_, attributes) ← withhold (readAttributes level)
  let (first, shown) ← withhold (earlyOperand level context)
  print (attributedTokens attributes first.shape shown)
  if context.leading && first.shape = .braceMacro && (← peek operatorAhead) then
    enclose before.length
  let readOn := readOperators level .anywhere Strength.jump.rank before
  if first.innerShape ≠ .block then readOn first
  else if ((← peek (.symbol ".")) && !(← peek (.symbol ".."))) || (← peek (.symbol "?")) then
    readOn (← readAllTrailers level first)
  else return first

def readValue (level : Level) : Parser (Option ExpressionOutline) := do
  if ← peek ahead then some <$> level.expression .anywhere else return none

/-- A labeled loop or block stands ahead, behind attributes. -/
def labelBehindAttributes (level : Level) : Parser Bool :=
  lookahead do
    let _ ← readAttributes level
    peek fun tokens => !Ahead.invisibleGroup tokens && Ahead.lifetime tokens

/-- A break with its value. A value that begins with a label would seem to be a break to that label,
and is printed in parentheses. -/
def readBreak (level : Level) (context : Context) : Parser ExpressionOutline := do
  let _ ← keyword "break"
  if (← peek .lifetime) && (← peek (.second (.symbol ":"))) then
    let start ← spanAhead
    let _ ← level.expression .anywhere
    failAt (start.join (← get).last) .labelNeedsParentheses
  let target ← lifetime?
  if (← peek ahead) && (!context.inCondition || !(← peek (.group .brace))) then
    let labeled ← if target.isNone then labelBehindAttributes level else pure false
    let (_, shown) ← withhold (level.expression context.value)
    print (if labeled then enclosed shown else shown)
  return plain

def readLet (level : Level) (context : Context) : Parser ExpressionOutline := do
  let _ ← keyword "let"
  let _ ← level.pattern true
  let _ ← symbol "="
  let before := (← get).printed
  let operand ← level.operand context.behind
  let _ ← level.operators context.behind Strength.comparison.rank before operand
  return plain

def asyncBlockAhead : Ahead := fun tokens =>
  Ahead.word "async" tokens && (Ahead.second (.group .brace) tokens ||
    (Ahead.second (.word "move") tokens && Ahead.third (.group .brace) tokens))

def closureAhead : Ahead := fun tokens =>
  Ahead.any [.symbol "|", .anyWordOf ["move", "static"]] tokens ||
    (Ahead.word "for" tokens && Ahead.second Generics.ahead tokens) ||
    (Ahead.word "const" tokens && !Ahead.second (.group .brace) tokens) ||
    (Ahead.word "async" tokens && Ahead.second (.any [.symbol "|", .word "move"]) tokens)

def pathAhead : Ahead := fun tokens =>
  TypeOutline.pathAhead tokens ||
    (Ahead.word "try" tokens && Ahead.second (.any [.symbol "!", .symbol "::"]) tokens)

def readAtom (level : Level) (context : Context) : Parser ExpressionOutline := do
  if ← peek .invisibleGroup then readGrouped level context
  else if ← peek .literal then
    let _ ← literal
    return plain
  else if ← peek asyncBlockAhead then
    let _ ← keyword "async"
    let _ ← keyword? "move"
    readPlainBlock level
    return plain
  else if (← peek (.word "try")) && (← peek (.second (.group .brace))) then
    readWordBlock level "try" false
  else if ← peek closureAhead then readClosure level context
  else if ← peek Builtin.ahead then
    Builtin.read
    return .other .unparsed
  else if ← peek pathAhead then readPath level context
  else if ← peek (.group .parenthesis) then readTuple level
  else if ← peek (.word "break") then readBreak level context
  else if ← peek (.word "continue") then
    let _ ← keyword "continue"
    let _ ← lifetime?
    return plain
  else if ← peek (.word "return") then
    let _ ← keyword "return"
    return .returned (← readValue level)
  else if ← peek (.word "become") then
    verbatim do
      let _ ← keyword "become"
      let _ ← level.expression .anywhere
    return .other .unparsed
  else if ← peek (.group .bracket) then readArray level
  else if ← peek (.word "let") then readLet level context
  else if ← peek (.word "if") then readIf level
  else if ← peek (.word "while") then readWhile level
  else if ← peek (.word "for") then readFor level
  else if ← peek (.word "loop") then readLoop level
  else if ← peek (.word "match") then readMatch level
  else if ← peek (.word "yield") then
    let _ ← keyword "yield"
    let _ ← readValue level
    return plain
  else if ← peek (.word "unsafe") then readWordBlock level "unsafe" true
  else if ← peek (.word "const") then readWordBlock level "const" true
  else if ← peek (.group .brace) then readBlock level
  else if ← peek (.symbol "..") then readRange level context
  else if ← peek (.word "_") then
    let _ ← anyWord
    return plain
  else if ← peek .lifetime then readLabeled level
  else expectKind "an expression"

def trailerAhead : Ahead := fun tokens =>
  Ahead.any [.group .parenthesis, .group .bracket, .symbol "?"] tokens ||
    (Ahead.symbol "." tokens && !Ahead.symbol ".." tokens)

def plainBlockAhead : Ahead
  | .group .brace content _ :: _ => !Attribute.innerAhead content
  | _ => false

def argumentsAhead : Ahead := .any [.group .parenthesis, .group .bracket]

/-- The smallest expression of an operand. A block that would end a condition is printed in
parentheses, unless it is the whole of an operand with attributes. So is the call of a macro that
would end a statement in front of arguments. -/
def readFirst (level : Level) (context : Context) (attributed : Bool) :
    Parser ExpressionOutline := do
  let plainBlock ← peek plainBlockAhead
  let (atom, shown) ← withhold (readAtom level context)
  let whole := attributed && !(← peek trailerAhead)
  let called := atom.shape = .braceMacro && (← peek argumentsAhead)
  let hidden := (context.guarded && plainBlock && !whole) || (context.leading && called)
  print (if hidden then enclosed shown else shown)
  return atom

/-- An operand with what stands behind it. A range without a start takes no attributes. -/
def readWithTrailers (level : Level) (context : Context) (attributed : Bool) :
    Parser ExpressionOutline := do
  let dots ← if ← peek (.symbol "..") then some <$> lookahead (PatternOutline.readLimits true)
    else pure none
  let atom ← readFirst level context attributed
  let longer ← readAllTrailers level atom
  match dots with
  | some (_, span) => if attributed then failAt span .attributesOnRange
  | none => pure ()
  return longer

def readReference (level : Level) (context : Context) : Parser ExpressionOutline := do
  let _ ← symbol "&"
  let raw := (← peek (.word "raw")) && (← peek (.second (.anyWordOf ["mut", "const"])))
  if raw then
    let _ ← anyWord
  let mutable ← keyword? "mut"
  if raw && !mutable then
    let _ ← keyword "const"
  let _ ← level.operand context.behind
  return plain

def readPrefixed (level : Level) (context : Context) : Parser ExpressionOutline := do
  let attributed := !(← readAttributes level).isEmpty
  let tokens := (← get).tokens
  if ← peek .invisibleGroup then readWithTrailers level context attributed
  else if ← peek (.symbol "&") then readReference level context
  else
    match ["*", "!", "-"].find? (Ahead.symbol · tokens) with
    | some sign =>
      let _ ← symbol sign
      let _ ← level.operand context.behind
      return plain
    | none => readWithTrailers level context attributed

/-- An operand with the operators in front of it. One that has no parts of its own is kept as it is
in the source, with its attributes. -/
def readOperand (level : Level) (context : Context) : Parser ExpressionOutline :=
  verbatimIf (readPrefixed level context) fun operand => operand.shape = .unparsed

def read (level : Level) (context : Context) : Parser ExpressionOutline := do
  let before := (← get).printed
  let operand ← level.operand context
  level.operators context Strength.jump.rank before operand

end ExpressionOutline

end Replica
