import Replica.Grammar.Expression

/-!
Statements of blocks.
-/

namespace Replica

namespace StatementOutline

open Replica.Parser

inductive Kind where
  | call
  | binding
  | item
  | expression
deriving DecidableEq

/-- A macro in braces is a statement of its own, unless a member follows it. A word behind
the exclamation mark makes it an item. -/
def macroKind (tokens : List Token) : Option Kind :=
  if !Ahead.symbol "!" tokens then none
  else if Ahead.second (.any [.name, .word "try"]) tokens then some .item
  else
    let continued := (Ahead.third (.symbol ".") tokens && !Ahead.third (.symbol "..") tokens) ||
      Ahead.third (.symbol "?") tokens
    if Ahead.second (.group .brace) tokens && !continued then some .call else none

def staticItemAhead : Ahead := fun tokens =>
  let closure := Ahead.second (.word "async") tokens &&
    Ahead.third (.any [.word "move", .symbol "|"]) tokens
  Ahead.word "static" tokens &&
    (Ahead.second (.word "mut") tokens || (Ahead.second .name tokens && !closure))

def constantItemAhead : Ahead := fun tokens =>
  let asyncFunction := Ahead.third (.anyWordOf ["unsafe", "extern", "fn"]) tokens
  Ahead.word "const" tokens &&
    !(Ahead.second (.any [.group .brace, .anyWordOf ["static", "move"], .symbol "|"]) tokens ||
      (Ahead.second (.word "async") tokens && !asyncFunction))

def itemAhead : Ahead := fun tokens =>
  Ahead.anyWordOf ["pub", "extern", "use", "fn", "mod", "type", "struct", "enum", "trait",
    "impl", "macro"] tokens ||
    (Ahead.word "crate" tokens && !Ahead.second (.symbol "::") tokens) ||
    staticItemAhead tokens || constantItemAhead tokens ||
    (Ahead.word "unsafe" tokens && !Ahead.second (.group .brace) tokens) ||
    (Ahead.word "async" tokens && Ahead.second (.anyWordOf ["unsafe", "extern", "fn"]) tokens) ||
    (Ahead.word "union" tokens && Ahead.second .name tokens) ||
    (Ahead.word "auto" tokens && Ahead.second (.word "trait") tokens) ||
    (Ahead.word "default" tokens && Ahead.second (.anyWordOf ["unsafe", "impl"]) tokens)

/-- The kind of the statement ahead, whose attributes are passed. -/
def kindAhead (level : Level) : Parser Kind :=
  lookahead do
    let _ ← Attribute.readOuter level
    let start := (← get).tokens
    let behindPath ← attempt do
      let _ ← Path.simple
      return (← get).tokens
    match behindPath.bind macroKind with
    | some kind => return kind
    | none =>
      if Ahead.word "let" start && !Ahead.invisibleGroup start then return .binding
      else if itemAhead start then return .item
      else return .expression

def readCall (level : Level) : Parser Unit := do
  let _ ← Attribute.readOuter level
  let _ ← Path.simple
  let _ ← symbol "!"
  let _ ← rawGroup
  let _ ← symbol? ";"

mutual

/-- The token is a group in braces, or ends with one in an invisible group. -/
def isBraces : Token → Bool
  | .group .brace _ _ => true
  | .group .invisible content _ => endInBraces content
  | _ => false

def endInBraces : List Token → Bool
  | [] => false
  | [token] => isBraces token
  | _ :: rest => endInBraces rest

end

/-- What was printed last is a group in braces. -/
def endsInBraces : Parser Bool := do
  return (← get).printed.head?.any isBraces

def readBinding (level : Level) : Parser Unit := do
  let _ ← Attribute.readOuter level
  let _ ← keyword "let"
  let _ ← level.pattern false
  if ← symbol? ":" then
    let _ ← level.type true true
  if ← symbol? "=" then
    let _ ← level.expression .anywhere
    if !(← endsInBraces) then
      if ← keyword? "else" then ExpressionOutline.readPlainBlock level
  let _ ← symbol ";"

/-- The tokens of an expression without the first `count` ones, which may stand in parentheses
together with its first operand. -/
def withoutFront (count : Nat) : List Token → List Token
  | .group .parenthesis content span :: rest =>
    .group .parenthesis (content.drop count) span :: rest
  | tokens => tokens.drop count

/-- An expression behind its attributes. They belong to its first operand, but to the whole of a
range, which is printed in parentheses then. -/
def readExpression (level : Level) : Parser ExpressionOutline := do
  let (_, attributes) ← withhold (Attribute.readOuter level)
  let (outline, shown) ← withhold (level.early .statement attributes)
  if outline.shape = .range && !attributes.isEmpty then
    print (attributes ++ enclosed (withoutFront attributes.length shown))
  else print shown
  return outline

def read (level : Level) : Parser StatementOutline := do
  match ← kindAhead level with
  | .call =>
    readCall level
    return .other
  | .binding =>
    readBinding level
    return .other
  | .item =>
    level.item
    return .other
  | .expression =>
    let expression ← readExpression level
    return .expression expression (← symbol? ";")

/-- Only a statement that ends with its own block may stand in front of others without a
semicolon. -/
def needsSemicolon : StatementOutline → Bool
  | .expression outline false => outline.shape ≠ .block && outline.shape ≠ .braceMacro
  | _ => false

/-- The statements up to the end of the block. A lone semicolon is a statement. -/
def readAll (level : Level) : Parser (List StatementOutline) :=
  many do
    if ← symbol? ";" then return some (.expression .plain true)
    if ← atEnd then return none
    let statement ← read level
    if needsSemicolon statement && !(← atEnd) then refuse .unfinishedStatement
    return some statement

end StatementOutline

end Replica
