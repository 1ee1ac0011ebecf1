import Replica.Grammar.Declaration
import Replica.Grammar.Implementation

/-!
Items. Declarations of types and implementation blocks are kept in parts; of all other
items the kind, the printed form and the place that names them are kept.
-/

namespace Replica

inductive ItemKind where
  | trait
  | typeAlias
  | function
  | module
  | constant
  | static
  | use
  | call
  | externCrate
  | externBlock
  | traitAlias
  /-- A form that is kept as it is in the source. -/
  | unparsed
deriving DecidableEq, Repr

inductive Item where
  | declaration (declaration : Declaration)
  | implementation (implementation : Implementation)
  /-- The name is given for the kinds that declare one. -/
  | other (kind : ItemKind) (name : Option Span) (tokens : List Token)

namespace Item

open Replica.Parser

def tokens : Item → List Token
  | .declaration d => d.tokens
  | .implementation i => i.tokens
  | .other _ _ tokens => tokens

/-- What a reader learns of an item that it keeps no parts of. -/
structure Summary where
  kind : ItemKind
  name : Option Span

def unparsed : Summary := ⟨.unparsed, none⟩

def blockOrStop (level : Level) : Parser Bool := do
  if ← peek (.group .brace) then
    Generics.readBlock level
    return true
  else if ← symbol? ";" then return false
  else expect [.described "curly braces", .symbol ";"]

def readFunction (level : Level) : Parser Summary := do
  let _ ← Visibility.read
  let (signature, _) ← Signature.read level false
  if ← symbol? ";" then return unparsed
  Generics.readBlock level
  return ⟨.function, some signature.name.span⟩

/-- The names that a `use` brings in. The answer tells whether the tree is of the plain
form: a path that begins with a double colon may not stand in braces. -/
def readUseTree (root : Bool) : (fuel : Nat) → Parser Bool
  | 0 => refuse .exhausted
  | fuel + 1 => do
    if ← peek (.any [.name, .anyWordOf ["self", "super", "crate", "try"]]) then
      let _ ← anyWord
      if ← symbol? "::" then readUseTree false fuel
      else if ← keyword? "as" then
        if ← peek (.any [.name, .word "_"]) then
          let _ ← anyWord
          return true
        else expectKind "identifier or underscore"
      else return true
    else if ← symbol? "*" then return true
    else if ← peek (.group .brace) then
      let branches ← inside .brace do
        separated "," do
          let rooted ← if root then symbol? "::" else pure false
          let plain ← readUseTree (root && !rooted) fuel
          return plain && !rooted
      return branches.all fun (plain, _) => plain
    else
      expect (.described "identifier" :: symbols ["self", "super", "crate", "try", "*"] ++
        [.described "curly braces"])

def readUse : Parser Summary := do
  let _ ← Visibility.read
  let _ ← keyword "use"
  let rooted ← symbol? "::"
  let plain ← readUseTree (!rooted) (Token.weightAll (← get).tokens + 1)
  let _ ← symbol ";"
  return if plain then ⟨.use, none⟩ else unparsed

def readExternCrate : Parser Summary := do
  let _ ← Visibility.read
  let _ ← keyword "extern"
  let _ ← keyword "crate"
  let _ ← if ← peek (.word "self") then anyWord else Parser.name
  if ← keyword? "as" then
    let _ ← if ← peek (.word "_") then anyWord else Parser.name
  let _ ← symbol ";"
  return ⟨.externCrate, none⟩

def readStatic (level : Level) : Parser Summary := do
  let _ ← Visibility.read
  let _ ← keyword "static"
  let _ ← keyword? "mut"
  let name ← Parser.name
  if ← symbol? "=" then
    let _ ← level.expression .anywhere
    let _ ← symbol ";"
    return unparsed
  let _ ← symbol ":"
  let _ ← level.type true true
  if ← symbol? ";" then return unparsed
  let _ ← symbol "="
  let _ ← level.expression .anywhere
  let _ ← symbol ";"
  return ⟨.static, some name.span⟩

def readConstant (level : Level) : Parser Summary := do
  let _ ← Visibility.read
  let _ ← keyword "const"
  let (name, plain, valued) ← Constant.readBehind level
  return if plain && valued then ⟨.constant, some name.span⟩ else unparsed

def readModule (level : Level) : Parser Summary := do
  let _ ← Visibility.read
  let _ ← keyword? "unsafe"
  let _ ← keyword "mod"
  let name ← if ← peek (.word "try") then anyWord else Parser.name
  if ← symbol? ";" then return ⟨.module, some name.span⟩
  else if ← peek (.group .brace) then
    inside .brace do
      let _ ← Attribute.readInner level
      let _ ← many do
        if ← atEnd then return none
        level.item
        return some ()
    return ⟨.module, some name.span⟩
  else expect [.symbol ";", .described "curly braces"]

def readTypeAlias (level : Level) : Parser Summary := do
  let shown ← Alias.read level false .beforeDefinition
  return if shown.defined && !shown.bounded then ⟨.typeAlias, some shown.name.span⟩ else unparsed

def readTraitFunction (level : Level) : Parser Unit := do
  let _ ← Signature.read level false
  let _ ← blockOrStop level

/-- An item of a trait. The answer tells whether it is kept as it is in the source. -/
def readTraitItem (level : Level) : Parser Bool := do
  let _ ← Attribute.readOuter level
  let visible ← Visibility.read
  let mayDefault ← keyword? "default"
  let odd := visible || mayDefault
  if (← peek (.word "fn")) || (← peek (Signature.ahead false)) then
    readTraitFunction level
    return odd
  else if ← peek (.word "const") then
    if ← peek (.second Constant.wordAhead) then
      let _ ← keyword "const"
      let (_, plain, _) ← Constant.readBehind level
      return odd || !plain
    else if ← peek (.second (.anyWordOf ["async", "unsafe", "extern"])) then
      readTraitFunction level
      return odd
    else
      let _ ← keyword "const"
      expect ([.described "identifier", .symbol "_"] ++ symbols ["async", "unsafe", "extern", "fn"])
  else if ← peek (.word "type") then
    let _ ← Alias.read level false .behindDefinition
    return odd
  else if !odd && (← peek Macro.ahead) then
    Macro.readItem
    return false
  else
    expect (symbols ["fn", "const", "type"] ++ if odd then [] else Macro.expectations)

def readTraitBody (level : Level) : Parser Unit := do
  let stop : Ahead := .any [.word "where", .group .brace]
  let _ ← Generics.unlessEmpty do
    if ← symbol? ":" then Bound.readUpTo level ⟨false, true⟩ stop else return []
  let _ ← Generics.readClause level
  inside .brace do
    let _ ← Attribute.readInner level
    let _ ← many do
      if ← atEnd then return none
      let _ ← verbatimIf (readTraitItem level) id
      return some ()

def readTraitAlias (level : Level) : Parser Unit := do
  let _ ← symbol "="
  let _ ← Bound.readUpTo level ⟨false, false⟩ (.any [.word "where", .symbol ";"])
  let _ ← Generics.readClause level
  let _ ← symbol ";"

/-- A trait, or another name for a sum of traits where `mayAlias` says so. -/
def readTrait (level : Level) (mayAlias : Bool) : Parser Summary := do
  let _ ← Visibility.read
  if !mayAlias then
    let _ ← keyword? "unsafe"
    let _ ← keyword? "auto"
  let _ ← keyword "trait"
  let name ← Parser.name
  let _ ← Generics.read level
  let summary : Summary := ⟨.trait, some name.span⟩
  if !mayAlias then
    readTraitBody level
    return summary
  else if ← peek (.any [.group .brace, .symbol ":", .word "where"]) then
    readTraitBody level
    return summary
  else if ← peek (.symbol "=") then
    readTraitAlias level
    return ⟨.traitAlias, none⟩
  else expect (.described "curly braces" :: symbols [":", "where", "="])

/-- An item of an extern block. The answer tells whether it is kept as it is in the source. -/
def readForeign (level : Level) : Parser Bool := do
  let _ ← Attribute.readOuter level
  let (isFunction, isStatic) ← lookahead do
    let _ ← Visibility.read
    let function ← peek (Signature.ahead true)
    let static ← peek (.word "static")
    let marked := (← peek (.anyWordOf ["unsafe", "safe"])) && (← peek (.second (.word "static")))
    return (function, static || marked)
  if isFunction then
    let _ ← Visibility.read
    let (_, isSafe) ← Signature.read level true
    if ← peek (.group .brace) then
      Generics.readBlock level
      return true
    let _ ← symbol ";"
    return isSafe
  else if isStatic then
    let _ ← Visibility.read
    let isUnsafe ← keyword? "unsafe"
    let isSafe ← if isUnsafe then pure false else keyword? "safe"
    let _ ← keyword "static"
    let _ ← keyword? "mut"
    let _ ← Parser.name
    let _ ← symbol ":"
    let _ ← level.type true true
    let valued ← symbol? "="
    if valued then
      let _ ← level.expression .anywhere
    let _ ← symbol ";"
    return isUnsafe || isSafe || valued
  else
    let (visible, isType) ← lookahead do
      let visible ← Visibility.read
      let isType ← peek (.word "type")
      if !isType && (visible || !(← peek Macro.ahead)) then
        expect (symbols ["fn", "static", "type"] ++ if visible then [] else Macro.expectations)
      return (visible, isType)
    if isType then
      let shown ← Alias.read level false .anywhere
      return shown.bounded || shown.defined
    else
      Macro.readItem
      return visible

def readExternBlock (level : Level) : Parser Summary := do
  let _ ← keyword? "unsafe"
  if !(← peek (.word "extern")) then
    let _ ← keyword "extern"
  TypeOutline.readOrigin
  inside .brace do
    let _ ← Attribute.readInner level
    let _ ← many do
      if ← atEnd then return none
      let _ ← verbatimIf (readForeign level) id
      return some ()
  return ⟨.externBlock, none⟩

def readCall : Parser Summary := do
  let _ ← Path.simple
  let _ ← symbol "!"
  if ← peek (.word "try") then
    let _ ← anyWord
  else if ← peek .name then
    let _ ← Parser.name
  let (delimiter, _, _) ← rawGroup
  if delimiter ≠ .brace then
    let _ ← symbol ";"
  return ⟨.call, none⟩

def skipGroup (delimiter : Delimiter) : Parser Unit :=
  inside delimiter (modify fun s => { s with tokens := [] })

def readMacroDefinition : Parser Summary := do
  let _ ← Visibility.read
  let _ ← keyword "macro"
  let _ ← Parser.name
  let parameters ← peek (.group .parenthesis)
  if parameters then skipGroup .parenthesis
  if ← peek (.group .brace) then
    skipGroup .brace
    return unparsed
  else if parameters then expectKind "curly braces"
  else expect [.described "parentheses", .described "curly braces"]

/-- The readers of items without parts, by what comes next behind the visibility. -/
inductive Choice where
  | summary (p : Parser Summary)
  | declaration
  | implementation

def externChoice (level : Level) (behind : List Token) : Parser Choice := do
  let text : Ahead := .literalIs fun l => l.string?.isSome
  if Ahead.word "crate" behind then return .summary readExternCrate
  else if Ahead.group .brace behind then return .summary (readExternBlock level)
  else if text behind then
    if Ahead.second (.group .brace) behind then return .summary (readExternBlock level)
    else
      let _ ← literal
      expectKind "curly braces"
  else expect [.symbol "crate", .described "curly braces", .described "string literal"]

/-- The words of which none comes next. One that comes next, but not with what has to follow it,
is not among the words that an error names. -/
def others (words : List String) (tokens : List Token) : List Expectation :=
  symbols (words.filter fun word => !Ahead.word word tokens)

def unsafeChoice (level : Level) (behind : List Token) : Parser Choice := do
  if Ahead.word "trait" behind || (Ahead.word "auto" behind && Ahead.second (.word "trait") behind)
  then return .summary (readTrait level false)
  else if Ahead.word "impl" behind then return .implementation
  else if Ahead.word "extern" behind then return .summary (readExternBlock level)
  else if Ahead.word "mod" behind then return .summary (readModule level)
  else expect (others ["trait", "auto", "impl", "extern", "mod"] behind)

def kinds : List String :=
  ["fn", "extern", "use", "static", "const", "unsafe", "mod", "type", "struct", "enum", "union",
    "trait", "auto", "impl", "default", "macro"]

/-- Which reader takes the item ahead, whose attributes are passed. -/
def choose (level : Level) : Parser Choice :=
  lookahead do
    let visible ← Visibility.read
    if ← peek (Signature.ahead false) then return .summary (readFunction level)
    else if ← keyword? "extern" then externChoice level (← get).tokens
    else if ← peek (.word "use") then return .summary readUse
    else if ← peek (.word "static") then return .summary (readStatic level)
    else if ← peek (.word "const") then return .summary (readConstant level)
    else if ← keyword? "unsafe" then unsafeChoice level (← get).tokens
    else if ← peek (.word "mod") then return .summary (readModule level)
    else if ← peek (.word "type") then return .summary (readTypeAlias level)
    else if ← peek (.anyWordOf ["struct", "enum"]) then return .declaration
    else if (← peek (.word "union")) && (← peek (.second .name)) then return .declaration
    else if ← peek (.word "trait") then return .summary (readTrait level true)
    else if (← peek (.word "auto")) && (← peek (.second (.word "trait"))) then
      return .summary (readTrait level false)
    else if ← peek (.word "impl") then return .implementation
    else if (← peek (.word "default")) && !(← peek (.second (.symbol "!"))) then
      return .implementation
    else if ← peek (.word "macro") then return .summary readMacroDefinition
    else if !visible && (← peek Macro.ahead) then return .summary readCall
    else
      let missing := others kinds (← get).tokens
      expect (missing ++ if visible then [] else Macro.expectations)

/-- Keeps the item's tokens, those of the source if it is of no plain form. -/
def readSummary (level : Level) (p : Parser Summary) : Parser Item := do
  let item : Parser Summary := do
    let _ ← Attribute.readOuter level
    p
  let (summary, tokens) ← capture (verbatimIf item fun s => s.kind = .unparsed)
  return .other summary.kind summary.name tokens

def readImplementation (level : Level) : Parser Item := do
  let block : Parser (Implementation × Bool) := do
    Implementation.readBehind level true (← Attribute.readOuter level)
  let ((parts, odd), tokens) ← capture (verbatimIf block Prod.snd)
  return if odd then .other .unparsed none tokens else .implementation parts

def readAny (level : Level) : Parser Item := do
  let choice : Choice ← lookahead do
    let _ ← Attribute.readOuter level
    choose level
  match choice with
  | .summary p => readSummary level p
  | .declaration => return .declaration (← Declaration.read level)
  | .implementation => readImplementation level

/-- An item. It has at least one token. -/
def read (level : Level) : Parser Item :=
  consuming (readAny level)

end Item

end Replica
