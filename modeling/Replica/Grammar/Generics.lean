import Replica.Grammar.Bound

/-!
Parameters of generic declarations, and the clauses that restrict them. Lifetimes are
printed in front of the other parameters.
-/

namespace Replica

namespace Generics

open Replica.Parser

def empty : Generics := ⟨[], none⟩

def readBlock (level : Level) : Parser Unit :=
  inside .brace do
    let _ ← Attribute.readInner level
    let _ ← level.statements

/-- A constant as an argument: a literal, a name or a block. -/
def readConstant (level : Level) : Parser Unit := do
  if ← peek .literal then
    let _ ← literal
  else if ← peek .name then
    let _ ← name
  else if ← peek (.group .brace) then readBlock level
  else
    match (← get).tokens with
    | token :: _ => failAt token.span (.expected [])
    | [] => refuse (.expected [])

/-- What `p` prints, unless `p` found nothing: then nothing is printed. -/
def unlessEmpty {α : Type} (p : Parser (List α)) : Parser (List Token) := do
  let (list, shown) ← withhold p
  let shown := if list.isEmpty then [] else shown
  print shown
  return shown

def readLifetimeBounds (stop : Ahead) : Parser (List Token) :=
  unlessEmpty do
    if ← symbol? ":" then chain "+" stop lifetime else return []

def readTypeBounds (level : Level) : Parser (List Token) :=
  unlessEmpty do
    if ← symbol? ":" then
      chain "+" (.any [.symbol ",", .symbol ">", .symbol "="]) (Bound.read level ⟨false, true⟩)
    else return []

/-- A parameter of which kind and attributes are known. -/
def readParameter (level : Level) (kind : ParameterKind) (attributes : List Token) :
    Parser GenericParameter := do
  match kind with
  | .lifetime =>
    let (_, name) ← capture lifetime
    let bounds ← readLifetimeBounds (.any [.ended, .symbol ",", .symbol ">"])
    return ⟨kind, attributes, [], name, bounds, []⟩
  | .type =>
    let (_, name) ← capture Parser.name
    let bounds ← readTypeBounds level
    let (_, default) ← capture do
      if ← symbol? "=" then
        let _ ← level.type true true
    return ⟨kind, attributes, [], name, bounds, default⟩
  | .constant =>
    let (_, head) ← capture (keyword "const")
    let (_, name) ← capture Parser.name
    let (_, bounds) ← capture do
      let _ ← symbol ":"
      level.type true true
    let (_, default) ← capture do
      if ← symbol? "=" then readConstant level
    return ⟨kind, attributes, head, name, bounds, default⟩

def readBinder (level : Level) : Parser Unit := do
  let _ ← keyword "for"
  let _ ← symbol "<"
  let _ ← upTo ">" do
    let (_, attributes) ← capture (Attribute.readOuter level)
    if ← peek .name then readParameter level .type attributes
    else if ← peek .lifetime then readParameter level .lifetime attributes
    else if ← peek (.word "const") then readParameter level .constant attributes
    else expect [.described "identifier", .described "lifetime", .symbol "const"]
  let _ ← symbol ">"

def readListed (level : Level) : Parser GenericParameter := do
  let (_, attributes) ← capture (Attribute.readOuter level)
  if ← peek .lifetime then readParameter level .lifetime attributes
  else if ← peek .name then readParameter level .type attributes
  else if ← peek (.word "const") then readParameter level .constant attributes
  else if ← peek (.word "_") then
    let (_, name) ← capture anyWord
    return ⟨.type, attributes, [], name, [], []⟩
  else expect [.described "lifetime", .described "identifier", .symbol "const"]

def isLifetime (parameter : GenericParameter) : Bool :=
  parameter.kind = .lifetime

/-- The parameters in angle brackets, each as `shown` says, lifetimes first. Without
parameters there are no brackets. -/
def angled (shown : GenericParameter → List Token) (generics : Generics) : List Token :=
  if generics.parameters.isEmpty then []
  else
    .mark '<' false .origin ::
      Bound.lifetimesFirst isLifetime shown generics.parameters ++ [.mark '>' false .origin]

def parameterTokens (parameter : GenericParameter) : List Token :=
  parameter.attributes ++ parameter.head ++ parameter.name ++ parameter.bounds ++ parameter.default

def declared (generics : Generics) : List Token :=
  generics.angled parameterTokens

/-- The parameters as another declaration repeats them, without their defaults. -/
def header (generics : Generics) : List Token :=
  generics.angled fun p => p.attributes ++ p.head ++ p.name ++ p.bounds

def arguments (generics : Generics) : List Token :=
  generics.angled GenericParameter.name

def clauseTokens : Option (Separated (List Token)) → List Token
  | none => []
  | some predicates =>
    if predicates.isEmpty then []
    else .word "where" .origin :: predicates.tokens ',' id

def read (level : Level) : Parser Generics := do
  if ← peek (.symbol "<") then
    let list : Parser Generics := do
      let _ ← symbol "<"
      let parameters ← upTo ">" (readListed level)
      let _ ← symbol ">"
      return ⟨parameters, none⟩
    retold list declared
  else return empty

/-- An angle bracket opens parameters, and not a path that a type qualifies. -/
def ahead : Ahead := fun tokens =>
  let third := Ahead.any [.symbol ",", .symbol ">", .symbol "="]
  Ahead.symbol "<" tokens &&
    (Ahead.second (.any [.symbol ">", .symbol "#", .word "const"]) tokens ||
      (Ahead.second (.any [.lifetime, .name]) tokens &&
        (Ahead.third third tokens ||
          (Ahead.third (.symbol ":") tokens && !Ahead.third (.symbol "::") tokens))))

def clauseStop : Ahead := fun tokens =>
  Ahead.any [.ended, .group .brace, .symbol ",", .symbol ";", .symbol "="] tokens ||
    (Ahead.symbol ":" tokens && !Ahead.symbol "::" tokens)

/-- What ends the lifetimes that a lifetime has to outlive. -/
def lifetimeStop : Ahead :=
  .any [.ended, .group .brace, .symbol ",", .symbol ";", .symbol ":", .symbol "="]

def readPredicate (level : Level) : Parser (List Token) := do
  let (_, tokens) ← capture do
    if (← peek .lifetime) && (← peek (.second (.symbol ":"))) then
      let _ ← lifetime
      let _ ← symbol ":"
      let _ ← chain "+" lifetimeStop lifetime
    else
      if ← peek (.word "for") then level.binder
      let _ ← level.type true true
      let _ ← symbol ":"
      let _ ← chain "+" clauseStop (Bound.read level ⟨false, true⟩)
  return tokens

/-- The clause behind `where`. Without predicates it is not printed. -/
def readClause (level : Level) : Parser (Option (Separated (List Token))) := do
  if ← peek (.word "where") then
    let clause : Parser (Option (Separated (List Token))) := do
      let _ ← keyword "where"
      if ← peek ahead then refuse .clauseParameters
      return some (← chain "," clauseStop (readPredicate level))
    retold clause clauseTokens
  else return none

end Generics

end Replica
