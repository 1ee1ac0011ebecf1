import Replica.Grammar.Signature

/-!
Declarations of types: structs, enums and unions. They are kept in parts, so that
attributes can be taken off them.
-/

namespace Replica

structure Field where
  attributes : List Attribute
  visibility : List Token
  name : Option Name
  type : TypeText

inductive Fields where
  | named (fields : Separated Field) (span : Span)
  | positional (fields : Separated Field) (span : Span)
  | unit

structure Variant where
  attributes : List Attribute
  name : Name
  fields : Fields
  discriminant : List Token

inductive Body where
  | struct (fields : Fields)
  | enumeration (variants : Separated Variant) (span : Span)
  | union (fields : Fields)

structure Declaration where
  attributes : List Attribute
  /-- The visibility and the word that tells the kind. -/
  head : List Token
  name : Name
  generics : Generics
  body : Body
  /-- The semicolon of a struct without named fields. -/
  stop : List Token

namespace Field

open Replica.Parser

/-- A type without a name: the fields of a nested struct or union, kept as they are. -/
def nestedAhead : Ahead := fun tokens =>
  Ahead.word "struct" tokens || (Ahead.word "union" tokens && Ahead.second (.group .brace) tokens)

def tokens (field : Field) : List Token :=
  Attribute.tokensOf field.attributes ++ field.visibility ++
    (match field.name with
    | some name => [name.token, .mark ':' false .origin]
    | none => []) ++
    field.type.tokens

def readPositional (level : Level) : Parser Field := do
  let attributes ← Attribute.readOuter level
  let (_, visibility) ← capture Visibility.read
  return ⟨attributes, visibility, none, ← TypeText.read level⟩

def readNamedWith (level : Level) (nested : Parser Unit) : Parser Field := do
  let attributes ← Attribute.readOuter level
  let (_, visibility) ← capture Visibility.read
  let unnamed ← peek (.word "_")
  let name ← if unnamed then anyWord else Parser.name
  let _ ← symbol ":"
  if unnamed && (← peek nestedAhead) then
    let (_, tokens) ← capture do
      verbatim do
        let _ ← anyWord
        nested
    return ⟨attributes, visibility, some name, ⟨.other, tokens⟩⟩
  else return ⟨attributes, visibility, some name, ← TypeText.read level⟩

/-- A group of named fields. Fields that are nested in it are read from as many levels as
`fuel` says. -/
def readNamedGroup (level : Level) : (fuel : Nat) → Parser (Separated Field)
  | 0 => refuse .exhausted
  | fuel + 1 => inside .brace do
    separated "," (readNamedWith level do
      let _ ← readNamedGroup level fuel)

end Field

namespace Fields

open Replica.Parser

def tokens : Fields → List Token
  | .named fields span => [.group .brace (fields.tokens ',' Field.tokens) span]
  | .positional fields span => [.group .parenthesis (fields.tokens ',' Field.tokens) span]
  | .unit => []

def toList : Fields → List Field
  | .named fields _ => fields.items
  | .positional fields _ => fields.items
  | .unit => []

def readNamed (level : Level) : Parser Fields := do
  let span ← spanAhead
  return .named (← Field.readNamedGroup level (Token.weightAll (← get).tokens + 1)) span

def readPositional (level : Level) : Parser Fields := do
  let span ← spanAhead
  return .positional (← inside .parenthesis (separated "," (Field.readPositional level))) span

end Fields

namespace Variant

open Replica.Parser

def tokens (variant : Variant) : List Token :=
  Attribute.tokensOf variant.attributes ++ variant.name.token :: variant.fields.tokens ++
    variant.discriminant

/-- A variant. A visibility in front of it is not printed. -/
def read (level : Level) : Parser Variant := do
  let attributes ← Attribute.readOuter level
  let _ ← unprinted Visibility.read
  let name ← Parser.name
  let fields ←
    if ← peek (.group .brace) then Fields.readNamed level
    else if ← peek (.group .parenthesis) then Fields.readPositional level
    else pure .unit
  let (_, discriminant) ← capture do
    if ← symbol? "=" then
      let _ ← level.expression .anywhere
  return ⟨attributes, name, fields, discriminant⟩

end Variant

namespace Declaration

open Replica.Parser

def clauseTokens (declaration : Declaration) : List Token :=
  Generics.clauseTokens declaration.generics.clause

/-- The printed form. The clause stands in front of braces and behind parentheses. -/
def tokens (d : Declaration) : List Token :=
  Attribute.tokensOf d.attributes ++ d.head ++ d.name.token :: d.generics.declared ++
    (match d.body with
    | .struct (.positional fields span) =>
      (Fields.positional fields span).tokens ++ d.clauseTokens
    | .struct fields => d.clauseTokens ++ fields.tokens
    | .enumeration variants span =>
      d.clauseTokens ++ [.group .brace (variants.tokens ',' Variant.tokens) span]
    | .union fields => d.clauseTokens ++ fields.tokens) ++
    d.stop

def readStop : Parser (List Token) := do
  let (_, tokens) ← capture (symbol ";")
  return tokens

/-- What follows the name and the parameters of a struct. -/
def readStruct (level : Level) :
    Parser (Option (Separated (List Token)) × Fields × List Token) := do
  let clause ← Generics.readClause level
  if clause.isNone && (← peek (.group .parenthesis)) then
    let fields ← Fields.readPositional level
    let clause ← Generics.readClause level
    if ← peek (.symbol ";") then return (clause, fields, ← readStop)
    else if clause.isNone then expect (symbols ["where", ";"])
    else expect (symbols [";"])
  else if ← peek (.group .brace) then return (clause, ← Fields.readNamed level, [])
  else if ← peek (.symbol ";") then return (clause, .unit, ← readStop)
  else if clause.isNone then
    expect [.symbol "where", .described "parentheses", .described "curly braces", .symbol ";"]
  else expect [.described "curly braces", .symbol ";"]

def readBody (level : Level) (kind : String) :
    Parser (Option (Separated (List Token)) × Body × List Token) := do
  if kind = "struct" then
    let (clause, fields, stop) ← readStruct level
    return (clause, .struct fields, stop)
  else
    let clause ← Generics.readClause level
    if kind = "enum" then
      let span ← spanAhead
      let variants ← inside .brace (separated "," (Variant.read level))
      return (clause, .enumeration variants span, [])
    else return (clause, .union (← Fields.readNamed level), [])

def kinds : List String := ["struct", "enum", "union"]

def readBehind (level : Level) (attributes : List Attribute) : Parser Declaration := do
  let (kind, head) ← capture do
    let _ ← Visibility.read
    if ← peek (.anyWordOf kinds) then anyWord else expect (symbols kinds)
  let name ← Parser.name
  let generics ← Generics.read level
  let (clause, body, stop) ← readBody level kind.text
  return ⟨attributes, head, name, { generics with clause }, body, stop⟩

/-- A declaration of a type, and nothing else. -/
def read (level : Level) : Parser Declaration := do
  readBehind level (← Attribute.readOuter level)

end Declaration

end Replica
