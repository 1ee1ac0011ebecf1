import Replica.Class.Printer

/-!
A class as its user writes it: a declaration and the implementation blocks behind it.
-/

namespace Replica

structure ClassDefinition where
  declaration : Item
  blocks : List Implementation

namespace ClassDefinition

open Replica.Parser

/-- The blocks behind a declaration. Any other item is refused. -/
def readBlocks (level : Level) : (fuel : Nat) → Parser (List Implementation)
  | 0 => refuse .exhausted
  | fuel + 1 => do
    if ← atEnd then return []
    match ← Item.read level with
    | .implementation block => return block :: (← readBlocks level fuel)
    | item => failAt (Token.spanAll item.tokens) .notAnImplementation

def read (level : Level) : Parser ClassDefinition := do
  if ← atEnd then expectKind "a struct declaration"
  let declaration ← Item.read level
  return ⟨declaration, ← readBlocks level (Token.weightAll (← get).tokens + 1)⟩

def ofTokens (tokens : List Token) : Except Fault ClassDefinition :=
  Source.read read .origin tokens

def kindOf : ItemKind → NonClass
  | .trait => .trait
  | .typeAlias => .typeAlias
  | .function => .function
  | .module => .module
  | .constant => .constant
  | .static => .static
  | .use => .use
  | .call => .call
  | .externCrate => .externCrate
  | .externBlock => .externBlock
  | .traitAlias => .traitAlias
  | .unparsed => .other

/-- The declaration of a type, if the definition begins with one. -/
def typeDeclaration (definition : ClassDefinition) : Except Failure Declaration :=
  match definition.declaration with
  | .declaration d => .ok d
  | .implementation block =>
    .error (.notAClass .implementation (Token.spanAll block.tokens))
  | .other kind name tokens =>
    .error (.notAClass (kindOf kind) (name.getD (Token.spanAll tokens)))

/-- The expansion of the class, built by one of its own constructors. -/
def expand (definition : ClassDefinition) : Except Failure Expansion := do
  let shape ← Shape.ofDeclaration (← definition.typeDeclaration)
  let constructor ← Constructor.select shape definition.blocks
  return .byConstructor shape constructor

end ClassDefinition

namespace Field

def stripped (field : Field) : Field :=
  { field with attributes := Helper.strip field.attributes }

end Field

namespace Fields

def stripped : Fields → Fields
  | .named fields span =>
    .named (fields.map fun (field, followed) => (field.stripped, followed)) span
  | .positional fields span =>
    .positional (fields.map fun (field, followed) => (field.stripped, followed)) span
  | .unit => .unit

end Fields

namespace Declaration

/-- The declaration without the helper attributes of the type and of the fields of a struct. -/
def stripped (d : Declaration) : Declaration :=
  { d with
    attributes := Helper.strip d.attributes
    body := match d.body with
      | .struct fields => .struct fields.stripped
      | body => body }

end Declaration

namespace Item

def stripped : Item → Item
  | .declaration d => .declaration d.stripped
  | item => item

end Item

namespace Associated

/-- An item without the helper attributes of a function. -/
def stripped : Associated → Associated
  | .function f => .function { f with attributes := Helper.strip f.attributes }
  | item => item

end Associated

namespace Implementation

def stripped (block : Implementation) : Implementation :=
  { block with items := block.items.map Associated.stripped }

end Implementation

namespace ClassDefinition

/-- The definition without the helper attributes, as it is written out again. -/
def stripped (definition : ClassDefinition) : ClassDefinition :=
  ⟨definition.declaration.stripped, definition.blocks.map Implementation.stripped⟩

def tokens (definition : ClassDefinition) : List Token :=
  definition.declaration.tokens ++ definition.blocks.flatMap Implementation.tokens

/-- The items of the user as they are written out again. -/
def userItems (definition : ClassDefinition) : List Token :=
  definition.stripped.tokens

/-- The items of the user, and behind them what is generated or the report of a failure. -/
def output (definition : ClassDefinition) : List Token :=
  definition.userItems ++ outcomeTokens definition.expand

end ClassDefinition

namespace Declaration

/-- What is generated for a declaration without blocks behind it, built from its fields. -/
def derived (d : Declaration) : List Token :=
  outcomeTokens (Expansion.derive d)

end Declaration

end Replica
