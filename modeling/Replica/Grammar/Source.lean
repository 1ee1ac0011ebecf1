import Replica.Grammar.Item
import Replica.Token.Lexer

/-!
Readers of whole token lists.
-/

namespace Replica

namespace Level

open Replica.Parser

/-- The readers of the level above `level`. -/
def next (level : Level) : Level where
  type := TypeOutline.read level
  arguments := Argument.readAll level
  binder := Generics.readBinder level
  expression := ExpressionOutline.read level
  early := ExpressionOutline.readEarly level
  operand := ExpressionOutline.readOperand level
  operators := ExpressionOutline.readOperators level
  pattern := PatternOutline.read level
  statements := StatementOutline.readAll level
  item := do
    let _ ← Item.read level

def height : Nat → Level
  | 0 => exhausted
  | n + 1 => next (height n)

/-- Levels for all that is nested in so many tokens. Between two levels that read no token
there are at most three others. -/
def forWeight (weight : Nat) : Level :=
  height (4 * weight + 16)

end Level

namespace Source

variable {α : Type}

/-- Gives a reader enough levels for the tokens in front of it. -/
def leveled (p : Level → Parser α) : Parser α := do
  p (Level.forWeight (Token.weightAll (← get).tokens))

/-- Reads a whole list of tokens. Errors at its end point to `scope`. -/
def read (p : Level → Parser α) (scope : Span) (tokens : List Token) : Except Fault α :=
  (leveled p).run scope tokens

/-- The tokens of a source text, with invisible groups where they are marked. -/
def tokens? (text : String) : Option (List Token) :=
  (Token.ofText? text).map Token.hideAll

def attributes (tokens : List Token) : Except Fault (List Attribute) :=
  read Attribute.readOuter .origin tokens

def declaration (tokens : List Token) : Except Fault Declaration :=
  read Declaration.read .origin tokens

/-- The declaration of a type, and implementation blocks of the plain form behind it. -/
def declarationWithBlocks (tokens : List Token) :
    Except Fault (Declaration × List Implementation) :=
  read withBlocks .origin tokens
where
  withBlocks (level : Level) : Parser (Declaration × List Implementation) := do
    let declaration ← Declaration.read level
    let blocks ← Parser.many do
      if ← Parser.atEnd then return none
      return some (← Implementation.read level)
    return (declaration, blocks)

end Source

end Replica
