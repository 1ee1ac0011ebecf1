import Replica.Grammar.Parser

/-!
Members of a value: names, and numbers that count positions. A position is printed in
decimal digits.
-/

namespace Replica

inductive Member where
  | named
  | position
deriving DecidableEq

namespace Member

open Replica.Parser

def maximum : Nat := Nat.pow 2 32 - 1

def index (integer : Literal.Integer) (span : Span) : Parser Nat := do
  if integer.suffix ≠ "" then failAt span .suffixedIndex
  if integer.negative then failAt span .indexNotDigits
  if maximum < integer.value then failAt span .indexTooLarge
  return integer.value

def indexToken (value : Nat) (span : Span) : Token :=
  .literal (toString value) span

def readIndex : Parser Unit := do
  let (literal, _) ← withhold literal
  match literal.integer? with
  | some integer => print [indexToken (← index integer literal.span) literal.span]
  | none => failAt literal.span (.expected [.described "integer literal"])

def integerAhead : Ahead :=
  .literalIs fun literal => literal.integer?.isSome

def read : Parser Member := do
  if ← peek .name then
    let _ ← name
    return .named
  else if ← peek integerAhead then
    readIndex
    return .position
  else expect [.described "identifier", .described "integer"]

/-- The parts of a number with a point, which stands for several positions in a row. -/
def printPositions (span : Span) : List String → Parser Unit
  | [] => return
  | part :: parts => do
    match (Literal.mk part span).integer? with
    | some integer =>
      print [indexToken (← index integer span) span]
      if !parts.isEmpty then print [.mark '.' false span]
      printPositions span parts
    | none => failAt span (.expected [.described "integer literal"])

/-- Positions that are written as one number behind a point. The answer tells whether the
number ends with a point, behind which a member has to follow. -/
def readPositions : Parser Bool := do
  let (literal, _) ← withhold literal
  let parts := literal.text.splitOn "."
  let pending := parts.getLast? = some ""
  printPositions literal.span (if pending then parts.dropLast else parts)
  if pending then print [.mark '.' false literal.span]
  return pending

end Member

end Replica
