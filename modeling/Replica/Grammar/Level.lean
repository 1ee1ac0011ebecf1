import Replica.Grammar.Outline

/-!
The readers that need one another. A level holds one of each kind; the readers of the
next level are made from it, so that a construct nested to some depth is read from that
many levels.
-/

namespace Replica

structure Context where
  /-- In a condition a brace behind a path begins no literal. -/
  inCondition : Bool
  /-- A block that comes first would end a condition, and is printed in parentheses. -/
  guarded : Bool
  /-- The call of a macro in braces that comes first would end a statement, and is printed in
  parentheses if more follows it. -/
  leading : Bool

namespace Context

def anywhere : Context := ⟨false, false, false⟩

def condition : Context := ⟨true, false, false⟩

def statement : Context := ⟨false, false, true⟩

/-- The context of what does not come first. -/
def behind (context : Context) : Context := ⟨context.inCondition, false, false⟩

/-- The context of an operand that may be left out in front of a block. -/
def optional (context : Context) : Context := ⟨context.inCondition, context.inCondition, false⟩

/-- The context of a jump's value, which may be left out in front of a block. -/
def value (context : Context) : Context := ⟨false, context.inCondition, false⟩

end Context

structure Level where
  /-- A type; whether bounds may follow it, and whether a group takes arguments. -/
  type : (sum : Bool) → (arguments : Bool) → Parser TypeOutline
  /-- Arguments in angle brackets, which make a segment of a name. -/
  arguments : (name : String) → Parser SegmentOutline
  /-- The parameters that a bound or a type is quantified over. -/
  binder : Parser Unit
  expression : Context → Parser ExpressionOutline
  /-- An expression where a statement or an arm may end: behind a block of its own it goes on only
  with a member or a question mark. The tokens are printed in front of its first operand. -/
  early : Context → (front : List Token) → Parser ExpressionOutline
  /-- An operand with the operators in front of it. -/
  operand : Context → Parser ExpressionOutline
  /-- The operators of at least some strength behind an operand, `before` which other tokens
  were printed. -/
  operators : Context → (strength : Nat) → (before : List Token) → (left : ExpressionOutline) →
    Parser ExpressionOutline
  /-- A pattern; whether it may have alternatives. -/
  pattern : (alternatives : Bool) → Parser PatternOutline
  statements : Parser (List StatementOutline)
  item : Parser Unit

namespace Level

/-- The readers below all levels. -/
def exhausted : Level where
  type _ _ := Parser.refuse .exhausted
  arguments _ := Parser.refuse .exhausted
  binder := Parser.refuse .exhausted
  expression _ := Parser.refuse .exhausted
  early _ _ := Parser.refuse .exhausted
  operand _ := Parser.refuse .exhausted
  operators _ _ _ _ := Parser.refuse .exhausted
  pattern _ := Parser.refuse .exhausted
  statements := Parser.refuse .exhausted
  item := Parser.refuse .exhausted

end Level

end Replica
