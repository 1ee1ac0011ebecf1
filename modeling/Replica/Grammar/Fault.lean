import Replica.Token.Basic

/-!
Why a source text is refused: a cause, its place, and whether the reader stood at the
end of a group or of the whole text.
-/

namespace Replica

/-- Something that could have come next: a symbol, shown in quotes, or a kind of thing. -/
inductive Expectation where
  | symbol (text : String)
  | described (text : String)
deriving DecidableEq, Repr

namespace Expectation

def message : Expectation → String
  | .symbol text => "`" ++ text ++ "`"
  | .described text => text

end Expectation

inductive Cause where
  | expected (alternatives : List Expectation)
  | keyword (word : String)
  | leftover (enclosing : Delimiter)
  | unfinishedStatement
  | receiver
  | secondReceiver
  | literalEntry
  | symbolicEntry
  | attributeValue
  | noObjectTrait
  | noTrait
  | notAllowed (construct : String)
  | capture
  | binderWithPolarity
  | negativeInherent
  | castFollowed (what : String)
  | chainedComparison
  | openRangeInSlice
  | attributesOnRange
  | labelNeedsParentheses
  | suffixedIndex
  | indexTooLarge
  | indexNotDigits
  | clauseParameters
  | notAnImplementation
  | notTokens
  | exhausted
deriving DecidableEq, Repr

namespace Cause

def expectedMessage : List Expectation → String
  | [] => "unexpected token"
  | [only] => "expected " ++ only.message
  | [first, second] => "expected " ++ first.message ++ " or " ++ second.message
  | alternatives => "expected one of: " ++ ", ".intercalate (alternatives.map Expectation.message)

def message : Cause → String
  | .expected alternatives => expectedMessage alternatives
  | .keyword word => "expected identifier, found keyword `" ++ word ++ "`"
  | .leftover .parenthesis => "unexpected token, expected `)`"
  | .leftover .brace => "unexpected token, expected `\x7d`"
  | .leftover .bracket => "unexpected token, expected `]`"
  | .leftover .invisible => "unexpected token"
  | .unfinishedStatement => "unexpected token, expected `;`"
  | .receiver => "unexpected method receiver"
  | .secondReceiver => "unexpected second method receiver"
  | .literalEntry => "unexpected literal in nested attribute, expected ident"
  | .symbolicEntry => "unexpected token in nested attribute, expected ident"
  | .attributeValue => "unexpected attribute inside of attribute"
  | .noObjectTrait => "at least one trait is required for an object type"
  | .noTrait => "at least one trait must be specified"
  | .notAllowed construct => "`" ++ construct ++ "` is not allowed here"
  | .capture => "`use<...>` precise capturing syntax is not allowed here"
  | .binderWithPolarity => "`for<...>` binder not allowed with `?` trait polarity modifier"
  | .negativeInherent => "inherent impls cannot be negative"
  | .castFollowed what => "casts cannot be followed by " ++ what
  | .chainedComparison => "comparison operators cannot be chained"
  | .openRangeInSlice =>
    "range pattern is not allowed unparenthesized inside slice pattern"
  | .attributesOnRange =>
    "attributes are not allowed on range expressions starting with `..`"
  | .labelNeedsParentheses => "parentheses required"
  | .suffixedIndex => "expected unsuffixed integer"
  | .indexTooLarge => "number too large to fit in target type"
  | .indexNotDigits => "invalid digit found in string"
  | .clauseParameters =>
    "generic parameters on `where` clauses are reserved for future use"
  | .notAnImplementation => "only impl blocks may follow the declaration"
  | .notTokens => "cannot parse string into token stream"
  | .exhausted => "the reader gave up"

end Cause

structure Fault where
  cause : Cause
  atEnd : Bool
  span : Span
deriving DecidableEq, Repr

namespace Fault

def message (fault : Fault) : String :=
  if fault.atEnd then
    if fault.cause = .expected [] then "unexpected end of input"
    else "unexpected end of input, " ++ fault.cause.message
  else fault.cause.message

end Fault

end Replica
