import Replica.Proofs.Grammar.Progress

/-!
No reader of the grammar gives tokens back, if the readers one level below give none back. There is one instance for
each reader that is called outside of groups: a group is passed as a whole, and nothing has to be known of what is read
in it. Most instances are found from the way the reader is put together; where a reader goes on by what it has read, its
cases are told apart first.
-/

-- The longest reader chooses between more than twenty forms, and its instance has a part for each of them.
set_option synthInstance.maxSize 2000

namespace Replica

open Replica.Parser

/-- The readers of the level give no tokens back. Left out are those that are called inside groups only. -/
class Level.Shrinks (level : Level) : Prop where
  type : ∀ sum arguments, Parser.Shrinks (level.type sum arguments)
  arguments : ∀ name, Parser.Shrinks (level.arguments name)
  binder : Parser.Shrinks level.binder
  expression : ∀ context, Parser.Shrinks (level.expression context)
  operand : ∀ context, Parser.Shrinks (level.operand context)
  operators : ∀ context strength before left, Parser.Shrinks (level.operators context strength before left)
  pattern : ∀ alternatives, Parser.Shrinks (level.pattern alternatives)

attribute [instance] Level.Shrinks.type Level.Shrinks.arguments Level.Shrinks.binder Level.Shrinks.expression
  Level.Shrinks.operand Level.Shrinks.operators Level.Shrinks.pattern

variable {level : Level}

namespace Attribute

variable {inner : Bool}

instance shrinks_read : Shrinks (read level inner) := by
  unfold read
  infer_instance

instance shrinks_readOuter : Shrinks (readOuter level) := by
  unfold readOuter
  infer_instance

end Attribute

variable [level.Shrinks]

namespace Path

variable {expression sum : Bool}

instance shrinks_segment : Shrinks (segment level expression) := by
  unfold segment
  infer_instance

instance shrinks_more : Shrinks (more level expression) := by
  unfold more
  infer_instance

instance shrinks_plain : Shrinks (plain level expression) := by
  unfold plain
  infer_instance

instance shrinks_simpleSegment : Shrinks simpleSegment := by
  unfold simpleSegment
  infer_instance

instance shrinks_simple : Shrinks simple := by
  unfold simple
  infer_instance

instance shrinks_qualified : Shrinks (qualified level expression) := by
  unfold qualified
  refine shrinks_bind fun seen => shrinks_branch ?_ inferInstance
  refine shrinks_bind fun _ => shrinks_bind fun type => shrinks_bind fun again => ?_
  extract_lets behind
  have shrinksBehind : ∀ bound, Shrinks (behind bound) := by
    intro bound
    refine shrinks_bind fun _ => shrinks_bind fun _ => shrinks_bind fun _ => shrinks_bind fun _ => ?_
    cases bound <;> infer_instance
  exact shrinks_branch (shrinks_bind shrinksBehind) (shrinks_bind shrinksBehind)

instance shrinks_result : Shrinks (result level sum) := by
  unfold result
  infer_instance

instance shrinks_callArguments : Shrinks (callArguments level) := by
  unfold callArguments
  infer_instance

end Path

namespace Builtin

instance shrinks_read : Shrinks read := by
  unfold read
  infer_instance

end Builtin

namespace Bound

variable {places : Places} {stop : Ahead}

instance shrinks_readCaptured : Shrinks readCaptured := by
  unfold readCaptured
  infer_instance

instance shrinks_readCaptures : Shrinks readCaptures := by
  unfold readCaptures
  infer_instance

instance shrinks_readPath : Shrinks (readPath level) := by
  unfold readPath
  infer_instance

instance shrinks_readTrait : Shrinks (readTrait level places) := by
  unfold readTrait
  infer_instance

instance shrinks_read : Shrinks (read level places) := by
  unfold read
  refine shrinks_bind fun isLifetime => shrinks_branch inferInstance ?_
  refine shrinks_bind fun isCapture => shrinks_branch ?_ inferInstance
  refine shrinks_bind fun bound => ?_
  cases bound <;> infer_instance

instance shrinks_readUpTo : Shrinks (readUpTo level places stop) := by
  unfold readUpTo
  infer_instance

end Bound

namespace Generics

variable {stop : Ahead} {kind : ParameterKind} {attributes : List Token}

instance shrinks_readBlock : Shrinks (readBlock level) := by
  unfold readBlock
  infer_instance

instance shrinks_readConstant : Shrinks (readConstant level) := by
  unfold readConstant
  refine shrinks_bind fun isLiteral => shrinks_branch inferInstance ?_
  refine shrinks_bind fun isName => shrinks_branch inferInstance ?_
  refine shrinks_bind fun isBlock => shrinks_branch inferInstance (shrinks_bind fun s => ?_)
  split <;> infer_instance

instance shrinks_unlessEmpty {α : Type} {p : Parser (List α)} [Shrinks p] : Shrinks (unlessEmpty p) := by
  unfold unlessEmpty
  infer_instance

instance shrinks_readLifetimeBounds : Shrinks (readLifetimeBounds stop) := by
  unfold readLifetimeBounds
  infer_instance

instance shrinks_readTypeBounds : Shrinks (readTypeBounds level) := by
  unfold readTypeBounds
  infer_instance

instance shrinks_readParameter : Shrinks (readParameter level kind attributes) := by
  unfold readParameter
  cases kind <;> infer_instance

instance shrinks_readBinder : Shrinks (readBinder level) := by
  unfold readBinder
  infer_instance

instance shrinks_readListed : Shrinks (readListed level) := by
  unfold readListed
  infer_instance

instance shrinks_read : Shrinks (read level) := by
  unfold read
  infer_instance

instance shrinks_readPredicate : Shrinks (readPredicate level) := by
  unfold readPredicate
  infer_instance

instance shrinks_readClause : Shrinks (readClause level) := by
  unfold readClause
  infer_instance

end Generics

namespace Argument

variable {name : String}

instance shrinks_readOther : Shrinks (readOther level) := by
  unfold readOther
  infer_instance

instance shrinks_read : Shrinks (read level) := by
  unfold read
  infer_instance

instance shrinks_readAll : Shrinks (readAll level name) := by
  unfold readAll
  infer_instance

end Argument

namespace TypeOutline

variable {places : Bound.Places} {sum bare quantified arguments : Bool} {start : Span} {bounds : List Bound}
  {cause : Cause} {segments : List SegmentOutline}

instance shrinks_readMoreBounds : Shrinks (readMoreBounds level places) := by
  unfold readMoreBounds
  infer_instance

instance shrinks_readBounds : Shrinks (readBounds level sum places) := by
  unfold readBounds
  infer_instance

instance shrinks_requireTrait : Shrinks (requireTrait start bounds cause) := by
  unfold requireTrait
  refine shrinks_branch inferInstance ?_
  split <;> infer_instance

instance shrinks_readObjectBounds : Shrinks (readObjectBounds level start sum) := by
  unfold readObjectBounds
  infer_instance

instance shrinks_readObject : Shrinks (readObject level sum) := by
  unfold readObject
  infer_instance

instance shrinks_readDynamic : Shrinks (readDynamic level sum) := by
  unfold readDynamic
  infer_instance

instance shrinks_readOpaque : Shrinks (readOpaque level sum) := by
  unfold readOpaque
  infer_instance

instance shrinks_readPointer : Shrinks (readPointer level) := by
  unfold readPointer
  infer_instance

instance shrinks_readReference : Shrinks (readReference level) := by
  unfold readReference
  infer_instance

instance shrinks_readArray : Shrinks (readArray level) := by
  unfold readArray
  infer_instance

instance shrinks_readOrigin : Shrinks readOrigin := by
  unfold readOrigin
  infer_instance

instance shrinks_readFunction : Shrinks (readFunction level) := by
  unfold readFunction
  infer_instance

instance shrinks_readBoundsBehind : Shrinks (readBoundsBehind level bare) := by
  unfold readBoundsBehind
  infer_instance

instance shrinks_mergeParentheses : Shrinks mergeParentheses := by
  refine shrinks_modify fun s => ?_
  split <;> exact Nat.le_refl _

instance shrinks_readParenthesized : Shrinks (readParenthesized level sum) := by
  refine shrinks_insideThen fun enclosed => ?_
  cases enclosed <;> infer_instance

instance shrinks_readPath : Shrinks (readPath level quantified sum) := by
  unfold readPath
  infer_instance

instance shrinks_readLastArguments : Shrinks (readLastArguments level segments) := by
  induction segments with
  | nil => exact shrinks_pure
  | cons segment rest ih =>
      cases rest <;> unfold readLastArguments <;> infer_instance

instance shrinks_readGrouped : Shrinks (readGrouped level arguments) := by
  unfold readGrouped
  refine shrinks_bind fun group => ?_
  obtain ⟨outline, inner, shown⟩ := group
  refine shrinks_bind fun double => shrinks_bind fun wordBehind => shrinks_branch ?_ ?_
  · cases outline <;> infer_instance
  · refine shrinks_bind fun bracket => shrinks_bind fun bracketBehind => shrinks_branch ?_ inferInstance
    cases outline <;> infer_instance

instance shrinks_read : Shrinks (read level sum arguments) := by
  unfold read
  refine shrinks_bind fun grouped => shrinks_branch inferInstance ?_
  refine shrinks_bind fun quantified => shrinks_bind fun binder => ?_
  obtain ⟨_, parameters⟩ := binder
  dsimp -zeta only
  extract_lets behind
  have shrinksBehind : ∀ answer, Shrinks (behind answer) := by
    intro answer
    refine shrinks_bind fun parenthesized => shrinks_branch inferInstance ?_
    refine shrinks_bind fun function => shrinks_branch inferInstance ?_
    refine shrinks_bind fun builtin => shrinks_branch inferInstance ?_
    refine shrinks_bind fun path => shrinks_branch ?_ inferInstance
    refine shrinks_bind fun answer => ?_
    obtain ⟨outline, shown⟩ := answer
    cases outline <;> infer_instance
  clear_value behind
  infer_instance

end TypeOutline

namespace TypeText

instance shrinks_read : Shrinks (read level) := by
  unfold read
  infer_instance

end TypeText

namespace Member

variable {integer : Literal.Integer} {span : Span} {parts : List String}

instance shrinks_index : Shrinks (index integer span) := by
  unfold index
  infer_instance

instance shrinks_readIndex : Shrinks readIndex := by
  unfold readIndex
  refine shrinks_bind fun answer => ?_
  obtain ⟨literal, shown⟩ := answer
  simp only
  split <;> infer_instance

instance shrinks_read : Shrinks read := by
  unfold read
  infer_instance

instance shrinks_printPositions : Shrinks (printPositions span parts) := by
  induction parts with
  | nil => exact shrinks_pure
  | cons part parts ih =>
      unfold printPositions
      split <;> infer_instance

instance shrinks_readPositions : Shrinks readPositions := by
  unfold readPositions
  infer_instance

end Member

namespace PatternOutline

variable {old alternatives : Bool}

instance shrinks_readLimits : Shrinks (readLimits old) := by
  unfold readLimits
  infer_instance

instance shrinks_readConstantBlock : Shrinks (readConstantBlock level) := by
  unfold readConstantBlock
  infer_instance

instance shrinks_readBound : Shrinks (readBound level) := by
  unfold readBound
  infer_instance

instance shrinks_readRange : Shrinks (readRange level) := by
  unfold readRange
  infer_instance

instance shrinks_readOpenRange : Shrinks (readOpenRange level) := by
  unfold readOpenRange
  infer_instance

instance shrinks_readConstant : Shrinks (readConstant level) := by
  unfold readConstant
  infer_instance

instance shrinks_readPath : Shrinks (readPath level) := by
  unfold readPath
  infer_instance

instance shrinks_readName : Shrinks (readName level) := by
  unfold readName
  infer_instance

instance shrinks_readReference : Shrinks (readReference level) := by
  unfold readReference
  infer_instance

instance shrinks_readTuple : Shrinks (readTuple level) := by
  unfold readTuple
  refine shrinks_bind fun elements => ?_
  split <;> infer_instance

instance shrinks_readSlice : Shrinks (readSlice level) := by
  unfold readSlice
  infer_instance

instance shrinks_readSingle : Shrinks (readSingle level) := by
  unfold readSingle
  infer_instance

instance shrinks_read : Shrinks (read level alternatives) := by
  unfold read
  infer_instance

end PatternOutline

namespace ExpressionOutline

variable {context : Context} {strength : Strength} {before : List Token} {fuel base : Nat}
  {left : ExpressionOutline} {operator word : String} {shape : ExpressionShape} {delimiter : Delimiter}
  {qualified attributes attributed : Bool} {segments : List SegmentOutline}

instance shrinks_readAttributes : Shrinks (readAttributes level) := by
  unfold readAttributes
  infer_instance

instance shrinks_go : Shrinks (readRight.go level context strength before fuel left) := by
  induction fuel generalizing left with
  | zero => exact shrinks_pure
  | succ fuel ih =>
      unfold readRight.go
      infer_instance

instance shrinks_readRight : Shrinks (readRight level context strength) := by
  unfold readRight
  infer_instance

instance shrinks_readRange : Shrinks (readRange level context) := by
  unfold readRange
  infer_instance

instance shrinks_refuseTrailer : Shrinks refuseTrailer := by
  unfold refuseTrailer
  infer_instance

instance shrinks_guardCast : Shrinks (guardCast operator shape) := by
  unfold guardCast
  split <;> infer_instance

instance shrinks_readOperatorsFrom : Shrinks (readOperatorsFrom level context base before fuel left) := by
  induction fuel generalizing left with
  | zero => exact shrinks_refuse
  | succ fuel ih =>
      unfold readOperatorsFrom
      refine shrinks_branch inferInstance (shrinks_bind fun s => ?_)
      extract_lets tokens
      split <;> infer_instance

instance shrinks_readOperators : Shrinks (readOperators level context base before left) := by
  unfold readOperators
  infer_instance

instance shrinks_readList : Shrinks (readList level delimiter) := by
  unfold readList
  infer_instance

instance shrinks_readMember : Shrinks (readTrailers.readMember level) := by
  unfold readTrailers.readMember
  infer_instance

instance shrinks_readTrailers : Shrinks (readTrailers level fuel left) := by
  induction fuel generalizing left with
  | zero => exact shrinks_refuse
  | succ fuel ih =>
      unfold readTrailers
      infer_instance

instance shrinks_readAllTrailers : Shrinks (readAllTrailers level left) := by
  unfold readAllTrailers
  infer_instance

instance shrinks_readPlainBlock : Shrinks (readPlainBlock level) := by
  unfold readPlainBlock
  infer_instance

instance shrinks_readBehindPath : Shrinks (readBehindPath level context qualified segments) := by
  unfold readBehindPath
  infer_instance

instance shrinks_readPath : Shrinks (readPath level context) := by
  unfold readPath
  infer_instance

instance shrinks_readGrouped : Shrinks (readGrouped level context) := by
  refine shrinks_bind fun attributed => shrinks_insideInvisible fun outline inner whole => ?_
  split <;> infer_instance

instance shrinks_readTuple : Shrinks (readTuple level) := by
  unfold readTuple
  refine shrinks_bind fun elements => ?_
  split <;> infer_instance

instance shrinks_readArray : Shrinks (readArray level) := by
  unfold readArray
  infer_instance

instance shrinks_readClosureParameter : Shrinks (readClosureParameter level) := by
  unfold readClosureParameter
  refine shrinks_bind fun attributes => shrinks_bind fun pattern => ?_
  obtain ⟨pattern, shown⟩ := pattern
  refine shrinks_bind fun typed => shrinks_branch inferInstance ?_
  split <;> infer_instance

instance shrinks_readClosure : Shrinks (readClosure level context) := by
  unfold readClosure
  infer_instance

instance shrinks_readConditional : Shrinks (readConditional level fuel) := by
  induction fuel with
  | zero => exact shrinks_refuse
  | succ fuel ih =>
      unfold readConditional
      infer_instance

instance shrinks_readIf : Shrinks (readIf level) := by
  unfold readIf
  infer_instance

instance shrinks_readLabel : Shrinks readLabel := by
  unfold readLabel
  infer_instance

instance shrinks_readWhile : Shrinks (readWhile level) := by
  unfold readWhile
  infer_instance

instance shrinks_readFor : Shrinks (readFor level) := by
  unfold readFor
  infer_instance

instance shrinks_readLoop : Shrinks (readLoop level) := by
  unfold readLoop
  infer_instance

instance shrinks_readBlock : Shrinks (readBlock level) := by
  unfold readBlock
  infer_instance

instance shrinks_readLabeled : Shrinks (readLabeled level) := by
  unfold readLabeled
  infer_instance

instance shrinks_readWordBlock : Shrinks (readWordBlock level word attributes) := by
  unfold readWordBlock
  infer_instance

instance shrinks_readMatch : Shrinks (readMatch level) := by
  unfold readMatch
  infer_instance

instance shrinks_readValue : Shrinks (readValue level) := by
  unfold readValue
  infer_instance

instance shrinks_labelBehindAttributes : Shrinks (labelBehindAttributes level) := by
  unfold labelBehindAttributes
  infer_instance

instance shrinks_readBreak : Shrinks (readBreak level context) := by
  unfold readBreak
  infer_instance

instance shrinks_readLet : Shrinks (readLet level context) := by
  unfold readLet
  infer_instance

instance shrinks_readAtom : Shrinks (readAtom level context) := by
  unfold readAtom
  infer_instance

instance shrinks_readFirst : Shrinks (readFirst level context attributed) := by
  unfold readFirst
  infer_instance

instance shrinks_readWithTrailers : Shrinks (readWithTrailers level context attributed) := by
  unfold readWithTrailers
  refine shrinks_bind fun ranged => ?_
  extract_lets behind
  have shrinksBehind : ∀ dots, Shrinks (behind dots) := by
    intro dots
    refine shrinks_bind fun atom => shrinks_bind fun longer => ?_
    cases dots <;> infer_instance
  exact shrinks_branch (shrinks_bind shrinksBehind) (shrinks_bind shrinksBehind)

instance shrinks_readReference : Shrinks (readReference level context) := by
  unfold readReference
  infer_instance

instance shrinks_readPrefixed : Shrinks (readPrefixed level context) := by
  unfold readPrefixed
  refine shrinks_bind fun attributes => ?_
  extract_lets attributed
  refine shrinks_bind fun s => ?_
  extract_lets tokens
  refine shrinks_bind fun grouped => shrinks_branch inferInstance ?_
  refine shrinks_bind fun reference => shrinks_branch inferInstance ?_
  split <;> infer_instance

instance shrinks_readOperand : Shrinks (readOperand level context) := by
  unfold readOperand
  infer_instance

instance shrinks_read : Shrinks (read level context) := by
  unfold read
  infer_instance

end ExpressionOutline

end Replica
