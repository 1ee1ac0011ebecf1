import Replica.Proofs.Grammar.Printing
import Replica.Proofs.Grammar.Separation

/-!
Paths in expressions. The grammar of types takes the arguments of a segment with or without a double colon in front of
them, that of expressions only behind one. A path that either has read is therefore a path for both just if it has a
double colon wherever it has arguments.
-/

namespace Replica

open Replica.Parser

/-- Arguments stand behind a double colon, if there are any. -/
def SegmentOutline.Callable : SegmentOutline → Prop
  | .bare _ => True
  | .generic _ turbofish _ => turbofish = true
  | .hollow _ turbofish => turbofish = true

/-- All segments with arguments have a double colon in front of them. -/
def PathText.Callable (path : PathText) : Prop :=
  ∀ segment ∈ path.segments, segment.Callable

namespace Parser

variable {α β : Type} {p q : Parser α} {holds : α → Prop} {ahead : Ahead}

theorem Ensures.manyWhile (ensures : Ensures p holds) : Ensures (manyWhile ahead p) fun as => ∀ a ∈ as, holds a := by
  have rounds (fuel : Nat) : Ensures (rounds fuel do
      if ← peek ahead then return some (← p) else return none) fun as => ∀ a ∈ as, holds a := by
    induction fuel with
    | zero => exact ensures_refuse
    | succ fuel ih =>
        rw [Parser.rounds, bind_assoc]
        refine ensures_bind fun present => ?_
        cases present with
        | false => exact ensures_pure fun _ member => absurd member List.not_mem_nil
        | true =>
            simp only [if_true, bind_assoc, pure_bind]
            exact ensures.bind fun a answered => ih.bind fun as others =>
              ensures_pure (List.forall_mem_cons.mpr ⟨answered, others⟩)
  exact ensures_bind fun _ => rounds _

/-- What the first reader answers, if it is such an answer, the second answers as well. -/
def Follows (p q : Parser α) (holds : α → Prop) : Prop :=
  ∀ s a last, p s = .ok (a, last) → holds a → q s = .ok (a, last)

theorem follows_refl : Follows p p holds := fun _ _ _ read _ => read

/-- What is read first is the same. -/
theorem follows_bind {first : Parser β} {next following : β → Parser α}
    (follows : ∀ b, Follows (next b) (following b) holds) : Follows (first >>= next) (first >>= following) holds := by
  intro s a last read answered
  obtain ⟨b, middle, readFirst, readNext⟩ := bind_eq_ok_iff.mp read
  exact bind_eq_ok_iff.mpr ⟨b, middle, readFirst, follows b middle a last readNext answered⟩

theorem Follows.capture (follows : Follows p q holds) :
    Follows (capture p) (capture q) fun answer => holds answer.1 := by
  rintro s ⟨a, shown⟩ last read answered
  obtain ⟨⟨b, inner⟩, middle, withheld, final⟩ := bind_eq_ok_iff.mp read
  obtain ⟨before, s', look, withheld⟩ := bind_eq_ok_iff.mp withheld
  cases look
  obtain ⟨_, cleared, clear, withheld⟩ := bind_eq_ok_iff.mp withheld
  obtain ⟨c, t, first, withheld⟩ := bind_eq_ok_iff.mp withheld
  have same : c = a := by
    cases withheld
    cases final
    rfl
  subst same
  refine bind_eq_ok_iff.mpr ⟨(b, inner), middle, ?_, final⟩
  refine bind_eq_ok_iff.mpr ⟨_, s, rfl, bind_eq_ok_iff.mpr ⟨_, cleared, clear, ?_⟩⟩
  exact bind_eq_ok_iff.mpr ⟨c, t, follows _ _ _ first answered, withheld⟩

theorem Follows.manyWhile (follows : Follows p q holds) :
    Follows (manyWhile ahead p) (manyWhile ahead q) fun as => ∀ a ∈ as, holds a := by
  have rounds (fuel : Nat) : Follows (rounds fuel do
      if ← peek ahead then return some (← p) else return none) (Parser.rounds fuel do
      if ← peek ahead then return some (← q) else return none) fun as => ∀ a ∈ as, holds a := by
    induction fuel with
    | zero => exact fun _ _ _ read _ => read
    | succ fuel ih =>
        intro s as last read all
        rw [Parser.rounds, bind_assoc] at read ⊢
        obtain ⟨_, _, look, read⟩ := bind_eq_ok_iff.mp read
        cases look
        refine bind_eq_ok_iff.mpr ⟨_, s, rfl, ?_⟩
        split at read
        next present =>
          simp only [present, if_true, bind_assoc, pure_bind] at read ⊢
          obtain ⟨a, middle, readFirst, read⟩ := bind_eq_ok_iff.mp read
          obtain ⟨rest, inner, readRest, final⟩ := bind_eq_ok_iff.mp read
          cases final
          obtain ⟨here, others⟩ := List.forall_mem_cons.mp all
          exact bind_eq_ok_iff.mpr ⟨a, middle, follows s a middle readFirst here,
            bind_eq_ok_iff.mpr ⟨rest, last, ih middle rest last readRest others, rfl⟩⟩
        next absent =>
          rw [if_neg absent]
          exact read
  intro s as last read all
  exact rounds _ s as last read all

end Parser

/-- Arguments are read with a double colon in front of them just if one comes next. -/
def Level.Separates (level : Level) : Prop :=
  ∀ name s segment last, level.arguments name s = .ok (segment, last) →
    (segment.Callable ↔ Ahead.symbol "::" s.tokens = true)

theorem Argument.callable_readAll {level : Level} {name : String} {s last : State} {segment : SegmentOutline}
    (read : readAll level name s = .ok (segment, last)) :
    segment.Callable ↔ Ahead.symbol "::" s.tokens = true := by
  obtain ⟨turbofish, middle, separated, read⟩ := bind_eq_ok_iff.mp read
  -- Whether arguments have a double colon in front of them was settled by what was seen there.
  have seen : turbofish = Ahead.symbol "::" s.tokens := by
    obtain ⟨_, _, look, separated⟩ := bind_eq_ok_iff.mp separated
    cases look
    split at separated
    next present =>
      obtain ⟨_, _, _, final⟩ := bind_eq_ok_iff.mp separated
      cases final
      exact present.symm
    next absent =>
      cases separated
      exact (Bool.eq_false_iff.mpr absent).symm
  obtain ⟨answer, _, _, read⟩ := bind_eq_ok_iff.mp read
  obtain ⟨⟨start, list, stop⟩, _⟩ := answer
  obtain ⟨_, _, _, read⟩ := bind_eq_ok_iff.mp read
  dsimp only at read
  split at read
  next =>
    cases read
    rw [← seen]
    rfl
  next =>
    cases read
    rw [← seen]
    rfl

theorem Level.separates_height (n : Nat) : (height n).Separates := by
  cases n with
  | zero =>
      intro name s segment last read
      obtain ⟨_, _, _, read⟩ := bind_eq_ok_iff.mp read
      obtain ⟨_, _, _, read⟩ := bind_eq_ok_iff.mp read
      cases read
  | succ n => exact fun _ _ _ _ read => Argument.callable_readAll read

namespace Path

variable {level : Level} {expression : Bool}

theorem unseparated_of_bracket {tokens : List Token} (bracket : Ahead.symbol "<" tokens = true) :
    Ahead.symbol "::" tokens = false := by
  have opening : Ahead.marks ['<'] tokens = true := bracket
  change Ahead.marks [':', ':'] tokens = false
  unfold Ahead.marks at opening ⊢
  cases visible : Ahead.visible tokens with
  | nil => rfl
  | cons token rest =>
      cases token with
      | mark c joint span =>
          simp only [visible, Bool.and_eq_true, decide_eq_true_eq] at opening
          rw [← opening.1]
          rfl
      | _ => rfl

/-- Whether arguments are read behind a name. -/
def argumentsAhead (expression : Bool) : Ahead := fun tokens =>
  (!expression && Ahead.symbol "<" tokens && !Ahead.any [.symbol "<=", .symbol "<<="] tokens) ||
    (Ahead.symbol "::" tokens && Ahead.third (.symbol "<") tokens)

theorem behindWord_eq {word : Name} :
    behindWord level expression word = (Parser.peek (argumentsAhead expression) >>= fun present =>
      if present then level.arguments word.text else pure (.bare word.text)) := rfl

theorem callable_behindWord (separates : level.Separates) {word : Name} :
    Ensures (behindWord level true word) SegmentOutline.Callable := by
  intro s segment last read
  rw [behindWord_eq] at read
  obtain ⟨_, _, look, read⟩ := bind_eq_ok_iff.mp read
  cases look
  split at read
  next present =>
    have separated : Ahead.symbol "::" s.tokens = true := by
      simp only [argumentsAhead, Bool.not_true, Bool.false_and, Bool.false_or, Bool.and_eq_true] at present
      exact present.1
    exact (separates _ s segment last read).mpr separated
  next =>
    cases read
    trivial

theorem follows_behindWord (separates : level.Separates) {word : Name} :
    Follows (behindWord level false word) (behindWord level true word) SegmentOutline.Callable := by
  intro s segment last read callable
  rw [behindWord_eq] at read ⊢
  obtain ⟨_, _, look, read⟩ := bind_eq_ok_iff.mp read
  cases look
  refine bind_eq_ok_iff.mpr ⟨_, s, rfl, ?_⟩
  split at read
  next present =>
    -- Behind a bracket without a double colon there would be no callable segment.
    have separated := (separates _ s segment last read).mp callable
    have unbracketed : Ahead.symbol "<" s.tokens = false := by
      refine Bool.eq_false_iff.mpr fun bracket => ?_
      rw [unseparated_of_bracket bracket] at separated
      cases separated
    have same : argumentsAhead true s.tokens = true := by
      simpa [argumentsAhead, unbracketed] using present
    rwa [if_pos same]
  next absent =>
    have same : ¬ argumentsAhead true s.tokens = true := by
      simp only [argumentsAhead, Bool.or_eq_true, not_or] at absent
      simp [argumentsAhead, absent.2]
    rwa [if_neg same]

theorem callable_segment (separates : level.Separates) :
    Ensures (segment level true) SegmentOutline.Callable := by
  rw [segment_eq]
  refine ensures_bind fun answer => ?_
  split
  next => exact ensures_pure trivial
  next => exact callable_behindWord separates

theorem follows_segment (separates : level.Separates) :
    Follows (segment level false) (segment level true) SegmentOutline.Callable := by
  rw [segment_eq, segment_eq]
  refine follows_bind fun answer => ?_
  split
  next => exact follows_refl
  next => exact follows_behindWord separates

theorem callable_more (separates : level.Separates) :
    Ensures (more level true) fun segments => ∀ segment ∈ segments, segment.Callable :=
  Ensures.manyWhile (ensures_bind fun _ => callable_segment separates)

theorem callable_plain (separates : level.Separates) :
    Ensures (plain level true) fun answer => ∀ segment ∈ answer.2, segment.Callable := by
  refine ensures_bind fun _ => (callable_segment separates).bind fun segment callable => ?_
  exact (callable_more separates).bind fun segments others =>
    ensures_pure (List.forall_mem_cons.mpr ⟨callable, others⟩)

theorem follows_plain (separates : level.Separates) :
    Follows (plain level false) (plain level true) fun answer => ∀ segment ∈ answer.2, segment.Callable := by
  refine follows_bind fun rooted => ?_
  rintro s _ last read callable
  obtain ⟨segment, middle, readSegment, read⟩ := bind_eq_ok_iff.mp read
  obtain ⟨segments, final, readMore, read⟩ := bind_eq_ok_iff.mp read
  cases read
  obtain ⟨here, others⟩ := List.forall_mem_cons.mp callable
  refine bind_eq_ok_iff.mpr ⟨segment, middle, follows_segment separates s segment middle readSegment here, ?_⟩
  have more : Follows (more level false) (Path.more level true)
      fun segments => ∀ segment ∈ segments, segment.Callable :=
    Follows.manyWhile (follows_bind fun _ => follows_segment separates)
  exact bind_eq_ok_iff.mpr ⟨segments, _, more middle segments _ readMore others, rfl⟩

/-- A path where an expression is read. -/
def callee (level : Level) : Parser PathText := do
  let ((rooted, segments), tokens) ← capture (plain level true)
  return ⟨rooted, segments, tokens⟩

/-- A path of the grammar of types is the same path in an expression just if it is callable. -/
theorem callee_eq_ok_iff (separates : level.Separates) {s last : State} {path : PathText}
    (read : text level s = .ok (path, last)) : callee level s = .ok (path, last) ↔ path.Callable := by
  constructor
  · intro readAgain
    obtain ⟨⟨⟨rooted, segments⟩, tokens⟩, middle, captured, final⟩ := bind_eq_ok_iff.mp readAgain
    cases final
    exact (callable_plain separates).capture s _ last captured
  · intro callable
    obtain ⟨⟨⟨rooted, segments⟩, tokens⟩, middle, captured, final⟩ := bind_eq_ok_iff.mp read
    cases final
    exact bind_eq_ok_iff.mpr ⟨_, _, (follows_plain separates).capture s _ _ captured callable, rfl⟩

end Path

namespace Parser

variable {α β : Type} {p : Parser α} {q : α → Parser β} {holds : α → Prop} {holdsNext : β → Prop}

theorem ensures_choice {first second : Parser α} {ahead : Ahead} (present : Ensures first holds)
    (absent : Ensures second holds) : Ensures (do if ← peek ahead then first else second) holds := by
  refine ensures_bind fun seen => ?_
  cases seen with
  | true => exact present
  | false => exact absent

theorem ensures_choiceBoth {first second : Parser α} {ahead further : Ahead} (present : Ensures first holds)
    (absent : Ensures second holds) :
    Ensures (do if (← peek ahead) && (← peek further) then first else second) holds := by
  refine ensures_bind fun seen => ensures_bind fun behind => ?_
  split
  next => exact present
  next => exact absent

theorem Ensures.insideInvisible {q : α → List Token → List Token → Parser β} (first : Ensures p holds)
    (next : ∀ a inner whole, holds a → Ensures (q a inner whole) holdsNext) :
    Ensures (insideInvisible p q) holdsNext := by
  refine ensures_bind fun s => ?_
  split
  next =>
    refine ensures_bind fun _ => first.bind fun a answered => ensures_bind fun _ => ensures_bind fun _ => ?_
    exact (next a _ _ answered).bind fun b last => ensures_bind fun _ => ensures_pure last
  next => exact ensures_refuse

end Parser

namespace ExpressionOutline

variable {level : Level} {context : Context}

/-- If the expression is a path or calls of one, the segments of the path are callable. -/
def Callable : ExpressionOutline → Prop
  | .path false segments => ∀ segment ∈ segments, segment.Callable
  | .call callee => callee.Callable
  | _ => True

end ExpressionOutline

/-- The expressions that are read at the level are callable. -/
structure Level.Calls (level : Level) : Prop where
  separates : level.Separates
  expression : ∀ context, Ensures (level.expression context) ExpressionOutline.Callable
  operand : ∀ context, Ensures (level.operand context) ExpressionOutline.Callable
  operators : ∀ context strength before left, left.Callable →
    Ensures (level.operators context strength before left) ExpressionOutline.Callable

namespace ExpressionOutline

variable {level : Level} {context : Context}

theorem callable_readBehindPath {qualified : Bool} {segments : List SegmentOutline}
    (callable : (path qualified segments).Callable) :
    Ensures (readBehindPath level context qualified segments) Callable := by
  unfold readBehindPath
  refine ensures_bind fun _ => ensures_bind fun _ => ?_
  split
  next => exact ensures_bind fun _ => ensures_bind fun _ => ensures_pure trivial
  next =>
    refine ensures_bind fun _ => ?_
    split
    next => exact ensures_bind fun _ => ensures_pure trivial
    next => exact ensures_pure callable

theorem callable_readPath (separates : level.Separates) : Ensures (readPath level context) Callable := by
  have qualified : Ensures (Path.qualified level true) fun answer =>
      answer.1 = none → ∀ segment ∈ answer.2.2, segment.Callable := by
    refine ensures_choice ?_ ?_
    · refine ensures_bind fun _ => ensures_bind fun type => ensures_bind fun _ => ?_
      extract_lets behindBound
      have behind (bound : Option (Bool × List SegmentOutline)) : Ensures (behindBound bound) fun answer =>
          answer.1 = none → ∀ segment ∈ answer.2.2, segment.Callable := by
        refine ensures_bind fun _ => ensures_bind fun _ => ensures_bind fun _ => ensures_bind fun _ => ?_
        split
        next => exact ensures_pure fun unqualified => absurd unqualified (Option.some_ne_none _)
        next => exact ensures_pure fun unqualified => absurd unqualified (Option.some_ne_none _)
      split
      next => exact ensures_bind behind
      next => exact ensures_bind behind
    · exact (Path.callable_plain separates).bind fun answer callable => ensures_pure fun _ => callable
  refine qualified.bind ?_
  rintro ⟨qualifier, rooted, segments⟩ callable
  refine callable_readBehindPath ?_
  cases qualifier with
  | none => exact callable rfl
  | some type => exact trivial

theorem callable_readGrouped (calls : level.Calls) : Ensures (readGrouped level context) Callable := by
  refine ensures_bind fun attributed => Ensures.insideInvisible (calls.expression .anywhere) ?_
  intro outline inner whole callable
  split
  next qualified segments =>
    have longer : Ensures (do
        let more ← Path.more level true
        readBehindPath level context qualified (segments ++ more)) Callable := by
      refine (Path.callable_more calls.separates).bind fun more others => callable_readBehindPath ?_
      cases qualified with
      | true => exact trivial
      | false => exact List.forall_mem_append.mpr ⟨callable, others⟩
    refine longer.withhold.bind ?_
    rintro ⟨extended, rest⟩ callable
    dsimp only
    split
    next => exact ensures_bind fun _ => ensures_pure trivial
    next => exact ensures_bind fun _ => ensures_pure callable
  next => exact ensures_bind fun _ => ensures_pure trivial

section Others

/-! What is no path and no call is answered by these readers. -/

theorem callable_readTuple : Ensures (readTuple level) Callable := by
  refine ensures_bind fun elements => ?_
  split
  next => exact ensures_pure trivial
  next => exact ensures_pure trivial

theorem callable_readArray : Ensures (readArray level) Callable :=
  ensures_bind fun _ => ensures_pure trivial

theorem callable_readClosure : Ensures (readClosure level context) Callable := by
  have behind : Ensures (do
      let _ ← keyword? "const"
      let _ ← keyword? "static"
      let _ ← keyword? "async"
      let _ ← keyword? "move"
      let _ ← symbol "|"
      let _ ← upTo "|" (readClosureParameter level)
      let _ ← symbol "|"
      if ← symbol? "->" then
        let _ ← level.type true true
        readPlainBlock level
      else
        let _ ← level.expression context.behind
      return plain) Callable := by
    refine ensures_bind fun _ => ensures_bind fun _ => ensures_bind fun _ => ensures_bind fun _ =>
      ensures_bind fun _ => ensures_bind fun _ => ensures_bind fun _ => ensures_bind fun arrow => ?_
    split
    next => exact ensures_bind fun _ => ensures_bind fun _ => ensures_pure trivial
    next => exact ensures_bind fun _ => ensures_pure trivial
  exact ensures_choice (ensures_bind fun _ => behind) behind

theorem callable_readIf : Ensures (readIf level) Callable :=
  ensures_bind fun _ => ensures_bind fun _ => ensures_bind fun _ => ensures_pure trivial

theorem callable_readWhile : Ensures (readWhile level) Callable :=
  ensures_bind fun _ => ensures_bind fun _ => ensures_bind fun _ => ensures_pure trivial

theorem callable_readFor : Ensures (readFor level) Callable :=
  ensures_bind fun _ => ensures_bind fun _ => ensures_bind fun _ => ensures_bind fun _ =>
    ensures_bind fun _ => ensures_pure trivial

theorem callable_readLoop : Ensures (readLoop level) Callable :=
  ensures_bind fun _ => ensures_bind fun _ => ensures_pure trivial

theorem callable_readBlock : Ensures (readBlock level) Callable :=
  ensures_bind fun _ => ensures_pure trivial

theorem callable_readLabeled : Ensures (readLabeled level) Callable :=
  ensures_bind fun _ => ensures_choice callable_readWhile <| ensures_choice callable_readFor <|
    ensures_choice callable_readLoop <| ensures_choice callable_readBlock ensures_refuse

theorem callable_readWordBlock {word : String} {attributes : Bool} :
    Ensures (readWordBlock level word attributes) Callable := by
  refine ensures_bind fun _ => ?_
  split
  next => exact ensures_bind fun _ => ensures_pure trivial
  next => exact ensures_bind fun _ => ensures_pure trivial

theorem callable_readMatch : Ensures (readMatch level) Callable :=
  ensures_bind fun _ => ensures_bind fun _ => ensures_bind fun _ => ensures_pure trivial

theorem callable_readBreak : Ensures (readBreak level context) Callable := by
  refine ensures_bind fun _ => ensures_bind fun _ => ensures_bind fun _ => ?_
  extract_lets behindValue behindLook behindTarget
  have plainly : Ensures (behindValue ()) Callable := ensures_pure trivial
  have look (labeled : Bool) : Ensures (behindLook labeled) Callable :=
    ensures_bind fun _ => ensures_bind fun _ => plainly
  have target : Ensures (behindTarget ()) Callable := by
    refine ensures_bind fun target => ensures_bind fun _ => ensures_bind fun _ => ?_
    split
    next =>
      split
      next => exact ensures_bind look
      next => exact ensures_bind look
    next => exact plainly
  split
  next => exact ensures_bind fun _ => ensures_bind fun _ => ensures_bind fun _ => ensures_bind fun _ => target
  next => exact target

theorem callable_readLet : Ensures (readLet level context) Callable :=
  ensures_bind fun _ => ensures_bind fun _ => ensures_bind fun _ => ensures_bind fun _ =>
    ensures_bind fun _ => ensures_bind fun _ => ensures_pure trivial

theorem callable_readRange : Ensures (readRange level context) Callable := by
  refine ensures_bind fun limits => ensures_bind fun _ => ?_
  split
  next => exact ensures_pure trivial
  next => exact ensures_bind fun _ => ensures_pure trivial

end Others

theorem callable_readAtom (calls : level.Calls) : Ensures (readAtom level context) Callable := by
  refine ensures_choice (callable_readGrouped calls) ?_
  refine ensures_choice (ensures_bind fun _ => ensures_pure trivial) ?_
  refine ensures_choice (ensures_bind fun _ => ensures_bind fun _ => ensures_bind fun _ => ensures_pure trivial) ?_
  refine ensures_choiceBoth callable_readWordBlock ?_
  refine ensures_choice callable_readClosure ?_
  refine ensures_choice (ensures_bind fun _ => ensures_pure trivial) ?_
  refine ensures_choice (callable_readPath calls.separates) ?_
  refine ensures_choice callable_readTuple ?_
  refine ensures_choice callable_readBreak ?_
  refine ensures_choice (ensures_bind fun _ => ensures_bind fun _ => ensures_pure trivial) ?_
  refine ensures_choice (ensures_bind fun _ => ensures_bind fun _ => ensures_pure trivial) ?_
  refine ensures_choice (ensures_bind fun _ => ensures_pure trivial) ?_
  refine ensures_choice callable_readArray ?_
  refine ensures_choice callable_readLet ?_
  refine ensures_choice callable_readIf ?_
  refine ensures_choice callable_readWhile ?_
  refine ensures_choice callable_readFor ?_
  refine ensures_choice callable_readLoop ?_
  refine ensures_choice callable_readMatch ?_
  refine ensures_choice (ensures_bind fun _ => ensures_bind fun _ => ensures_pure trivial) ?_
  refine ensures_choice callable_readWordBlock ?_
  refine ensures_choice callable_readWordBlock ?_
  refine ensures_choice callable_readBlock ?_
  refine ensures_choice callable_readRange ?_
  refine ensures_choice (ensures_bind fun _ => ensures_pure trivial) ?_
  exact ensures_choice callable_readLabeled ensures_refuse

theorem callable_readTrailers {fuel : Nat} {left : ExpressionOutline} (callable : left.Callable) :
    Ensures (readTrailers level fuel left) Callable := by
  induction fuel generalizing left with
  | zero => exact ensures_refuse
  | succ fuel ih =>
      have others : Ensures (readTrailers level fuel plain) Callable := ih trivial
      refine ensures_choice (ensures_bind fun _ => ih callable) (ensures_bind fun _ => ensures_bind fun _ => ?_)
      split
      next =>
        refine ensures_bind fun _ => ensures_choice ?_ (ensures_bind fun _ => others)
        refine ensures_bind fun _ => ?_
        split
        next => exact ensures_bind fun _ => others
        next => exact others
      next =>
        refine ensures_choice (ensures_bind fun _ => others) (ensures_bind fun _ => ?_)
        split
        next => exact ensures_bind fun _ => others
        next => exact ensures_pure callable

theorem callable_readFirst (calls : level.Calls) {attributed : Bool} :
    Ensures (readFirst level context attributed) Callable :=
  ensures_bind fun _ => (callable_readAtom calls).withhold.bind fun _ callable =>
    ensures_bind fun _ => ensures_bind fun _ => ensures_bind fun _ => ensures_pure callable

theorem callable_readWithTrailers (calls : level.Calls) {attributed : Bool} :
    Ensures (readWithTrailers level context attributed) Callable := by
  refine ensures_bind fun _ => ?_
  extract_lets behindDots
  have behind (dots : Option (PatternOutline.Limits × Span)) : Ensures (behindDots dots) Callable := by
    refine (callable_readFirst calls).bind fun atom callable => ?_
    have trailers : Ensures (readAllTrailers level atom) Callable :=
      ensures_bind fun _ => callable_readTrailers callable
    refine trailers.bind fun longer callable => ?_
    split
    next =>
      split
      next => exact ensures_bind fun _ => ensures_pure callable
      next => exact ensures_pure callable
    next => exact ensures_pure callable
  split
  next => exact ensures_bind behind
  next => exact ensures_bind behind

theorem callable_readPrefixed (calls : level.Calls) : Ensures (readPrefixed level context) Callable := by
  refine ensures_bind fun _ => ensures_bind fun _ => ?_
  refine ensures_choice (callable_readWithTrailers calls) (ensures_choice ?_ ?_)
  · refine ensures_bind fun _ => ensures_bind fun _ => ensures_bind fun _ => ?_
    extract_lets raw behindConstant behindRaw
    have behind : Ensures (behindRaw ()) Callable := by
      refine ensures_bind fun mutable => ?_
      have operand : Ensures (behindConstant ()) Callable := ensures_bind fun _ => ensures_pure trivial
      split
      next => exact ensures_bind fun _ => operand
      next => exact operand
    split
    next => exact ensures_bind fun _ => behind
    next => exact behind
  · split
    next => exact ensures_bind fun _ => ensures_bind fun _ => ensures_pure trivial
    next => exact callable_readWithTrailers calls

theorem callable_readOperand (calls : level.Calls) : Ensures (readOperand level context) Callable :=
  (callable_readPrefixed calls).verbatimIf

theorem callable_readOperatorsFrom {base fuel : Nat} {before : List Token} {left : ExpressionOutline}
    (callable : left.Callable) : Ensures (readOperatorsFrom level context base before fuel left) Callable := by
  induction fuel generalizing left with
  | zero => exact ensures_refuse
  | succ fuel ih =>
      -- Behind an operator the whole is no path any more.
      have others (shape : ExpressionShape) :
          Ensures (readOperatorsFrom level context base before fuel (.other shape)) Callable := ih trivial
      unfold readOperatorsFrom
      split
      next => exact ensures_pure callable
      next =>
        refine ensures_bind fun s => ?_
        dsimp only
        split
        next text strength _ =>
          split
          next => exact ensures_pure callable
          next =>
            have behind : Ensures (do
                guardCast text left.shape
                let _ ← symbol text
                let right ← readRight level context.behind strength
                readOperatorsFrom level context base before fuel (.other (joined strength right.shape))) Callable :=
              ensures_bind fun _ => ensures_bind fun _ => ensures_bind fun _ => others _
            split
            next => exact ensures_bind fun _ => behind
            next => exact behind
        next =>
          split
          next => exact ensures_bind fun _ => ensures_bind fun _ => others _
          next =>
            split
            next => exact callable_readRange.bind fun _ callable => ih callable
            next =>
              split
              next => exact ensures_bind fun _ => ensures_bind fun _ => ensures_bind fun _ => others _
              next => exact ensures_pure callable

end ExpressionOutline

open ExpressionOutline in
theorem Level.Calls.next {level : Level} (calls : level.Calls) : level.next.Calls where
  separates _ _ _ _ read := Argument.callable_readAll read
  expression context := by
    refine ensures_bind fun _ => (calls.operand context).bind fun operand callable => ?_
    exact calls.operators _ _ _ _ callable
  operand _ := callable_readOperand calls
  operators _ _ _ _ callable := ensures_bind fun _ => callable_readOperatorsFrom callable

theorem Level.calls_height (n : Nat) : (height n).Calls := by
  induction n with
  | zero =>
      exact ⟨separates_height 0, fun _ => ensures_refuse, fun _ => ensures_refuse, fun _ _ _ _ _ => ensures_refuse⟩
  | succ n ih => exact ih.next

end Replica
