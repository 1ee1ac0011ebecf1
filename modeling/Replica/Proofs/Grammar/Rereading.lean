import Replica.Proofs.Class.Entries
import Replica.Proofs.Grammar.Calling

/-!
Calls that are read from what was printed. Behind a path that is callable, arguments in parentheses make a call of
just this path.
-/

namespace Replica

namespace Parser

variable {α β : Type} {p : Parser α} {q : α → Parser β} {tokens rest shown more : List Token} {a : α}

theorem one_le_weightAll (present : tokens ≠ []) : 1 ≤ Token.weightAll tokens := by
  obtain ⟨token, more, rfl⟩ := List.exists_cons_of_ne_nil present
  cases token <;> (simp only [Token.weightAll, Token.weight]; omega)

theorem reads_print : Reads (print shown) tokens tokens () shown := by
  rintro s rfl
  exact ⟨_, rfl, rfl, rfl, rfl⟩

theorem Reads.withhold (first : Reads p tokens rest a shown) : Reads (withhold p) tokens rest (a, shown) [] := by
  intro s here
  obtain ⟨last, read, left, kept, printed⟩ := first { s with printed := [] } here
  refine ⟨{ last with printed := s.printed }, ?_, left, kept, rfl⟩
  refine bind_eq_ok_iff.mpr ⟨s, s, rfl, bind_eq_ok_iff.mpr ⟨(), _, rfl, bind_eq_ok_iff.mpr ⟨a, last, read, ?_⟩⟩⟩
  have all : last.printed.reverse = shown := by rw [printed]; simp
  rw [← all]
  rfl

/-- What the reader prints is kept if the tokens of the source are not asked for. -/
theorem Reads.verbatimIf {raw : α → Bool} (first : Reads p tokens rest a shown) (printed : raw a = false) :
    Reads (verbatimIf p raw) tokens rest a shown := by
  refine reads_get fun s here => first.withhold.bind (reads_get fun t _ => ?_)
  simp only [printed, Bool.false_eq_true, if_false]
  exact reads_print.answer

theorem Reads.inside {delimiter : Delimiter} (first : Reads p tokens [] a shown) (visible : delimiter ≠ .invisible)
    (span : Span) : Reads (inside delimiter p) (.group delimiter tokens span :: rest) rest a
      [.group delimiter shown span] := by
  have front (endings : List Token.Ending) : Token.front (.group delimiter tokens span :: rest) endings =
      ⟨.group delimiter tokens span :: rest, endings⟩ := by
    cases delimiter with
    | invisible => contradiction
    | _ => rfl
  intro s here
  obtain ⟨last, read, left, kept, printed⟩ := first { s with
    tokens := tokens, scope := span.closing, enclosing := delimiter, last := span, endings := [], printed := [] } rfl
  have ran : Parser.inside delimiter p s = .ok (a, { s with
      tokens := rest, last := (Token.settle span rest s.endings).1, endings := (Token.settle span rest s.endings).2,
      leftover := last.leftover <|> Leftover.ofTokens last.tokens delimiter,
      printed := .group delimiter last.printed.reverse span :: s.printed }) := by
    refine bind_eq_ok_iff.mpr ⟨s, s, rfl, ?_⟩
    simp only [here, front, if_true]
    exact bind_eq_ok_iff.mpr ⟨(), _, rfl, bind_eq_ok_iff.mpr ⟨a, last, read, rfl⟩⟩
  refine ⟨_, ran, rfl, ?_, ?_⟩
  · have same : last.leftover = s.leftover := kept
    simp [left, same, Leftover.ofTokens]
  · simp [printed]

section Lists

/-- One element of a list, and a separator behind it unless the list ends there. -/
def listElement (ends : Ahead) (separator : String) (p : Parser α) : Parser (Option (α × Bool)) := do
  if ← peek ends then return none
  let a ← p
  if ← peek ends then return some (a, false)
  let _ ← symbol separator
  return some (a, true)

/-- The elements stand in front of `rest`, where the list ends. -/
inductive Lists (ends : Ahead) (separator : String) (p : Parser α) (rest : List Token) :
    List Token → Separated α → List Token → Prop where
  | nothing (ended : ends rest = true) : Lists ends separator p rest rest [] []
  | last {tokens shown : List Token} {a : α} (goesOn : ends tokens = false) (first : Reads p tokens rest a shown)
      (ended : ends rest = true) : Lists ends separator p rest tokens [(a, false)] shown
  | next {tokens middle behind shown sign more : List Token} {a : α} {list : Separated α} (goesOn : ends tokens = false)
      (first : Reads p tokens middle a shown) (followed : ends middle = false)
      (marks : Marks behind separator.toList middle sign) (others : Lists ends separator p rest behind list more) :
      Lists ends separator p rest tokens ((a, true) :: list) (shown ++ (sign ++ more))

variable {ends : Ahead} {separator : String} {list : Separated α}

theorem reads_listElement_of_end (ended : ends tokens = true) :
    Reads (listElement ends separator p) tokens tokens none [] :=
  Reads.peek ended reads_pure

theorem Lists.reads_rounds (lists : Lists ends separator p rest tokens list shown)
    (unquoted : separator.toList.head? ≠ some '\'') {fuel : Nat} (enough : list.length < fuel) :
    Reads (rounds fuel (listElement ends separator p)) tokens rest list shown := by
  have stops (fuel : Nat) (ended : ends rest = true) :
      Reads (rounds (fuel + 1) (listElement ends separator p)) rest rest [] [] := by
    rw [rounds]
    exact (reads_listElement_of_end ended).bind reads_pure
  induction lists generalizing fuel with
  | nothing ended =>
      obtain ⟨fuel, rfl⟩ := Nat.exists_eq_add_one_of_ne_zero (Nat.ne_of_gt enough)
      exact stops fuel ended
  | @last tokens shown a goesOn first ended =>
      obtain ⟨fuel, rfl⟩ := Nat.exists_eq_add_of_le' (Nat.succ_le_of_lt enough)
      have element : Reads (listElement ends separator p) tokens rest (some (a, false)) shown := by
        refine Reads.peek goesOn ?_
        rw [← List.append_nil shown]
        exact first.bind (Reads.peek ended reads_pure)
      rw [List.length_singleton, rounds, ← List.append_nil shown]
      exact element.bind (stops fuel ended).answer
  | @next tokens middle behind shown sign more a list goesOn first followed marks others ih =>
      obtain ⟨fuel, rfl⟩ := Nat.exists_eq_add_one_of_ne_zero (Nat.ne_zero_of_lt enough)
      obtain ⟨span, separated⟩ := reads_symbol marks unquoted
      have element : Reads (listElement ends separator p) tokens behind (some (a, true)) (shown ++ sign) := by
        refine Reads.peek goesOn (first.bind (Reads.peek followed ?_))
        rw [← List.append_nil sign]
        exact separated.bind reads_pure
      rw [rounds, ← List.append_assoc]
      exact element.bind (ih (Nat.lt_of_succ_lt_succ enough)).answer

theorem Lists.reads_many (lists : Lists ends separator p rest tokens list shown)
    (unquoted : separator.toList.head? ≠ some '\'') (enough : list.length ≤ Token.weightAll tokens) :
    Reads (many (listElement ends separator p)) tokens rest list shown := by
  refine reads_get fun s here => ?_
  rw [here]
  exact lists.reads_rounds unquoted (Nat.lt_succ_of_le enough)

theorem Lists.reads_separated (lists : Lists .ended separator p [] tokens list shown)
    (unquoted : separator.toList.head? ≠ some '\'') (enough : list.length ≤ Token.weightAll tokens) :
    Reads (separated separator p) tokens [] list shown :=
  lists.reads_many unquoted enough

theorem Lists.reads_upTo {close : String} (lists : Lists (.symbol close) "," p rest tokens list shown)
    (enough : list.length ≤ Token.weightAll tokens) : Reads (upTo close p) tokens rest list shown :=
  lists.reads_many (by decide) enough

end Lists

end Parser

open Replica.Parser

theorem SegmentOutline.Spelled.begins {segment : SegmentOutline} {shown : List Token}
    (spelled : segment.Spelled shown) : ∃ word behind, shown = Name.token word :: behind ∧ Path.IsSegment word := by
  cases spelled with
  | bare isSegment => exact ⟨_, _, rfl, isSegment⟩
  | generic isSegment colons types start stop arguments => exact ⟨_, _, rfl, isSegment⟩
  | hollow isSegment colons start stop arguments => exact ⟨_, _, rfl, isSegment⟩

namespace Path

variable {level : Level} {expression rooted : Bool} {segments : List SegmentOutline} {tokens shown rest : List Token}

/-- No arguments come next. -/
structure Bare (rest : List Token) : Prop where
  unbracketed : Ahead.symbol "<" rest = false
  unopened : (Ahead.symbol "::" rest && Ahead.third (.symbol "<") rest) = false

theorem Ends.bare (ends : Ends rest) : Bare rest :=
  ⟨ends.unbracketed, by rw [ends.unseparated]; rfl⟩

/-- The segment is read from its tokens, up to their end. -/
structure ReadsSegment (level : Level) (expression : Bool) (segment : SegmentOutline) (shown : List Token) : Prop where
  spelled : segment.Spelled shown
  reads : ∀ rest, Bare rest → Reads (Path.segment level expression) (shown ++ rest) rest segment shown

theorem bare_behind (others : SpelledBehind (ReadsSegment level expression) segments shown) (ends : Ends rest) :
    Bare (shown ++ rest) := by
  cases others with
  | nil => exact ends.bare
  | cons first second segment others =>
      obtain ⟨word, behind, rfl, _⟩ := segment.spelled.begins
      exact ⟨rfl, rfl⟩

theorem runs_segments (others : SpelledBehind (ReadsSegment level expression) segments shown) (ends : Ends rest) :
    Runs separatorAhead (do
        let _ ← symbol "::"
        segment level expression) rest (shown ++ rest) segments shown := by
  induction others with
  | nil =>
      refine .stop ?_
      rw [separatorAhead, ends.unseparated]
      rfl
  | @cons segment segments shown more first second spelled others ih =>
      obtain ⟨span, colons⟩ := reads_symbol (marks_colons first second) (by decide)
      have bare : Bare (more ++ rest) := bare_behind others ends
      have reads : Reads (do
          let _ ← symbol "::"
          Path.segment level expression) (colonTokens (some (first, second)) ++ (shown ++ (more ++ rest)))
          (more ++ rest) segment (colonTokens (some (first, second)) ++ shown) := colons.bind (spelled.reads _ bare)
      have present : separatorAhead (colonTokens (some (first, second)) ++ (shown ++ (more ++ rest))) = true := by
        obtain ⟨word, behind, rfl, _⟩ := spelled.spelled.begins
        rfl
      rw [List.append_assoc, List.append_assoc]
      exact .next present reads ih

theorem length_le_weight (others : SpelledBehind (ReadsSegment level expression) segments shown) :
    segments.length ≤ Token.weightAll (shown ++ rest) := by
  induction others with
  | nil => exact Nat.zero_le _
  | @cons segment segments shown more first second spelled others ih =>
      have weight : Token.weightAll (colonTokens (some (first, second)) ++ (shown ++ (more ++ rest))) =
          1 + (1 + Token.weightAll (shown ++ (more ++ rest))) := rfl
      rw [List.append_assoc, List.append_assoc, weight, Token.weightAll_append, List.length_cons]
      omega

theorem reads_plain (spelled : Spelled (ReadsSegment level expression) rooted segments tokens) (ends : Ends rest) :
    Reads (plain level expression) (tokens ++ rest) rest (rooted, segments) tokens := by
  cases spelled with
  | @path segment segments shown more root spelled others =>
      have behind : Reads (do
          let first ← Path.segment level expression
          return (root.isSome, first :: (← Path.more level expression))) (shown ++ (more ++ rest)) rest
          (root.isSome, segment :: segments) (shown ++ more) :=
        (spelled.reads _ (bare_behind others ends)).bind
          ((runs_segments others ends).reads_manyWhile (length_le_weight others)).answer
      rw [List.append_assoc, List.append_assoc, List.append_assoc]
      cases root with
      | none =>
          have absent : Ahead.symbol "::" (shown ++ (more ++ rest)) = false := by
            obtain ⟨word, after, rfl, _⟩ := spelled.spelled.begins
            rfl
          exact (reads_symbol?_of_absent absent).bind behind
      | some root => exact (reads_symbol? (marks_colons root.1 root.2) (by decide)).bind behind

/-- The tokens begin a path where an expression is read. The word `try` does so only in front of a double colon. -/
inductive Opens : List Token → Prop where
  | rooted (first second : Span) (rest : List Token) : Opens (colonTokens (some (first, second)) ++ rest)
  | word {word : Name} {rest : List Token} (isSegment : IsSegment word) (unmarked : Ahead.symbol "#" rest = false)
      (unbraced : Ahead.group .brace rest = false) (tried : word.text = "try" → Ahead.symbol "::" rest = true) :
      Opens (word.token :: rest)

theorem Opens.unbracketed (opens : Opens tokens) : Ahead.symbol "<" tokens = false := by
  cases opens with
  | rooted first second rest => rfl
  | word isSegment unmarked unbraced tried => rfl

/-- The path is more than the word `try` alone, which begins a block. -/
def Solid (rooted : Bool) (segments : List SegmentOutline) : Prop :=
  rooted = false → segments ≠ [.bare "try"]

theorem opens_of_spelled {shows : SegmentOutline → List Token → Prop} (spelled : Spelled shows rooted segments tokens)
    (shownOf : ∀ segment shown, shows segment shown → segment.Spelled shown)
    (callable : ∀ segment ∈ segments, segment.Callable) (solid : Solid rooted segments)
    (unmarked : Ahead.symbol "#" rest = false) (unbraced : Ahead.group .brace rest = false) :
    Opens (tokens ++ rest) := by
  cases spelled with
  | @path segment segments shown more root spelled others =>
      cases root with
      | some places =>
          rw [List.append_assoc, List.append_assoc]
          exact .rooted places.1 places.2 _
      | none =>
          have here := callable segment List.mem_cons_self
          cases shownOf segment shown spelled with
          | @bare word isSegment =>
              cases others with
              | nil =>
                  exact .word isSegment unmarked unbraced fun isTry => absurd (by rw [isTry]) (solid rfl)
              | cons first second segment others => exact .word isSegment rfl rfl fun _ => rfl
          | generic isSegment colons types start stop arguments =>
              cases colons with
              | none => cases here
              | some places => exact .word isSegment rfl rfl fun _ => rfl
          | hollow isSegment colons start stop arguments =>
              cases colons with
              | none => cases here
              | some places => exact .word isSegment rfl rfl fun _ => rfl

theorem ne_of_free {word : Name} (free : Ahead.reserved.contains word.text = false) {text : String}
    (reserved : Ahead.reserved.contains text = true) : word.text ≠ text := by
  rintro rfl
  rw [reserved] at free
  cases free

theorem IsSegment.ne {word : Name} (isSegment : IsSegment word) {text : String}
    (reserved : Ahead.reserved.contains text = true)
    (plain : ["super", "self", "crate", "try", "Self"].contains text = false) : word.text ≠ text := by
  rcases isSegment with special | isSelf | free
  · rintro rfl
    have member : word.text ∈ ["super", "self", "crate", "try", "Self"] := by
      have := List.contains_iff_mem.mp special
      simp at this ⊢
      tauto
    rw [List.contains_iff_mem.mpr member] at plain
    cases plain
  · rintro rfl
    rw [isSelf] at plain
    cases plain
  · exact ne_of_free free reserved

end Path

theorem TypeOutline.pathAhead_segment {word : Name} {rest : List Token} (isSegment : Path.IsSegment word)
    (certain : word.text ≠ "try") : pathAhead (word.token :: rest) = true := by
  have isName : Ahead.name (word.token :: rest) = !Ahead.reserved.contains word.text := rfl
  have isSpecial : Ahead.anyWordOf ["super", "self", "Self", "crate"] (word.token :: rest) =
      ["super", "self", "Self", "crate"].contains word.text := rfl
  simp only [pathAhead, Ahead.any, List.any_cons, isName, isSpecial]
  rcases isSegment with special | isSelf | free
  · have member := List.contains_iff_mem.mp special
    simp only [List.mem_cons, certain, List.not_mem_nil, or_false] at member
    rcases member with same | same | same <;> simp [same]
  · simp [isSelf]
  · simp only [free, Bool.not_false, Bool.true_or]

namespace ExpressionOutline

variable {level : Level} {context : Context} {rooted : Bool} {segments : List SegmentOutline}
  {tokens rest shown : List Token}

section Words

variable {word : Name}

theorem literal_segment (isSegment : Path.IsSegment word) : Ahead.literal (word.token :: rest) = false := by
  have notTrue := isSegment.ne (rfl : Ahead.reserved.contains "true" = true) rfl
  have notFalse := isSegment.ne (rfl : Ahead.reserved.contains "false" = true) rfl
  simp [Ahead.literal, Ahead.literal?, Ahead.visible, Token.front, Name.token, notTrue, notFalse]

theorem closureAhead_segment (isSegment : Path.IsSegment word) : closureAhead (word.token :: rest) = false := by
  have unlike (text : String) (reserved : Ahead.reserved.contains text = true)
      (plain : ["super", "self", "crate", "try", "Self"].contains text = false) :
      Ahead.word text (word.token :: rest) = false := decide_eq_false (isSegment.ne reserved plain)
  have free : Ahead.anyWordOf ["move", "static"] (word.token :: rest) = false := by
    have notMove := isSegment.ne (rfl : Ahead.reserved.contains "move" = true) rfl
    have notStatic := isSegment.ne (rfl : Ahead.reserved.contains "static" = true) rfl
    simp [Ahead.anyWordOf, word?_token, notMove, notStatic]
  have bar : Ahead.symbol "|" (word.token :: rest) = false := rfl
  simp [closureAhead, Ahead.any, free, bar, unlike "for" rfl rfl, unlike "const" rfl rfl, unlike "async" rfl rfl]

theorem pathAhead_segment (isSegment : Path.IsSegment word)
    (tried : word.text = "try" → Ahead.symbol "::" rest = true) : pathAhead (word.token :: rest) = true := by
  by_cases same : word.text = "try"
  · have isTry : Ahead.word "try" (word.token :: rest) = true := decide_eq_true same
    have second : (Ahead.any [.symbol "!", .symbol "::"]).second (word.token :: rest) =
        Ahead.any [.symbol "!", .symbol "::"] rest := rfl
    simp [pathAhead, isTry, second, Ahead.any, tried same]
  · rw [pathAhead, TypeOutline.pathAhead_segment isSegment same, Bool.true_or]

end Words

theorem reads_readAtom (opens : Path.Opens tokens)
    (path : Reads (readPath level context) tokens rest (.path false segments) shown) :
    Reads (readAtom level context) tokens rest (.path false segments) shown := by
  cases opens with
  | rooted first second behind =>
      exact Reads.peek rfl <| Reads.peek rfl <| Reads.peek rfl <| Reads.peek rfl <| Reads.peek rfl <| Reads.peek rfl <|
        Reads.peek rfl <| Reads.peek rfl path
  | @word word behind isSegment unmarked unbraced tried =>
      have isAsync : asyncBlockAhead (word.token :: behind) = false := by
        have unlike : Ahead.word "async" (word.token :: behind) = false := decide_eq_false (isSegment.ne rfl rfl)
        rw [asyncBlockAhead, unlike, Bool.false_and]
      have isBuiltin : Builtin.ahead (word.token :: behind) = false := by
        have second : (Ahead.symbol "#").second (word.token :: behind) = false := unmarked
        rw [Builtin.ahead, second, Bool.and_false]
      have isBlock : (Ahead.group .brace).second (word.token :: behind) = false := unbraced
      refine Reads.peek rfl <| Reads.peek (literal_segment isSegment) <| Reads.peek isAsync <| Reads.peek rfl <|
        Reads.peek isBlock ?_
      rw [Bool.and_false]
      exact Reads.peek (closureAhead_segment isSegment) <| Reads.peek isBuiltin <|
        Reads.peek (pathAhead_segment isSegment tried) path

/-- What stands behind a path that goes on neither as a path nor as the call of a macro or a literal. -/
structure Ends (rest : List Token) : Prop extends Path.Ends rest where
  unmarked : Ahead.symbol "!" rest = false
  unbraced : Ahead.group .brace rest = false

theorem reads_readPath (path : Reads (Path.plain level true) tokens rest (rooted, segments) shown)
    (unbracketed : Ahead.symbol "<" tokens = false) (ends : Ends rest) :
    Reads (readPath level context) tokens rest (.path false segments) shown := by
  have qualified : Reads (Path.qualified level true) tokens rest (none, rooted, segments) shown :=
    Reads.peek unbracketed path.answer
  have behind : Reads (readBehindPath level context false segments) rest rest (.path false segments) [] := by
    refine Reads.peek ends.unmarked <| Reads.peek rfl <| Reads.peek ends.unbraced ?_
    rw [Bool.and_false]
    exact reads_pure
  rw [← List.append_nil shown]
  exact qualified.bind behind

/-- No operator stands in front of the tokens, and no attribute. -/
theorem reads_readPrefixed (opens : Path.Opens tokens) {outline : ExpressionOutline}
    (operand : Reads (readWithTrailers level context false) tokens rest outline shown) :
    Reads (readPrefixed level context) tokens rest outline shown := by
  have attributes : Reads (readAttributes level) tokens tokens [] [] := by
    refine Runs.reads_manyWhile (.stop ?_) (Nat.zero_le _)
    cases opens with
    | rooted first second behind => rfl
    | word isSegment unmarked unbraced tried => rfl
  refine attributes.bind (reads_get fun s here => ?_)
  rw [here]
  cases opens with
  | rooted first second behind => exact Reads.peek rfl <| Reads.peek rfl operand
  | word isSegment unmarked unbraced tried => exact Reads.peek rfl <| Reads.peek rfl operand

/-- An operand that is printed as it is read, wherever it comes first. -/
structure Plainly (context : Context) : Prop where
  unguarded : context.guarded = false
  unleading : context.leading = false

theorem reads_readFirst (plainly : Plainly context) {atom : ExpressionOutline}
    (read : Reads (readAtom level context) tokens rest atom shown) :
    Reads (readFirst level context false) tokens rest atom shown := by
  refine (reads_peek _).bind (read.withhold.bind ((reads_peek _).bind ((reads_peek _).bind ?_)))
  simp only [plainly.unguarded, plainly.unleading, Bool.false_and, Bool.or_self, Bool.false_eq_true, if_false]
  exact reads_print.answer

theorem reads_readWithTrailers (plainly : Plainly context) (opens : Path.Opens tokens)
    {atom outline : ExpressionOutline} {middle more : List Token} (read : Reads (readAtom level context) tokens middle atom shown)
    (trailers : Reads (readAllTrailers level atom) middle rest outline more) :
    Reads (readWithTrailers level context false) tokens rest outline (shown ++ more) := by
  have undotted : Ahead.symbol ".." tokens = false := by
    cases opens with
    | rooted first second behind => rfl
    | word isSegment unmarked unbraced tried => rfl
  refine Reads.peek undotted ?_
  refine (reads_pure).bind ((reads_readFirst plainly read).bind ?_)
  rw [← List.append_nil more]
  exact trailers.bind reads_pure

theorem reads_readOperand (plainly : Plainly context) (opens : Path.Opens tokens) {outline : ExpressionOutline}
    {middle more : List Token} (path : Reads (Path.plain level true) tokens middle (rooted, segments) shown)
    (unbracketed : Ahead.symbol "<" tokens = false) (ends : Ends middle)
    (trailers : Reads (readAllTrailers level (.path false segments)) middle rest outline more)
    (parsed : outline.shape ≠ .unparsed) : Reads (readOperand level context) tokens rest outline (shown ++ more) :=
  (reads_readPrefixed opens (reads_readWithTrailers plainly opens
    (reads_readAtom opens (reads_readPath path unbracketed ends)) trailers)).verbatimIf (decide_eq_false parsed)

open Helper in
theorem reads_readOperators (stops : EntryEnd rest) {base : Nat} {before : List Token} {left : ExpressionOutline}
    (limited : left.shape ≠ .range) : Reads (readOperators level context base before left) rest rest left [] := by
  have binary : binaryAhead rest = none := by cases stops <;> rfl
  have assignment : assignmentAhead rest = false := by cases stops <;> rfl
  have dots : Ahead.symbol ".." rest = false := by cases stops <;> rfl
  have cast : Ahead.word "as" rest = false := by cases stops <;> rfl
  refine reads_get fun s here => ?_
  unfold readOperatorsFrom
  rw [if_neg limited]
  refine reads_get fun s here => ?_
  simp only [here, binary, assignment, dots, cast, Bool.and_false, Bool.false_eq_true, if_false]
  exact reads_pure

open Helper in
theorem reads_readTrailers (stops : EntryEnd rest) {fuel : Nat} {left : ExpressionOutline} :
    Reads (readTrailers level (fuel + 1) left) rest rest left [] := by
  have call : Ahead.group .parenthesis rest = false := by cases stops <;> rfl
  have dot : Ahead.symbol "." rest = false := by cases stops <;> rfl
  have index : Ahead.group .bracket rest = false := by cases stops <;> rfl
  have question : Ahead.symbol "?" rest = false := by cases stops <;> rfl
  exact Reads.peek call <| Reads.peek dot <| Reads.peek rfl <| Reads.peek index <| Reads.peek question reads_pure

open Helper in
/-- One argument in parentheses makes a call. -/
theorem reads_readAllTrailers_call (stops : EntryEnd rest) {left argument : ExpressionOutline}
    {content shown : List Token} (reads : Reads (level.expression .anywhere) content [] argument shown)
    (present : content ≠ []) (span : Span) :
    Reads (readAllTrailers level left) (.group .parenthesis content span :: rest) rest (.call left)
      [.group .parenthesis shown span] := by
  have list : Reads (readList level .parenthesis) (.group .parenthesis content span :: rest) rest ()
      [.group .parenthesis shown span] := by
    have one : Lists .ended "," (level.expression .anywhere) [] content [(argument, false)] shown :=
      .last (List.isEmpty_eq_false_iff.mpr present) reads rfl
    exact ((one.reads_separated (by decide) (one_le_weightAll present)).inside (by decide) span).answer
  refine reads_get fun s here => ?_
  have weight : Token.weightAll s.tokens = Token.weightAll content + Token.weightAll rest + 1 := by
    have parts : Token.weightAll s.tokens = Token.weightAll content + 1 + Token.weightAll rest := here ▸ rfl
    omega
  rw [weight, ← List.append_nil [_]]
  exact Reads.peek rfl (list.bind (reads_readTrailers stops))

open Helper in
/-- A field behind a point makes a value that is no path. -/
theorem reads_readAllTrailers_field (stops : EntryEnd rest) {field : Name}
    (free : Ahead.reserved.contains field.text = false) {left : ExpressionOutline} (limited : left.shape ≠ .range)
    (span : Span) :
    Reads (readAllTrailers level left) (.mark '.' false span :: field.token :: rest) rest plain
      [.mark '.' false span, field.token] := by
  have waits : Ahead.word "await" (field.token :: rest) = false := decide_eq_false (Path.ne_of_free free rfl)
  have isName : Ahead.name (field.token :: rest) = true :=
    (congrArg not free : Ahead.name (field.token :: rest) = !false)
  have unopened : Ahead.symbol "::" rest = false := stops.path_ends.unseparated
  have uncalled : Ahead.group .parenthesis rest = false := by cases stops <;> rfl
  have member : Reads (readTrailers.readMember level) (field.token :: rest) rest () [field.token] := by
    -- The word is tried as `await` before it is taken for the name of a field.
    have await : Reads (keyword? "await") (field.token :: rest) (field.token :: rest) false [] :=
      Reads.peek waits reads_pure
    have named : Reads Member.read (field.token :: rest) rest .named [field.token] :=
      Reads.peek isName (reads_name free).answer
    refine await.bind ?_
    rw [if_neg Bool.false_ne_true, ← List.append_nil [field.token]]
    exact named.bind (Reads.peek unopened (Reads.peek uncalled reads_pure))
  refine reads_get fun s here => ?_
  have weight : Token.weightAll s.tokens = Token.weightAll rest + 1 + 1 := by
    have parts : Token.weightAll s.tokens = 1 + (1 + Token.weightAll rest) := here ▸ rfl
    omega
  have marks : Marks (field.token :: rest) ".".toList (.mark '.' false span :: field.token :: rest)
      [.mark '.' false span] := .last '.' false span
  obtain ⟨place, point⟩ := reads_symbol marks (by decide)
  rw [weight]
  refine Reads.peek rfl <| Reads.peek rfl <| Reads.peek rfl ?_
  have isPoint : (Ahead.symbol "." (.mark '.' false span :: field.token :: rest) &&
      !Ahead.symbol ".." (.mark '.' false span :: field.token :: rest) && decide (left.shape ≠ .range)) = true := by
    rw [decide_eq_true limited]
    rfl
  rw [if_pos isPoint]
  have isNumber : Ahead.literalIs Literal.isFloat (field.token :: rest) = false := by
    have noLiteral : Ahead.literal? (field.token :: rest) = none :=
      Option.isSome_eq_false_iff.mp (literal_segment (.inr (.inr free))) |> Option.isNone_iff_eq_none.mp
    rw [Ahead.literalIs, noLiteral]
    rfl
  refine point.bind (Reads.peek isNumber ?_)
  rw [← List.append_nil [field.token]]
  refine member.bind ?_
  exact reads_readTrailers stops

open Helper in
theorem reads_expression_of_operand (stops : EntryEnd rest) {outline : ExpressionOutline}
    (operand : Reads (level.next.operand .anywhere) tokens rest outline shown) (limited : outline.shape ≠ .range) :
    Reads (level.next.next.expression .anywhere) tokens rest outline shown := by
  refine reads_get fun s here => ?_
  rw [← List.append_nil shown]
  refine operand.bind ?_
  exact reads_readOperators stops limited

open Helper in
/-- A callable path and one argument in parentheses behind it are read as a call of this path. -/
theorem reads_call (stops : EntryEnd rest)
    (spelled : Path.Spelled (Path.ReadsSegment level true) rooted segments tokens)
    (callable : ∀ segment ∈ segments, segment.Callable) (solid : Path.Solid rooted segments)
    {argument : ExpressionOutline} {content : List Token}
    (reads : Reads (level.expression .anywhere) content [] argument shown) (present : content ≠ []) (span : Span) :
    Reads (level.next.next.expression .anywhere) (tokens ++ .group .parenthesis content span :: rest) rest
      (.call (.path false segments)) (tokens ++ [.group .parenthesis shown span]) := by
  have opens : Path.Opens (tokens ++ .group .parenthesis content span :: rest) :=
    Path.opens_of_spelled spelled (fun _ _ reads => reads.spelled) callable solid rfl rfl
  have ends : Ends (.group .parenthesis content span :: rest) := ⟨⟨rfl, rfl⟩, rfl, rfl⟩
  have operand : Reads (level.next.operand .anywhere) (tokens ++ .group .parenthesis content span :: rest) rest
      (.call (.path false segments)) (tokens ++ [.group .parenthesis shown span]) :=
    reads_readOperand ⟨rfl, rfl⟩ opens (Path.reads_plain spelled ends.toEnds) opens.unbracketed ends
      (reads_readAllTrailers_call stops reads present span) (by rintro ⟨⟩)
  exact reads_expression_of_operand stops operand (by rintro ⟨⟩)

section Values

variable {word : Name}

theorem spelled_word (isSegment : Path.IsSegment word) :
    Path.Spelled (Path.ReadsSegment level true) false [.bare word.text] [word.token] := by
  have segment : Path.ReadsSegment level true (.bare word.text) [word.token] :=
    ⟨.bare isSegment, fun _ bare => Path.reads_segment isSegment bare.unbracketed bare.unopened⟩
  exact .path none segment .nil

open Helper in
theorem reads_word (stops : EntryEnd rest) (free : Ahead.reserved.contains word.text = false) :
    Reads (level.next.next.expression .anywhere) (word.token :: rest) rest (.path false [.bare word.text])
      [word.token] := by
  have isSegment : Path.IsSegment word := .inr (.inr free)
  have ends : Ends rest := ⟨stops.path_ends, by cases stops <;> rfl, by cases stops <;> rfl⟩
  have opens : Path.Opens (word.token :: rest) :=
    .word isSegment (by cases stops <;> rfl) ends.unbraced fun isTry => absurd isTry (Path.ne_of_free free rfl)
  have operand : Reads (level.next.operand .anywhere) (word.token :: rest) rest (.path false [.bare word.text])
      [word.token] := by
    have trailers : Reads (readAllTrailers level (.path false [.bare word.text])) rest rest
        (.path false [.bare word.text]) [] := reads_get fun _ _ => reads_readTrailers stops
    exact reads_readOperand ⟨rfl, rfl⟩ opens (Path.reads_plain (spelled_word isSegment) ends.toEnds)
      opens.unbracketed ends trailers (by rintro ⟨⟩)
  exact reads_expression_of_operand stops operand (by rintro ⟨⟩)

open Helper in
theorem reads_member (stops : EntryEnd rest) (isSegment : Path.IsSegment word) (certain : word.text ≠ "try")
    (plainly : Plainly context) {field : Name} (free : Ahead.reserved.contains field.text = false) (point : Span) :
    Reads (readOperand level context) (word.token :: .mark '.' false point :: field.token :: rest) rest plain
      [word.token, .mark '.' false point, field.token] := by
  have ends : Ends (.mark '.' false point :: field.token :: rest) := ⟨⟨rfl, rfl⟩, rfl, rfl⟩
  have opens : Path.Opens (word.token :: .mark '.' false point :: field.token :: rest) :=
    .word isSegment rfl rfl fun isTry => absurd isTry certain
  exact reads_readOperand plainly opens (Path.reads_plain (spelled_word isSegment) ends.toEnds) opens.unbracketed ends
    (reads_readAllTrailers_field stops free (by rintro ⟨⟩) point) (by rintro ⟨⟩)

theorem reads_reference (rawless : Ahead.word "raw" tokens = false) (immutable : Ahead.word "mut" tokens = false)
    {outline : ExpressionOutline} (operand : Reads (level.operand context.behind) tokens rest outline shown)
    (start : Span) :
    Reads (readOperand level context) (.mark '&' false start :: tokens) rest plain
      (.mark '&' false start :: shown) := by
  have marks : Marks tokens "&".toList (.mark '&' false start :: tokens) [.mark '&' false start] :=
    .last '&' false start
  obtain ⟨place, sign⟩ := reads_symbol marks (by decide)
  have keyword : Reads (keyword? "mut") tokens tokens false [] := Reads.peek immutable reads_pure
  have reference : Reads (readReference level context) (.mark '&' false start :: tokens) rest plain
      (.mark '&' false start :: shown) := by
    refine sign.bind (Reads.peek rawless (Reads.peek rfl (keyword.bind ?_)))
    exact operand.answer
  have attributes : Reads (readAttributes level) (.mark '&' false start :: tokens) (.mark '&' false start :: tokens) []
      [] := Runs.reads_manyWhile (.stop rfl) (Nat.zero_le _)
  have prefixed : Reads (readPrefixed level context) (.mark '&' false start :: tokens) rest plain
      (.mark '&' false start :: shown) :=
    attributes.bind (reads_get fun s _ => Reads.peek rfl (Reads.peek rfl reference))
  exact prefixed.verbatimIf (decide_eq_false (by rintro ⟨⟩))

end Values

end ExpressionOutline

/-- From what is printed of the segment it is read again, where so much can be nested. -/
def SegmentOutline.Rereads (segment : SegmentOutline) (shown : List Token) : Prop :=
  ∀ n, 4 * Token.weightAll shown ≤ n → Path.ReadsSegment (.height n) false segment shown

theorem SegmentOutline.rereads_bare {word : Name} (isSegment : Path.IsSegment word) :
    (SegmentOutline.bare word.text).Rereads [word.token] := fun _ _ =>
  ⟨.bare isSegment, fun _ bare => Path.reads_segment isSegment bare.unbracketed bare.unopened⟩

namespace Path

variable {rooted : Bool} {segments others : List SegmentOutline} {tokens shown more : List Token}

theorem SpelledBehind.append {shows : SegmentOutline → List Token → Prop}
    (spelled : SpelledBehind shows segments shown) (behind : SpelledBehind shows others more) :
    SpelledBehind shows (segments ++ others) (shown ++ more) := by
  induction spelled with
  | nil => exact behind
  | cons first second segment _ ih =>
      rw [List.append_assoc]
      exact .cons first second segment ih

theorem Spelled.append {shows : SegmentOutline → List Token → Prop} (spelled : Spelled shows rooted segments tokens)
    (behind : SpelledBehind shows others more) : Spelled shows rooted (segments ++ others) (tokens ++ more) := by
  cases spelled with
  | path root segment spelled =>
      rw [List.append_assoc]
      exact .path root segment (spelled.append behind)

/-- In an expression a callable segment is read just as in a type. -/
theorem readsSegment_of_callable {segment : SegmentOutline} (rereads : segment.Rereads shown)
    (callable : segment.Callable) {n : Nat} (enough : 4 * Token.weightAll shown ≤ n) : ReadsSegment (.height n) true segment shown := by
  refine ⟨(rereads n enough).spelled, fun rest bare s here => ?_⟩
  obtain ⟨last, read, behind⟩ := (rereads n enough).reads rest bare s here
  exact ⟨last, follows_segment (Level.separates_height n) s segment last read callable, behind⟩

section Changing

variable {shows shows' : SegmentOutline → List Token → Prop}

theorem SpelledBehind.imp (spelled : SpelledBehind shows segments shown)
    (implies : ∀ segment ∈ segments, ∀ inner, Token.weightAll inner ≤ Token.weightAll shown → shows segment inner →
      shows' segment inner) : SpelledBehind shows' segments shown := by
  induction spelled with
  | nil => exact .nil
  | @cons segment segments shown more first second spelled _ ih =>
      simp only [Token.weightAll_append] at implies
      refine .cons first second (implies segment List.mem_cons_self shown (by omega) spelled) (ih ?_)
      exact fun segment member inner lighter => implies segment (List.mem_cons_of_mem _ member) inner (by omega)

/-- What is true of the tokens of every segment, as they are no more than those of the path. -/
theorem Spelled.imp (spelled : Spelled shows rooted segments tokens)
    (implies : ∀ segment ∈ segments, ∀ inner, Token.weightAll inner ≤ Token.weightAll tokens → shows segment inner →
      shows' segment inner) : Spelled shows' rooted segments tokens := by
  cases spelled with
  | @path segment segments shown more root spelled others =>
      simp only [Token.weightAll_append] at implies
      refine .path root (implies segment List.mem_cons_self shown (by omega) spelled) (others.imp ?_)
      exact fun segment member inner lighter => implies segment (List.mem_cons_of_mem _ member) inner (by omega)

end Changing

theorem Spelled.inExpression (spelled : Spelled SegmentOutline.Rereads rooted segments tokens)
    (callable : ∀ segment ∈ segments, segment.Callable) {n : Nat} (enough : 4 * Token.weightAll tokens ≤ n) :
    Spelled (ReadsSegment (.height n) true) rooted segments tokens :=
  spelled.imp fun segment member _ lighter rereads =>
    readsSegment_of_callable rereads (callable segment member) (by omega)

end Path

open Helper in
/-- A callable path that is read from what is printed of it is called with the argument in parentheses behind it. -/
theorem Source.reads_call {rooted : Bool} {segments : List SegmentOutline} {tokens rest content shown : List Token}
    {argument : ExpressionOutline} (spelled : Path.Spelled SegmentOutline.Rereads rooted segments tokens)
    (callable : ∀ segment ∈ segments, segment.Callable) (solid : Path.Solid rooted segments)
    (reads : ∀ level : Level, Reads (level.next.next.next.expression .anywhere) content [] argument shown)
    (present : content ≠ []) (span : Span) (stops : EntryEnd rest) :
    Reads (leveled fun level => level.expression .anywhere) (tokens ++ .group .parenthesis content span :: rest) rest
      (.call (.path false segments)) (tokens ++ [.group .parenthesis shown span]) := by
  refine reads_get fun s here => ?_
  have enough : 4 * Token.weightAll tokens ≤ 4 * Token.weightAll s.tokens + 14 := by
    rw [here, Token.weightAll_append]
    omega
  exact ExpressionOutline.reads_call stops (spelled.inExpression callable enough) callable solid (reads _) present span

end Replica
