import Replica.Proofs.Grammar.Reading

/-!
What a reader prints. Of a path that is read from a source every segment is printed, and its arguments behind a double
colon where the source has one.
-/

namespace Replica

namespace Token

mutual

theorem enter_tokens (token : Token) (rest : List Token) (endings others : List Ending) :
    (enter token rest endings).map Front.tokens = (enter token rest others).map Front.tokens := by
  cases token with
  | group delimiter content span =>
      cases delimiter with
      | invisible => exact enterAll_tokens content rest _ _
      | _ => rfl
  | _ => rfl

theorem enterAll_tokens (tokens rest : List Token) (endings others : List Ending) :
    (enterAll tokens rest endings).map Front.tokens = (enterAll tokens rest others).map Front.tokens := by
  cases tokens with
  | nil => rfl
  | cons token more =>
      simp only [enterAll, Option.orElse_eq_orElse, Option.orElse_eq_or, Option.map_or,
        enter_tokens token (more ++ rest) endings others, enterAll_tokens more rest endings others]

end

/-- Which groups end where does not decide what is visible. -/
theorem front_tokens (tokens : List Token) (endings : List Ending) :
    (front tokens endings).tokens = Ahead.visible tokens := by
  unfold Ahead.visible
  cases tokens with
  | nil => rfl
  | cons token rest =>
      cases token with
      | group delimiter content span =>
          cases delimiter with
          | invisible =>
              have same := enterAll_tokens (.group .invisible content span :: rest) [] endings []
              have shown (result : Option Front) :
                  (result.getD ⟨[], []⟩).tokens = (result.map Front.tokens).getD [] := by cases result <;> rfl
              change ((enterAll _ [] endings).getD ⟨[], []⟩).tokens = ((enterAll _ [] []).getD ⟨[], []⟩).tokens
              rw [shown, shown, same]
          | _ => rfl
      | _ => rfl

end Token

namespace Parser

variable {α β : Type}

/-- Behind what was printed before, the reader prints something of which `holds` is true together with its answer. -/
def Prints (p : Parser α) (holds : α → List Token → Prop) : Prop :=
  ∀ s a last, p s = .ok (a, last) → ∃ shown, last.printed = shown.reverse ++ s.printed ∧ holds a shown

variable {p : Parser α} {q : α → Parser β} {holds : α → List Token → Prop} {holdsNext : β → List Token → Prop}

theorem prints_pure {a : α} (printed : holds a []) : Prints (pure a) holds := by
  rintro s _ _ ⟨⟩
  exact ⟨[], rfl, printed⟩

theorem Prints.bind (first : Prints p holds)
    (next : ∀ a shown, holds a shown → Prints (q a) fun b more => holdsNext b (shown ++ more)) :
    Prints (p >>= q) holdsNext := by
  intro s b last read
  obtain ⟨a, middle, readFirst, readNext⟩ := bind_eq_ok_iff.mp read
  obtain ⟨shown, printed, answered⟩ := first s a middle readFirst
  obtain ⟨more, printedNext, answeredNext⟩ := next a shown answered middle b last readNext
  exact ⟨shown ++ more, by rw [printedNext, printed, List.reverse_append, List.append_assoc], answeredNext⟩

theorem Prints.mono {weaker : α → List Token → Prop} (prints : Prints p holds)
    (implies : ∀ a shown, holds a shown → weaker a shown) : Prints p weaker := by
  intro s a last read
  obtain ⟨shown, printed, answered⟩ := prints s a last read
  exact ⟨shown, printed, implies a shown answered⟩

/-- A reader that only looks at the state before it goes on. -/
theorem prints_get {q : State → Parser β} (next : ∀ s, Prints (q s) holdsNext) : Prints (get >>= q) holdsNext :=
  fun s b last read => next s s b last read

theorem prints_peek {ahead : Ahead} {q : Bool → Parser β} (next : ∀ seen, Prints (q seen) holdsNext) :
    Prints (peek ahead >>= q) holdsNext :=
  fun s b last read => next (ahead s.tokens) s b last read

theorem refuse_ne_ok {cause : Cause} {s last : State} {a : α} : refuse cause s ≠ .ok (a, last) := by
  intro read
  obtain ⟨_, _, _, read⟩ := bind_eq_ok_iff.mp read
  obtain ⟨_, _, _, read⟩ := bind_eq_ok_iff.mp read
  cases read

theorem prints_refuse {cause : Cause} : Prints (refuse cause) holds :=
  fun _ _ _ read => absurd read refuse_ne_ok

theorem prints_print {tokens : List Token} : Prints (print tokens) fun _ shown => shown = tokens := by
  rintro s _ _ ⟨⟩
  exact ⟨tokens, rfl, rfl⟩

theorem Prints.withhold (prints : Prints p holds) :
    Prints (withhold p) fun answer shown => shown = [] ∧ holds answer.1 answer.2 := by
  intro s answer last read
  obtain ⟨before, s', look, read⟩ := bind_eq_ok_iff.mp read
  cases look
  obtain ⟨_, cleared, clear, read⟩ := bind_eq_ok_iff.mp read
  cases clear
  obtain ⟨a, middle, readFirst, read⟩ := bind_eq_ok_iff.mp read
  cases read
  obtain ⟨shown, printed, answered⟩ := prints _ a middle readFirst
  refine ⟨[], rfl, rfl, ?_⟩
  have all : middle.printed.reverse = shown := by rw [printed]; simp
  exact all ▸ answered

theorem prints_withhold : Prints (Parser.withhold p) fun _ shown => shown = [] := by
  intro s answer last read
  obtain ⟨before, s', look, read⟩ := bind_eq_ok_iff.mp read
  cases look
  obtain ⟨_, cleared, _, read⟩ := bind_eq_ok_iff.mp read
  obtain ⟨a, middle, _, read⟩ := bind_eq_ok_iff.mp read
  cases read
  exact ⟨[], rfl, rfl⟩

theorem Prints.capture (prints : Prints p holds) :
    Prints (capture p) fun answer shown => answer.2 = shown ∧ holds answer.1 shown := by
  refine prints.withhold.bind ?_
  rintro ⟨a, inner⟩ _ ⟨rfl, answered⟩
  refine prints_print.bind ?_
  rintro _ shown rfl
  exact prints_pure ⟨by simp, by simpa using answered⟩

/-- What is printed by all rounds, from what is printed by one. -/
theorem Prints.manyWhile {holdsAll : List α → List Token → Prop} (prints : Prints p holds) (nothing : holdsAll [] [])
    (next : ∀ a shown as more, holds a shown → holdsAll as more → holdsAll (a :: as) (shown ++ more)) {ahead : Ahead} :
    Prints (manyWhile ahead p) holdsAll := by
  have rounds (fuel : Nat) : Prints (rounds fuel do
      if ← peek ahead then return some (← p) else return none) holdsAll := by
    induction fuel with
    | zero => exact prints_refuse
    | succ fuel ih =>
        rw [Parser.rounds, bind_assoc]
        refine prints_peek fun present => ?_
        cases present with
        | false => exact prints_pure nothing
        | true =>
            simp only [if_true, bind_assoc, pure_bind]
            refine prints.bind fun a shown answered => ih.bind fun as more others => prints_pure ?_
            rw [List.append_nil]
            exact next a shown as more answered others
  exact prints_get fun _ => rounds _

section Passing

theorem printed_pass {s : State} {shown : List Token} (visible : Ahead.visible s.tokens ≠ []) :
    (s.pass shown).printed = shown.reverse ++ s.printed := by
  rw [← Token.front_tokens s.tokens s.endings] at visible
  cases front : (Token.front s.tokens s.endings).tokens with
  | nil => exact absurd front visible
  | cons token rest => simp only [State.pass, front]

theorem visible_ne_nil_of_word? {tokens : List Token} {word : Name} (ahead : Ahead.word? tokens = some word) :
    Ahead.visible tokens ≠ [] := by
  intro nothing
  rw [Ahead.word?, nothing] at ahead
  cases ahead

theorem printed_keep {s last : State} {shown : Token} (visible : Ahead.visible s.tokens ≠ [])
    (read : keep shown s = .ok ((), last)) : last.printed = shown :: s.printed := by
  cases read
  exact printed_pass visible

theorem anyWord_eq_ok {s last : State} {word : Name} (read : anyWord s = .ok (word, last)) :
    Ahead.word? s.tokens = some word ∧ last.printed = word.token :: s.printed := by
  obtain ⟨s', _, look, read⟩ := bind_eq_ok_iff.mp read
  cases look
  cases ahead : Ahead.word? s.tokens with
  | none =>
      simp only [ahead] at read
      exact absurd read refuse_ne_ok
  | some found =>
      simp only [ahead] at read
      obtain ⟨_, middle, kept, final⟩ := bind_eq_ok_iff.mp read
      cases final
      exact ⟨rfl, printed_keep (visible_ne_nil_of_word? ahead) kept⟩

theorem name_eq_ok {s last : State} {word : Name} (read : name s = .ok (word, last)) :
    Ahead.reserved.contains word.text = false ∧ last.printed = word.token :: s.printed := by
  obtain ⟨s', _, look, read⟩ := bind_eq_ok_iff.mp read
  cases look
  cases ahead : Ahead.word? s.tokens with
  | none =>
      simp only [ahead] at read
      exact absurd read refuse_ne_ok
  | some found =>
      simp only [ahead] at read
      split at read
      next =>
        exact absurd read refuse_ne_ok
      next free =>
        obtain ⟨_, middle, kept, final⟩ := bind_eq_ok_iff.mp read
        cases final
        exact ⟨Bool.eq_false_iff.mpr free, printed_keep (visible_ne_nil_of_word? ahead) kept⟩

end Passing

section Symbols

/-- The characters of a symbol as they are printed: joined to one another, and open at the end. -/
inductive Joined : List Char → List Token → Prop where
  | last (c : Char) (span : Span) : Joined [c] [.mark c false span]
  | next (c : Char) (span : Span) {d : Char} {cs : List Char} {shown : List Token} (joined : Joined (d :: cs) shown) :
      Joined (c :: d :: cs) (.mark c true span :: shown)

theorem pass_tokens {s : State} {shown rest : List Token} {token : Token}
    (visible : Ahead.visible s.tokens = token :: rest) : (s.pass shown).tokens = rest := by
  rw [← Token.front_tokens s.tokens s.endings] at visible
  simp only [State.pass, visible]

/-- One character is printed for the one that stands in front, and the others are read behind it. -/
theorem passMarks_cons_eq_ok {c : Char} {cs : List Char} {s last : State} {token : Token} {rest : List Token}
    (visible : Ahead.visible s.tokens = token :: rest) (read : passMarks (c :: cs) s = .ok ((), last)) :
    ∃ middle : State, middle.printed = .mark c (!cs.isEmpty) token.span :: s.printed ∧ middle.tokens = rest ∧
      passMarks cs middle = .ok ((), last) := by
  unfold passMarks at read
  obtain ⟨s', _, look, read⟩ := bind_eq_ok_iff.mp read
  cases look
  simp only [visible] at read
  obtain ⟨_, middle, passed, read⟩ := bind_eq_ok_iff.mp read
  cases passed
  exact ⟨_, printed_pass (by simp [visible]), pass_tokens visible, read⟩

theorem printed_passMarks {c : Char} {cs : List Char} {s last : State} (ahead : Ahead.marks (c :: cs) s.tokens = true)
    (read : passMarks (c :: cs) s = .ok ((), last)) :
    ∃ shown, last.printed = shown.reverse ++ s.printed ∧ Joined (c :: cs) shown := by
  induction cs generalizing c s with
  | nil =>
      unfold Ahead.marks at ahead
      split at ahead
      next d joint span rest visible =>
        obtain ⟨middle, printed, -, read⟩ := passMarks_cons_eq_ok visible read
        cases read
        exact ⟨[.mark c false span], printed, .last c span⟩
      next => cases ahead
  | cons d cs ih =>
      unfold Ahead.marks at ahead
      split at ahead
      next e joint span rest visible =>
        simp only [List.isEmpty_cons, Bool.false_or, Bool.and_eq_true] at ahead
        obtain ⟨middle, printed, behind, read⟩ := passMarks_cons_eq_ok visible read
        obtain ⟨shown, printed', joined⟩ := ih (by rw [behind]; exact ahead.2.2) read
        refine ⟨_, ?_, .next c span joined⟩
        simp [printed', printed, Token.span]
      next => cases ahead

theorem prints_symbol {text : String} {c : Char} {cs : List Char} (characters : text.toList = c :: cs) :
    Prints (symbol text) fun _ shown => Joined (c :: cs) shown := by
  intro s answer last read
  have passes {span : Span} (read : (if Ahead.symbol text s.tokens then do
      passMarks text.toList
      return span
    else failAt span (.expected [.symbol text])) s = .ok (answer, last)) :
      ∃ shown, last.printed = shown.reverse ++ s.printed ∧ Joined (c :: cs) shown := by
    split at read
    next ahead =>
      obtain ⟨_, middle, passed, final⟩ := bind_eq_ok_iff.mp read
      cases final
      rw [characters] at passed
      exact printed_passMarks (by rwa [Ahead.symbol, characters] at ahead) passed
    next => cases read
  -- Where an error would point is looked up first, and nothing is read for that.
  have pointed {place : Parser Span} (reads : ∀ s, ∃ span, place s = .ok (span, s))
      (read : (place >>= fun span => if Ahead.symbol text s.tokens then do
          passMarks text.toList
          return span
        else failAt span (.expected [.symbol text])) s = .ok (answer, last)) :
      ∃ shown, last.printed = shown.reverse ++ s.printed ∧ Joined (c :: cs) shown := by
    obtain ⟨span, middle, looked, read⟩ := bind_eq_ok_iff.mp read
    obtain ⟨found, same⟩ := reads s
    rw [same] at looked
    cases looked
    exact passes read
  have reads_here (s : State) : ∃ span, here s = .ok (span, s) := ⟨_, rfl⟩
  obtain ⟨_, _, look, read⟩ := bind_eq_ok_iff.mp read
  cases look
  cases visible : Ahead.visible s.tokens with
  | nil =>
      simp only [visible] at read
      exact pointed reads_here read
  | cons token rest =>
      cases token with
      | mark d joint span =>
          simp only [visible] at read
          split at read
          next => exact pointed reads_here read
          next => exact pointed (fun s => ⟨span, rfl⟩) read
      | _ =>
          simp only [visible] at read
          exact pointed reads_here read

end Symbols

end Parser

open Replica.Parser

namespace Path

/-- A double colon, or nothing. -/
def colonTokens (colons : Option (Span × Span)) : List Token :=
  colons.elim [] fun places => [.mark ':' true places.1, .mark ':' false places.2]

theorem prints_separator :
    Prints (symbol "::") fun _ shown => ∃ first second, shown = colonTokens (some (first, second)) := by
  have colons : "::".toList = [':', ':'] := rfl
  refine (prints_symbol colons).mono ?_
  rintro _ _ (⟨⟩ | @⟨_, first, _, _, _, ⟨_, second⟩⟩)
  exact ⟨first, second, rfl⟩

theorem prints_separator? :
    Prints (symbol? "::") fun seen shown => ∃ colons, seen = colons.isSome ∧ shown = colonTokens colons := by
  refine prints_peek fun seen => ?_
  cases seen with
  | false => exact prints_pure ⟨none, rfl, rfl⟩
  | true =>
      refine prints_separator.bind ?_
      rintro _ _ ⟨first, second, rfl⟩
      exact prints_pure ⟨some (first, second), rfl, by rw [List.append_nil]⟩

end Path

/-- The tokens show the segment: its name, and in angle brackets its arguments, behind a double colon in a turbofish. -/
inductive SegmentOutline.Spelled : SegmentOutline → List Token → Prop where
  | bare {word : Name} (isSegment : Path.IsSegment word) : Spelled (.bare word.text) [word.token]
  | generic {word : Name} (isSegment : Path.IsSegment word) (colons : Option (Span × Span)) (types : List TypeOutline)
      (start stop : Span) (arguments : List Token) :
      Spelled (.generic word.text colons.isSome types)
        (word.token :: Path.colonTokens colons ++ .mark '<' false start :: arguments ++ [.mark '>' false stop])
  | hollow {word : Name} (isSegment : Path.IsSegment word) (colons : Option (Span × Span)) (start stop : Span)
      (arguments : List Token) :
      Spelled (.hollow word.text colons.isSome)
        (word.token :: Path.colonTokens colons ++ .mark '<' false start :: arguments ++ [.mark '>' false stop])

namespace Path

/-- Segments behind double colons, each of which is shown by its tokens. -/
inductive SpelledBehind (shows : SegmentOutline → List Token → Prop) : List SegmentOutline → List Token → Prop where
  | nil : SpelledBehind shows [] []
  | cons {segment : SegmentOutline} {segments : List SegmentOutline} {shown more : List Token} (first second : Span)
      (spelled : shows segment shown) (others : SpelledBehind shows segments more) :
      SpelledBehind shows (segment :: segments) (colonTokens (some (first, second)) ++ shown ++ more)

/-- The tokens show the path. -/
inductive Spelled (shows : SegmentOutline → List Token → Prop) : Bool → List SegmentOutline → List Token → Prop where
  | path {segment : SegmentOutline} {segments : List SegmentOutline} {shown more : List Token}
      (root : Option (Span × Span)) (spelled : shows segment shown) (others : SpelledBehind shows segments more) :
      Spelled shows root.isSome (segment :: segments) (colonTokens root ++ shown ++ more)

end Path

/-- Arguments are printed in angle brackets, behind a double colon if they are read behind one. -/
def Level.Spells (level : Level) : Prop :=
  ∀ name, Prints (level.arguments name) fun segment shown => ∃ colons start stop arguments,
    shown = Path.colonTokens colons ++ .mark '<' false start :: arguments ++ [.mark '>' false stop] ∧
      (segment = .hollow name colons.isSome ∨ ∃ types, segment = .generic name colons.isSome types)

theorem Argument.prints_readAll {level : Level} {name : String} :
    Prints (readAll level name) fun segment shown => ∃ colons start stop arguments,
      shown = Path.colonTokens colons ++ .mark '<' false start :: arguments ++ [.mark '>' false stop] ∧
        (segment = .hollow name colons.isSome ∨ ∃ types, segment = .generic name colons.isSome types) := by
  refine Path.prints_separator?.bind ?_
  rintro _ _ ⟨colons, rfl, rfl⟩
  refine prints_withhold.bind ?_
  rintro ⟨⟨start, list, stop⟩, _⟩ _ rfl
  refine prints_print.bind ?_
  rintro _ _ rfl
  have shown (arguments : List Token) : Path.colonTokens colons ++ ([] ++ (.mark '<' false start ::
      arguments ++ [.mark '>' false stop] ++ [])) =
      Path.colonTokens colons ++ .mark '<' false start :: arguments ++ [.mark '>' false stop] := by simp
  split
  next => exact prints_pure ⟨colons, start, stop, _, shown _, .inl rfl⟩
  next => exact prints_pure ⟨colons, start, stop, _, shown _, .inr ⟨_, rfl⟩⟩

theorem Level.spells_height (n : Nat) : (height n).Spells := by
  cases n with
  | zero => exact fun _ => prints_refuse
  | succ n => exact fun _ => Argument.prints_readAll

namespace Path

variable {level : Level} {expression : Bool}

/-- The word of a segment, and whether it is one behind which no arguments are read. -/
def segmentWord : Parser (Name × Bool) := do
  if ← peek (.anyWordOf ["super", "self", "crate", "try"]) then return (← anyWord, true)
  else if ← peek (.word "Self") then return (← anyWord, false)
  else return (← name, false)

/-- What is read behind the name of a segment. -/
def behindWord (level : Level) (expression : Bool) (word : Name) : Parser SegmentOutline := do
  let direct := !expression && (← peek (.symbol "<")) && !(← peek (.any [.symbol "<=", .symbol "<<="]))
  if direct || ((← peek (.symbol "::")) && (← peek (.third (.symbol "<")))) then level.arguments word.text
  else return .bare word.text

theorem segment_eq :
    segment level expression = (segmentWord >>= fun answer =>
      if answer.2 then pure (.bare answer.1.text) else behindWord level expression answer.1) := by
  unfold segment segmentWord
  rw [bind_assoc]
  congr 1
  funext special
  cases special with
  | true => simp only [if_true, bind_assoc, pure_bind]
  | false =>
      simp only [Bool.false_eq_true, if_false, bind_assoc]
      congr 1
      funext isSelf
      cases isSelf with
      | true => simp only [if_true, bind_assoc, pure_bind, Bool.false_eq_true, if_false, behindWord]
      | false => simp only [bind_assoc, pure_bind, Bool.false_eq_true, if_false, behindWord]

theorem segmentWord_eq_ok {s last : State} {word : Name} {special : Bool}
    (read : segmentWord s = .ok ((word, special), last)) :
    IsSegment word ∧ last.printed = word.token :: s.printed := by
  have seen (texts : List String) (ahead : Ahead.anyWordOf texts s.tokens = true)
      (isWord : Ahead.word? s.tokens = some word) : texts.contains word.text = true := by
    simpa [Ahead.anyWordOf, isWord] using ahead
  unfold segmentWord at read
  obtain ⟨_, _, look, read⟩ := bind_eq_ok_iff.mp read
  cases look
  split at read
  next ahead =>
    obtain ⟨found, middle, readWord, final⟩ := bind_eq_ok_iff.mp read
    cases final
    obtain ⟨isWord, printed⟩ := anyWord_eq_ok readWord
    exact ⟨.inl (seen _ ahead isWord), printed⟩
  next =>
    obtain ⟨_, _, look, read⟩ := bind_eq_ok_iff.mp read
    cases look
    split at read
    next ahead =>
      obtain ⟨found, middle, readWord, final⟩ := bind_eq_ok_iff.mp read
      cases final
      obtain ⟨isWord, printed⟩ := anyWord_eq_ok readWord
      refine ⟨.inr (.inl ?_), printed⟩
      simpa [Ahead.word, isWord] using ahead
    next =>
      obtain ⟨found, middle, readWord, final⟩ := bind_eq_ok_iff.mp read
      cases final
      obtain ⟨free, printed⟩ := name_eq_ok readWord
      exact ⟨.inr (.inr free), printed⟩

theorem prints_segment (spells : level.Spells) : Prints (segment level expression) SegmentOutline.Spelled := by
  have words : Prints segmentWord fun answer shown => IsSegment answer.1 ∧ shown = [answer.1.token] := by
    rintro s ⟨word, special⟩ last read
    obtain ⟨isSegment, printed⟩ := segmentWord_eq_ok read
    exact ⟨[word.token], printed, isSegment, rfl⟩
  rw [segment_eq]
  refine words.bind ?_
  rintro ⟨word, special⟩ _ ⟨isSegment, rfl⟩
  cases special with
  | true => exact prints_pure (.bare isSegment)
  | false =>
      refine prints_peek fun _ => prints_peek fun _ => prints_peek fun _ => prints_peek fun _ => ?_
      dsimp only
      split
      next =>
        refine (spells word.text).mono ?_
        rintro segment _ ⟨colons, start, stop, arguments, rfl, rfl | ⟨types, rfl⟩⟩
        · simpa using SegmentOutline.Spelled.hollow isSegment colons start stop arguments
        · simpa using SegmentOutline.Spelled.generic isSegment colons types start stop arguments
      next => exact prints_pure (.bare isSegment)

theorem prints_more (spells : level.Spells) :
    Prints (more level expression) (SpelledBehind SegmentOutline.Spelled) := by
  have prints : Prints (do
      let _ ← symbol "::"
      segment level expression) fun segment shown => ∃ first second inner, segment.Spelled inner ∧
        shown = colonTokens (some (first, second)) ++ inner := by
    refine prints_separator.bind ?_
    rintro _ _ ⟨first, second, rfl⟩
    exact (prints_segment spells).mono fun segment shown spelled => ⟨first, second, shown, spelled, rfl⟩
  refine prints.manyWhile .nil ?_
  rintro segment _ segments more ⟨first, second, inner, spelled, rfl⟩ others
  exact .cons first second spelled others

theorem prints_plain (spells : level.Spells) :
    Prints (plain level expression) fun answer shown => Spelled SegmentOutline.Spelled answer.1 answer.2 shown := by
  refine prints_separator?.bind ?_
  rintro _ _ ⟨root, rfl, rfl⟩
  refine (prints_segment spells).bind fun segment shown spelled => ?_
  refine (prints_more spells).bind fun segments more others => ?_
  refine prints_pure ?_
  have path := Spelled.path root spelled others
  simpa using path

theorem spelled_text {n : Nat} {s last : State} {path : PathText}
    (read : text (.height n) s = .ok (path, last)) :
    Spelled SegmentOutline.Spelled path.rooted path.segments path.tokens := by
  obtain ⟨⟨⟨rooted, segments⟩, tokens⟩, middle, captured, final⟩ := bind_eq_ok_iff.mp read
  cases final
  obtain ⟨_, _, rfl, spelled⟩ := (prints_plain (Level.spells_height n)).capture s _ last captured
  exact spelled

end Path

end Replica
