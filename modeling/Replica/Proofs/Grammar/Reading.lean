import Replica.Grammar.Source
import Replica.Proofs.Class.Attributes

/-!
What a reader takes from a list of tokens. The answer, what is left and what is printed are told by the tokens
alone, whatever was read and printed before them.
-/

namespace Replica

theorem Token.weightAll_append {front back : List Token} :
    weightAll (front ++ back) = weightAll front + weightAll back := by
  induction front with
  | nil => exact (Nat.zero_add _).symm
  | cons token front ih =>
      simp only [List.cons_append, weightAll, ih]
      omega

namespace Parser

variable {α β : Type}

/-- From these tokens the reader takes all in front of `rest`. It answers `a` and prints `shown`. -/
def Reads (p : Parser α) (tokens rest : List Token) (a : α) (shown : List Token) : Prop :=
  ∀ s : State, s.tokens = tokens → ∃ last, p s = .ok (a, last) ∧ last.tokens = rest ∧
    last.leftover = s.leftover ∧ last.printed = shown.reverse ++ s.printed

variable {p : Parser α} {q : α → Parser β} {tokens middle rest shown more : List Token} {a : α} {b : β}

theorem reads_pure : Reads (pure a) tokens tokens a [] := by
  intro s here
  exact ⟨s, rfl, here, rfl, rfl⟩

theorem Reads.bind (first : Reads p tokens middle a shown) (next : Reads (q a) middle rest b more) :
    Reads (p >>= q) tokens rest b (shown ++ more) := by
  intro s here
  obtain ⟨inner, read, left, kept, printed⟩ := first s here
  obtain ⟨last, readNext, leftNext, keptNext, printedNext⟩ := next inner left
  refine ⟨last, bind_eq_ok_iff.mpr ⟨a, inner, read, readNext⟩, leftNext, keptNext.trans kept, ?_⟩
  rw [printedNext, printed, List.reverse_append, List.append_assoc]

theorem Reads.answer {f : α → β} (first : Reads p tokens rest a shown) :
    Reads (do return f (← p)) tokens rest (f a) shown := by
  have both := Reads.bind (q := fun a => pure (f a)) first reads_pure
  rwa [List.append_nil] at both

theorem reads_peek (ahead : Ahead) : Reads (peek ahead) tokens tokens (ahead tokens) [] := by
  rintro s rfl
  exact ⟨s, rfl, rfl, rfl, rfl⟩

/-- A reader that only looks at the state before it goes on. -/
theorem reads_get {q : State → Parser β} (next : ∀ s : State, s.tokens = tokens → Reads (q s) tokens rest b shown) :
    Reads (get >>= q) tokens rest b shown := by
  intro s here
  exact next s here s here

theorem Reads.capture (first : Reads p tokens rest a shown) : Reads (capture p) tokens rest (a, shown) shown := by
  intro s here
  obtain ⟨last, read, left, kept, printed⟩ := first { s with printed := [] } here
  refine ⟨{ last with printed := shown.reverse ++ s.printed }, ?_, left, kept, rfl⟩
  have withheld : withhold p s = .ok ((a, shown), { last with printed := s.printed }) := by
    refine bind_eq_ok_iff.mpr ⟨s, s, rfl, bind_eq_ok_iff.mpr ⟨(), _, rfl, bind_eq_ok_iff.mpr ⟨a, last, read, ?_⟩⟩⟩
    have all : last.printed.reverse = shown := by rw [printed]; simp
    rw [← all]
    rfl
  exact bind_eq_ok_iff.mpr ⟨_, _, withheld, rfl⟩

/-- What is known of the tokens ahead decides how the reader goes on. -/
theorem Reads.peek {ahead : Ahead} {flag : Bool} {q : Bool → Parser β} (seen : ahead tokens = flag)
    (next : Reads (q flag) tokens rest b shown) : Reads (Parser.peek ahead >>= q) tokens rest b shown := by
  subst seen
  exact (reads_peek ahead).bind next

section Words

variable {word : Name}

theorem word?_token : Ahead.word? (word.token :: rest) = some word := rfl

theorem reads_pass {token : Token} (visible : Token.front (token :: rest) = fun endings => ⟨token :: rest, endings⟩) :
    Reads (modify fun s => s.pass shown) (token :: rest) rest () shown := by
  rintro ⟨_, scope, enclosing, passed, endings, leftover, printed⟩ rfl
  refine ⟨_, rfl, ?_, ?_, ?_⟩ <;> simp [State.pass, visible]

theorem reads_keep (shown : Token) : Reads (keep shown) (word.token :: rest) rest () [shown] :=
  reads_pass rfl

theorem reads_anyWord : Reads anyWord (word.token :: rest) rest word [word.token] := by
  unfold anyWord
  refine reads_get fun s here => ?_
  rw [here]
  exact (reads_keep word.token).answer

theorem reads_name (free : Ahead.reserved.contains word.text = false) :
    Reads name (word.token :: rest) rest word [word.token] := by
  unfold name
  refine reads_get fun s here => ?_
  simp only [here, word?_token, free]
  exact (reads_keep word.token).answer

theorem reads_literal {text : String} {span : Span} :
    Reads literal (.literal text span :: rest) rest ⟨text, span⟩ [.literal text span] := by
  unfold literal
  refine reads_get fun s here => ?_
  rw [here]
  exact (reads_pass rfl).answer

end Words

section Symbols

/-- The marks of a symbol, joined inside. It is printed open at its end. -/
inductive Marks (rest : List Token) : List Char → List Token → List Token → Prop where
  | last (c : Char) (joint : Bool) (span : Span) : Marks rest [c] (.mark c joint span :: rest) [.mark c false span]
  | joined (c : Char) (span : Span) {d : Char} {cs : List Char} {tokens shown : List Token}
      (marks : Marks rest (d :: cs) tokens shown) :
      Marks rest (c :: d :: cs) (.mark c true span :: tokens) (.mark c true span :: shown)

theorem Marks.ahead {cs : List Char} (marks : Marks rest cs tokens shown) : Ahead.marks cs tokens = true := by
  induction marks with
  | last c joint span => simp [Ahead.marks, Ahead.visible, Token.front]
  | joined c span marks ih => simpa [Ahead.marks, Ahead.visible, Token.front] using ih

theorem reads_passMarks {cs : List Char} (marks : Marks rest cs tokens shown) :
    Reads (passMarks cs) tokens rest () shown := by
  induction marks with
  | last c joint span =>
      unfold passMarks
      refine reads_get fun s here => ?_
      rw [here]
      exact (reads_pass rfl).answer
  | @joined c span d cs tokens shown marks ih =>
      unfold passMarks
      refine reads_get fun s here => ?_
      rw [here]
      exact (reads_pass rfl).bind ih

theorem Marks.front {cs : List Char} (marks : Marks rest cs tokens shown) :
    ∃ c joint span behind, tokens = .mark c joint span :: behind ∧ cs.head? = some c := by
  cases marks with
  | last c joint span => exact ⟨c, joint, span, _, rfl, rfl⟩
  | joined c span marks => exact ⟨c, true, span, _, rfl, rfl⟩

/-- A symbol is read with the place of its first character. -/
theorem Marks.reads_symbol {text : String} {c : Char} {joint : Bool} {span : Span} {behind : List Token}
    (marks : Marks rest text.toList (.mark c joint span :: behind) shown) (unquoted : c ≠ '\'') :
    Reads (symbol text) (.mark c joint span :: behind) rest span shown := by
  have ahead : Ahead.symbol text (.mark c joint span :: behind) = true := marks.ahead
  unfold symbol
  refine reads_get fun s here => ?_
  rw [here]
  simp only [ahead, if_true, Ahead.visible, Token.front, if_neg unquoted]
  exact reads_pure.bind (reads_passMarks marks).answer

theorem reads_symbol {text : String} (marks : Marks rest text.toList tokens shown)
    (unquoted : text.toList.head? ≠ some '\'') : ∃ span, Reads (symbol text) tokens rest span shown := by
  obtain ⟨c, joint, span, behind, rfl, isFirst⟩ := marks.front
  exact ⟨span, marks.reads_symbol fun isQuote => unquoted (isQuote ▸ isFirst)⟩

theorem reads_symbol? {text : String} (marks : Marks rest text.toList tokens shown)
    (unquoted : text.toList.head? ≠ some '\'') : Reads (symbol? text) tokens rest true shown := by
  obtain ⟨span, read⟩ := reads_symbol marks unquoted
  have seen : Ahead.symbol text tokens = true := marks.ahead
  exact Reads.peek seen read.answer

theorem reads_symbol?_of_absent {text : String} (absent : Ahead.symbol text tokens = false) :
    Reads (symbol? text) tokens tokens false [] :=
  Reads.peek absent reads_pure

end Symbols

section Loops

/-- The reader is run as long as `ahead` holds, and reads all in front of `rest`. -/
inductive Runs (ahead : Ahead) (p : Parser α) (rest : List Token) : List Token → List α → List Token → Prop where
  | stop (absent : ahead rest = false) : Runs ahead p rest rest [] []
  | next {tokens middle shown more : List Token} {a : α} {as : List α} (present : ahead tokens = true)
      (first : Reads p tokens middle a shown) (others : Runs ahead p rest middle as more) :
      Runs ahead p rest tokens (a :: as) (shown ++ more)

variable {ahead : Ahead} {as : List α}

theorem Runs.reads_rounds (runs : Runs ahead p rest tokens as shown) {fuel : Nat} (enough : as.length < fuel) :
    Reads (rounds fuel do if ← Parser.peek ahead then return some (← p) else return none) tokens rest as shown := by
  induction runs generalizing fuel with
  | stop absent =>
      have round : Reads (do if ← Parser.peek ahead then return some (← p) else return none) rest rest none [] :=
        Reads.peek absent reads_pure
      cases fuel with
      | zero => exact absurd enough (Nat.not_lt_zero _)
      | succ fuel =>
          rw [rounds]
          exact round.bind reads_pure
  | @next tokens middle shown more a as present first others ih =>
      have round : Reads (do if ← Parser.peek ahead then return some (← p) else return none) tokens middle (some a)
          shown := Reads.peek present first.answer
      cases fuel with
      | zero => exact absurd enough (Nat.not_lt_zero _)
      | succ fuel =>
          rw [rounds]
          exact round.bind (ih (Nat.lt_of_succ_lt_succ enough)).answer

theorem Runs.reads_manyWhile (runs : Runs ahead p rest tokens as shown)
    (enough : as.length ≤ Token.weightAll tokens) : Reads (manyWhile ahead p) tokens rest as shown := by
  refine reads_get fun s here => ?_
  rw [here]
  exact runs.reads_rounds (Nat.lt_succ_of_le enough)

end Loops

end Parser

namespace Source

open Replica.Parser

theorem reads_leveled {α : Type} {p : Level → Parser α} {tokens rest shown : List Token} {a : α}
    (reads : ∀ level, Reads (p level) tokens rest a shown) : Reads (leveled p) tokens rest a shown :=
  reads_get fun _ _ => reads _

end Source

namespace Path

open Replica.Parser

variable {level : Level} {rest : List Token}

/-- The word can be a segment of a path. -/
def IsSegment (word : Name) : Prop :=
  ["super", "self", "crate", "try"].contains word.text = true ∨ word.text = "Self" ∨
    Ahead.reserved.contains word.text = false

/-- Nothing that belongs to a path comes next. -/
structure Ends (rest : List Token) : Prop where
  unbracketed : Ahead.symbol "<" rest = false
  unseparated : Ahead.symbol "::" rest = false

theorem reads_segment {expression : Bool} {word : Name} (isSegment : IsSegment word)
    (unbracketed : Ahead.symbol "<" rest = false)
    (bare : (Ahead.symbol "::" rest && Ahead.third (.symbol "<") rest) = false) :
    Reads (segment level expression) (word.token :: rest) rest (.bare word.text) [word.token] := by
  have seen (ahead : Name → Bool) : (Ahead.word? (word.token :: rest)).any ahead = ahead word := rfl
  -- What stands behind the word is looked at, and nothing of it is taken.
  have behind : Reads (do
      let bracket ← peek (.symbol "<")
      let operator ← peek (.any [.symbol "<=", .symbol "<<="])
      let separator ← peek (.symbol "::")
      let later ← peek (.third (.symbol "<"))
      if (!expression && bracket && !operator) || (separator && later) then level.arguments word.text
      else return .bare word.text) rest rest (.bare word.text) [] := by
    refine Reads.peek unbracketed (Reads.peek rfl (Reads.peek rfl (Reads.peek rfl ?_)))
    simp only [Bool.and_false, Bool.false_and, Bool.false_or, bare]
    exact reads_pure
  unfold segment
  by_cases special : ["super", "self", "crate", "try"].contains word.text = true
  · have isSpecial : Ahead.anyWordOf ["super", "self", "crate", "try"] (word.token :: rest) = true :=
      (seen _).trans special
    exact Reads.peek isSpecial reads_anyWord.answer
  · have notSpecial : Ahead.anyWordOf ["super", "self", "crate", "try"] (word.token :: rest) = false :=
      (seen _).trans (Bool.eq_false_iff.mpr special)
    by_cases isSelf : word.text = "Self"
    · have self : Ahead.word "Self" (word.token :: rest) = true := (seen _).trans (decide_eq_true isSelf)
      exact Reads.peek notSpecial (Reads.peek self (reads_anyWord.bind behind))
    · have notSelf : Ahead.word "Self" (word.token :: rest) = false := (seen _).trans (decide_eq_false isSelf)
      have free : Ahead.reserved.contains word.text = false := by
        rcases isSegment with isSpecial | same | free
        · exact absurd isSpecial special
        · exact absurd same isSelf
        · exact free
      exact Reads.peek notSpecial (Reads.peek notSelf ((reads_name free).bind behind))

/-- A word behind a double colon, with the places of the two colons. -/
structure Step where
  first : Span
  second : Span
  word : Name

def stepTokens (steps : List Step) : List Token :=
  steps.flatMap fun step => [.mark ':' true step.first, .mark ':' false step.second, step.word.token]

/-- A path of words, perhaps behind a double colon. -/
def ofWords (root : Option (Span × Span)) (word : Name) (steps : List Step) : PathText where
  rooted := root.isSome
  segments := .bare word.text :: steps.map fun step => .bare step.word.text
  tokens := (root.elim [] fun (first, second) => [.mark ':' true first, .mark ':' false second]) ++
    word.token :: stepTokens steps

theorem marks_colons (first second : Span) :
    Marks rest "::".toList (.mark ':' true first :: .mark ':' false second :: rest)
      [.mark ':' true first, .mark ':' false second] :=
  .joined ':' first (.last ':' false second)

/-- Behind a segment stands what ends the path, or a double colon and a word. -/
theorem bare_steps (ends : Ends rest) (steps : List Step) :
    Ahead.symbol "<" (stepTokens steps ++ rest) = false ∧
      (Ahead.symbol "::" (stepTokens steps ++ rest) && Ahead.third (.symbol "<") (stepTokens steps ++ rest)) = false := by
  cases steps with
  | nil => exact ⟨ends.unbracketed, by rw [stepTokens, List.flatMap_nil, List.nil_append, ends.unseparated]; rfl⟩
  | cons step steps => exact ⟨rfl, rfl⟩

theorem runs_steps (ends : Ends rest) {steps : List Step} (allSegments : ∀ step ∈ steps, IsSegment step.word) :
    Runs separatorAhead (do
        let _ ← symbol "::"
        segment level false) rest (stepTokens steps ++ rest) (steps.map fun step => .bare step.word.text)
      (stepTokens steps) := by
  induction steps with
  | nil =>
      refine .stop ?_
      rw [separatorAhead, ends.unseparated]
      rfl
  | cons step steps ih =>
      obtain ⟨isSegment, others⟩ := List.forall_mem_cons.mp allSegments
      obtain ⟨unbracketed, bare⟩ := bare_steps ends steps
      obtain ⟨span, colons⟩ := reads_symbol (marks_colons step.first step.second) (by decide)
      exact .next rfl (colons.bind (reads_segment isSegment unbracketed bare)) (ih others)

theorem length_le_weightAll (steps : List Step) : steps.length ≤ Token.weightAll (stepTokens steps ++ rest) := by
  induction steps with
  | nil => exact Nat.zero_le _
  | cons step steps ih =>
      have weight : Token.weightAll (stepTokens (step :: steps) ++ rest) =
          1 + (1 + (1 + Token.weightAll (stepTokens steps ++ rest))) := rfl
      rw [weight, List.length_cons]
      omega

theorem reads_text {root : Option (Span × Span)} {word : Name} {steps : List Step} (isSegment : IsSegment word)
    (allSegments : ∀ step ∈ steps, IsSegment step.word) (ends : Ends rest) :
    Reads (text level) ((ofWords root word steps).tokens ++ rest) rest (ofWords root word steps)
      (ofWords root word steps).tokens := by
  have others : Reads (more level false) (stepTokens steps ++ rest) rest
      (steps.map fun step => .bare step.word.text) (stepTokens steps) :=
    (runs_steps ends allSegments).reads_manyWhile (by rw [List.length_map]; exact length_le_weightAll steps)
  obtain ⟨unbracketed, bare⟩ := bare_steps ends steps
  have segments : Reads (do
        let first ← segment level false
        return (root.isSome, first :: (← more level false)))
      (word.token :: (stepTokens steps ++ rest)) rest
      (root.isSome, .bare word.text :: steps.map fun step => .bare step.word.text) (word.token :: stepTokens steps) :=
    (reads_segment isSegment unbracketed bare).bind others.answer
  have path : Reads (plain level false) ((ofWords root word steps).tokens ++ rest) rest
      (root.isSome, .bare word.text :: steps.map fun step => .bare step.word.text) (ofWords root word steps).tokens := by
    cases root with
    | none => exact (reads_symbol?_of_absent rfl).bind segments
    | some root => exact (reads_symbol? (marks_colons root.1 root.2) (by decide)).bind segments
  exact path.capture.answer

end Path

end Replica
