import Replica.Proofs.Grammar.Consuming
import Replica.Class.Definition

/-!
How a class is read: one item after the other, up to the end of the tokens. What is accepted and what is blamed are
told by the items alone, without the bound on their number that the reader of a class carries.
-/

namespace Replica

open Replica.Parser

namespace Parser

variable {α β : Type} {p : Parser α} {q : α → Parser β} {s middle : State} {a : α} {fault : Fault}

theorem bind_of_ok (first : p s = .ok (a, middle)) : (p >>= q) s = q a middle := by
  have stepped : (p >>= q) s = (p s >>= fun pair => q pair.1 pair.2) := rfl
  rw [stepped, first]
  rfl

theorem bind_of_error (first : p s = .error fault) : (p >>= q) s = .error fault := by
  have stepped : (p >>= q) s = (p s >>= fun pair => q pair.1 pair.2) := rfl
  rw [stepped, first]
  rfl

theorem get_eq : (get : Parser State) s = .ok (s, s) := rfl

theorem atEnd_of_end (ended : s.tokens = []) : atEnd s = .ok (true, s) := by
  have looked : atEnd s = .ok (s.tokens.isEmpty, s) := rfl
  rw [looked, ended, List.isEmpty_nil]

theorem atEnd_of_more (more : s.tokens ≠ []) : atEnd s = .ok (false, s) := by
  have looked : atEnd s = .ok (s.tokens.isEmpty, s) := rfl
  rw [looked, List.isEmpty_eq_false_iff.mpr more]

theorem refuse_of_end {cause : Cause} (ended : s.tokens = []) :
    (refuse cause : Parser α) s = .error ⟨cause, true, s.scope⟩ := by
  have refused : (refuse cause : Parser α) s =
      .error ⟨cause, s.tokens.isEmpty, (s.tokens.head?.map Token.frontSpan).getD s.scope⟩ := rfl
  rw [refused, ended]
  rfl

end Parser

namespace Item

def IsBlock (item : Item) : Prop := ∃ block, item = .implementation block

/-- The items are read one after the other, with nothing left out between them. -/
inductive Sequence (level : Level) : State → List Item → State → Prop where
  | nil (s : State) : Sequence level s [] s
  | cons {s middle last : State} {item : Item} {items : List Item} (first : readAny level s = .ok (item, middle))
      (others : Sequence level middle items last) : Sequence level s (item :: items) last

/-- Why no block is read where one has to follow: there is no item, or an item of another kind. -/
inductive Obstructs (level : Level) (s : State) : Fault → Prop where
  | malformed {fault : Fault} (fails : readAny level s = .error fault) : Obstructs level s fault
  | misplaced {item : Item} {last : State} (reads : readAny level s = .ok (item, last)) (other : ¬ item.IsBlock) :
      Obstructs level s ⟨.notAnImplementation, false, Token.spanAll item.tokens⟩

end Item

namespace ClassDefinition

open Item

variable {level : Level} {s middle last : State} {fault : Fault} {fuel : Nat} {blocks : List Implementation}
  {definition : ClassDefinition}

/-- The items of the definition, read one after the other, use up the tokens. -/
structure Accepts (level : Level) (s : State) (definition : ClassDefinition) (last : State) : Prop where
  items : Sequence level s (definition.declaration :: definition.blocks.map .implementation) last
  ended : last.tokens = []

/-- What a list of tokens is refused for as a class. -/
inductive Blames (level : Level) (s : State) : Fault → Prop where
  | nothing (ended : s.tokens = []) : Blames level s ⟨.expected [.described "a struct declaration"], true, s.scope⟩
  | declaration {fault : Fault} (more : s.tokens ≠ []) (fails : readAny level s = .error fault) : Blames level s fault
  | later {declaration : Item} {blocks : List Implementation} {last : State} {fault : Fault}
      (items : Sequence level s (declaration :: blocks.map .implementation) last) (more : last.tokens ≠ [])
      (obstructs : Obstructs level last fault) : Blames level s fault

section Blocks

variable [level.Shrinks] {block : Implementation}

omit [level.Shrinks] in
theorem readBlocks_of_end (ended : s.tokens = []) : readBlocks level (fuel + 1) s = .ok ([], s) :=
  bind_of_ok (atEnd_of_end ended)

theorem readBlocks_of_more (more : s.tokens ≠ []) :
    readBlocks level (fuel + 1) s = (do
      match ← readAny level with
      | .implementation block => return block :: (← readBlocks level fuel)
      | item => failAt (Token.spanAll item.tokens) .notAnImplementation) s := by
  rw [← read_eq_readAny]
  exact bind_of_ok (atEnd_of_more more)

/-- A block stands in front of what is read behind it. -/
theorem readBlocks_of_block (more : s.tokens ≠ []) (reads : readAny level s = .ok (.implementation block, middle)) :
    readBlocks level (fuel + 1) s =
      (readBlocks level fuel middle).map fun behind => (block :: behind.1, behind.2) := by
  rw [readBlocks_of_more more, bind_of_ok reads]
  cases others : readBlocks level fuel middle with
  | error fault => exact bind_of_error others
  | ok behind => exact bind_of_ok others

theorem readBlocks_of_obstructs (more : s.tokens ≠ []) (obstructs : Obstructs level s fault) :
    readBlocks level (fuel + 1) s = .error fault := by
  rw [readBlocks_of_more more]
  cases obstructs with
  | malformed fails => exact bind_of_error fails
  | @misplaced item last reads other =>
      rw [bind_of_ok reads]
      cases item with
      | implementation block => exact absurd ⟨block, rfl⟩ other
      | declaration d => rfl
      | other kind name tokens => rfl

theorem tokens_ne_nil_of_reads {item : Item} (reads : readAny level s = .ok (item, middle)) : s.tokens ≠ [] := by
  intro nothing
  have less := consumes_readAny.lt reads
  rw [nothing] at less
  exact absurd less (Nat.not_lt_zero _)

/-- Blocks that follow one another stand in front of what is read behind them. A bound on their number that is greater
than that of the tokens is not used up by them. -/
theorem exists_readBlocks_of_sequence (items : Sequence level s (blocks.map .implementation) last)
    (enough : Token.weightAll s.tokens < fuel) :
    ∃ left, readBlocks level fuel s =
      (readBlocks level (left + 1) last).map fun behind => (blocks ++ behind.1, behind.2) := by
  induction blocks generalizing s fuel with
  | nil =>
      cases items
      obtain ⟨left, rfl⟩ := Nat.exists_eq_succ_of_ne_zero (Nat.ne_zero_of_lt enough)
      refine ⟨left, ?_⟩
      cases readBlocks level (left + 1) last <;> rfl
  | cons block blocks ih =>
      cases items with
      | cons first others =>
          have less := consumes_readAny.lt first
          obtain ⟨rest, rfl⟩ := Nat.exists_eq_succ_of_ne_zero (Nat.ne_zero_of_lt enough)
          obtain ⟨left, same⟩ := ih others (by omega : Token.weightAll _ < rest)
          refine ⟨left, ?_⟩
          rw [readBlocks_of_block (tokens_ne_nil_of_reads first) first, same]
          cases readBlocks level (left + 1) last <;> rfl

theorem readBlocks_of_sequence (items : Sequence level s (blocks.map .implementation) last) (ended : last.tokens = [])
    (enough : Token.weightAll s.tokens < fuel) : readBlocks level fuel s = .ok (blocks, last) := by
  obtain ⟨left, same⟩ := exists_readBlocks_of_sequence items enough
  rw [same, readBlocks_of_end ended, Except.map, List.append_nil]

theorem readBlocks_of_sequence_of_obstructs (items : Sequence level s (blocks.map .implementation) last)
    (more : last.tokens ≠ []) (obstructs : Obstructs level last fault) (enough : Token.weightAll s.tokens < fuel) :
    readBlocks level fuel s = .error fault := by
  obtain ⟨left, same⟩ := exists_readBlocks_of_sequence items enough
  rw [same, readBlocks_of_obstructs more obstructs]
  rfl

/-- Blocks are read up to the end or up to an obstacle, since each of them takes a token. -/
theorem exists_blocks (level : Level) [level.Shrinks] (s : State) :
    ∃ (blocks : List Implementation) (last : State), Sequence level s (blocks.map .implementation) last ∧
      (last.tokens = [] ∨ last.tokens ≠ [] ∧ ∃ fault, Obstructs level last fault) := by
  induction weight : Token.weightAll s.tokens using Nat.strongRecOn generalizing s with
  | ind weight ih =>
      by_cases ended : s.tokens = []
      · exact ⟨[], s, .nil s, .inl ended⟩
      · cases reads : readAny level s with
        | error fault => exact ⟨[], s, .nil s, .inr ⟨ended, fault, .malformed reads⟩⟩
        | ok answer =>
            obtain ⟨item, middle⟩ := answer
            have less := consumes_readAny.lt reads
            by_cases isBlock : item.IsBlock
            · obtain ⟨block, rfl⟩ := isBlock
              obtain ⟨blocks, last, items, outcome⟩ := ih _ (weight ▸ less) middle rfl
              exact ⟨block :: blocks, last, .cons reads items, outcome⟩
            · exact ⟨[], s, .nil s, .inr ⟨ended, _, .misplaced reads isBlock⟩⟩

end Blocks

section Reading

variable [level.Shrinks]

theorem read_of_more (more : s.tokens ≠ []) :
    read level s = (do
      let declaration ← readAny level
      return ClassDefinition.mk declaration (← readBlocks level (Token.weightAll (← get).tokens + 1))) s := by
  rw [← read_eq_readAny]
  exact bind_of_ok (atEnd_of_more more)

theorem read_of_accepts (accepts : Accepts level s definition last) : read level s = .ok (definition, last) := by
  obtain ⟨items, ended⟩ := accepts
  cases items with
  | cons first others =>
      rw [read_of_more (tokens_ne_nil_of_reads first), bind_of_ok first, bind_of_ok get_eq]
      exact bind_of_ok (readBlocks_of_sequence others ended (Nat.lt_succ_self _))

theorem read_of_blames (blames : Blames level s fault) : read level s = .error fault := by
  cases blames with
  | nothing ended =>
      unfold ClassDefinition.read
      rw [bind_of_ok (atEnd_of_end ended), if_pos rfl]
      exact bind_of_error (refuse_of_end ended)
  | declaration more fails =>
      rw [read_of_more more]
      exact bind_of_error fails
  | later items more obstructs =>
      cases items with
      | cons first others =>
          rw [read_of_more (tokens_ne_nil_of_reads first), bind_of_ok first, bind_of_ok get_eq]
          exact bind_of_error (readBlocks_of_sequence_of_obstructs others more obstructs (Nat.lt_succ_self _))

/-- Every list of tokens is read to its end, or up to what is blamed. -/
theorem exists_outcome (level : Level) [level.Shrinks] (s : State) :
    (∃ definition last, Accepts level s definition last) ∨ ∃ fault, Blames level s fault := by
  by_cases ended : s.tokens = []
  · exact .inr ⟨_, .nothing ended⟩
  · cases first : readAny level s with
    | error fault => exact .inr ⟨fault, .declaration ended first⟩
    | ok answer =>
        obtain ⟨declaration, middle⟩ := answer
        obtain ⟨blocks, last, others, outcome⟩ := exists_blocks level middle
        rcases outcome with ended | ⟨more, fault, obstructs⟩
        · exact .inl ⟨⟨declaration, blocks⟩, last, .cons first others, ended⟩
        · exact .inr ⟨fault, .later (.cons first others) more obstructs⟩

theorem read_eq_ok_iff : read level s = .ok (definition, last) ↔ Accepts level s definition last := by
  refine ⟨fun reads => ?_, read_of_accepts⟩
  rcases exists_outcome level s with ⟨other, final, accepts⟩ | ⟨fault, blames⟩
  · have same := read_of_accepts accepts
    rw [reads] at same
    cases same
    exact accepts
  · rw [read_of_blames blames] at reads
    cases reads

theorem read_eq_error_iff : read level s = .error fault ↔ Blames level s fault := by
  refine ⟨fun reads => ?_, read_of_blames⟩
  rcases exists_outcome level s with ⟨other, final, accepts⟩ | ⟨fault, blames⟩
  · rw [read_of_accepts accepts] at reads
    cases reads
  · have same := read_of_blames blames
    rw [reads] at same
    cases same
    exact blames

end Reading

/-- Every item takes tokens, so that the reading of a class ends. It succeeds just if the items, read one after the
other, are those of the definition and use up the tokens. Otherwise it fails with what the tokens are blamed for: that
there are none, the first item that cannot be read, or the first later item that is no block. -/
theorem reads_one_item_after_another (n : Nat) :
    (∀ s item last, readAny (Level.height n) s = .ok (item, last) →
      Token.weightAll last.tokens < Token.weightAll s.tokens) ∧
    (∀ s, (∃ definition last, Accepts (Level.height n) s definition last) ∨ ∃ fault, Blames (Level.height n) s fault) ∧
    (∀ s definition last, read (Level.height n) s = .ok (definition, last) ↔
      Accepts (Level.height n) s definition last) ∧
    ∀ s fault, read (Level.height n) s = .error fault ↔ Blames (Level.height n) s fault :=
  ⟨fun _ _ _ => consumes_readAny.lt, exists_outcome (Level.height n), fun _ _ _ => read_eq_ok_iff,
    fun _ _ => read_eq_error_iff⟩

/-- `struct Unit; impl Unit {}` -/
def unitWithBlock : State :=
  .ofTokens [.word "struct" .origin, .word "Unit" .origin, .mark ';' false .origin, .word "impl" .origin,
    .word "Unit" .origin, .group .brace [] .origin] .origin

theorem unitWithBlock_reads_one_item_after_another :
    (∃ item last, readAny (Level.height 1) unitWithBlock = .ok (item, last) ∧
      Token.weightAll last.tokens < Token.weightAll unitWithBlock.tokens) ∧
    ∃ definition last, Accepts (Level.height 1) unitWithBlock definition last := by
  obtain ⟨takes, _, accepts, _⟩ := reads_one_item_after_another 1
  have first : ∃ item last, readAny (Level.height 1) unitWithBlock = .ok (item, last) := ⟨_, _, rfl⟩
  have whole : ∃ definition last, read (Level.height 1) unitWithBlock = .ok (definition, last) := ⟨_, _, rfl⟩
  obtain ⟨item, middle, reads⟩ := first
  obtain ⟨definition, last, readsAll⟩ := whole
  exact ⟨⟨item, middle, reads, takes _ _ _ reads⟩, definition, last, (accepts _ _ _).mp readsAll⟩

section Runs

variable {tokens : List Token}

/-- Where the reading of a whole list of tokens begins. -/
def start (tokens : List Token) : State :=
  .ofTokens tokens .origin

theorem ofTokens_eq :
    ofTokens tokens = (read (Level.forWeight (Token.weightAll tokens)) (start tokens) >>= fun answer =>
      match answer.2.leftover <|> Leftover.ofTokens answer.2.tokens .invisible with
      | some excess => .error ⟨.leftover excess.enclosing, false, excess.span⟩
      | none => .ok answer.1) :=
  rfl

theorem leftover_of_ended (ended : last.tokens = []) :
    (last.leftover <|> Leftover.ofTokens last.tokens .invisible) = last.leftover := by
  rw [ended]
  cases last.leftover <;> rfl

/-- Tokens are accepted as a class if no group among them holds more than was read of it. -/
theorem ofTokens_eq_ok_iff : ofTokens tokens = .ok definition ↔
    ∃ last, Accepts (Level.forWeight (Token.weightAll tokens)) (start tokens) definition last ∧
      last.leftover = none := by
  rw [ofTokens_eq, Except.bind_eq_ok_iff, Prod.exists]
  constructor
  · rintro ⟨other, last, reads, finished⟩
    have accepts := read_eq_ok_iff.mp reads
    simp only [leftover_of_ended accepts.ended] at finished
    split at finished
    next => cases finished
    next tidy =>
      cases finished
      exact ⟨last, accepts, tidy⟩
  · rintro ⟨last, accepts, tidy⟩
    refine ⟨definition, last, read_eq_ok_iff.mpr accepts, ?_⟩
    simp only [(leftover_of_ended accepts.ended).trans tidy]

/-- An excess of tokens in a group is reported only where all else is fine. -/
theorem ofTokens_eq_error_iff : ofTokens tokens = .error fault ↔
    Blames (Level.forWeight (Token.weightAll tokens)) (start tokens) fault ∨
      ∃ definition last excess, Accepts (Level.forWeight (Token.weightAll tokens)) (start tokens) definition last ∧
        last.leftover = some excess ∧ fault = ⟨.leftover excess.enclosing, false, excess.span⟩ := by
  rw [ofTokens_eq, Except.bind_eq_error_iff, Prod.exists, read_eq_error_iff]
  refine or_congr_right ?_
  constructor
  · rintro ⟨definition, last, reads, finished⟩
    have accepts := read_eq_ok_iff.mp reads
    simp only [leftover_of_ended accepts.ended] at finished
    split at finished
    next excess found =>
      cases finished
      exact ⟨definition, last, excess, accepts, found, rfl⟩
    next => cases finished
  · rintro ⟨definition, last, excess, accepts, found, rfl⟩
    refine ⟨definition, last, read_eq_ok_iff.mpr accepts, ?_⟩
    simp only [(leftover_of_ended accepts.ended).trans found]

end Runs

end ClassDefinition

end Replica
