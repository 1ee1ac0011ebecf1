import Replica.Proofs.Grammar.Reading

/-!
Entries of helper attributes as they are written: keys with their values, with commas between them, in delimiters of
any kind. However many attributes they stand in, they are read in their order.
-/

namespace Replica

/-- The arguments of the attribute are these tokens, in delimiters of any kind. -/
def Attribute.Delimits (a : Attribute) (tokens : List Token) : Prop :=
  ∃ (delimiter : Delimiter) (level : Level) (s last : State) (span : Span) (rest : List Token),
    delimiter ≠ .invisible ∧ s.tokens = .group delimiter tokens span :: rest ∧
      Attribute.readArguments level s = .ok (a.arguments, last)

theorem Attribute.reads_readArguments (level : Level) {delimiter : Delimiter} {tokens rest : List Token} {span : Span}
    (visible : delimiter ≠ .invisible) :
    Parser.Reads (readArguments level) (.group delimiter tokens span :: rest) rest (.list tokens span)
      [.group delimiter tokens span] := by
  have seen : Ahead.any [.group .parenthesis, .group .bracket, .group .brace]
      (.group delimiter tokens span :: rest) = true := by
    cases delimiter with
    | invisible => exact absurd rfl visible
    | _ => rfl
  have front : Token.front (.group delimiter tokens span :: rest) =
      fun endings => ⟨.group delimiter tokens span :: rest, endings⟩ := by
    cases delimiter with
    | invisible => exact absurd rfl visible
    | _ => rfl
  refine Parser.Reads.peek seen ?_
  have group : Parser.Reads Parser.rawGroup (.group delimiter tokens span :: rest) rest (delimiter, tokens, span)
      [.group delimiter tokens span] := by
    unfold Parser.rawGroup
    refine Parser.reads_get fun s here => ?_
    simp only [here, if_neg visible]
    exact (Parser.reads_pass front).answer
  exact group.answer

theorem Attribute.Delimits.arguments_eq {a : Attribute} {tokens : List Token} (delimits : a.Delimits tokens) :
    ∃ span, a.arguments = .list tokens span := by
  obtain ⟨delimiter, level, s, last, span, rest, visible, here, read⟩ := delimits
  obtain ⟨_, same, _⟩ := Attribute.reads_readArguments level visible s here
  exact ⟨span, (Prod.mk.inj (Except.ok.inj (read.symm.trans same))).1⟩

theorem Attribute.delimits_iff {a : Attribute} {tokens : List Token} :
    a.Delimits tokens ↔ ∃ span, a.arguments = .list tokens span := by
  refine ⟨Attribute.Delimits.arguments_eq, ?_⟩
  rintro ⟨span, arguments⟩
  have visible : Delimiter.parenthesis ≠ .invisible := by decide
  obtain ⟨last, read, _⟩ := reads_readArguments .exhausted visible
    (.ofTokens [.group .parenthesis tokens span] .origin) rfl
  exact ⟨_, _, _, last, span, [], visible, rfl, arguments ▸ read⟩

namespace Helper

open Replica.Parser

variable {α β : Type} {vocabulary : Vocabulary α}

/-- What may follow an entry: the end of the list, or a comma. -/
inductive EntryEnd : List Token → Prop where
  | list : EntryEnd []
  | comma (joint : Bool) (span : Span) (rest : List Token) : EntryEnd (.mark ',' joint span :: rest)

theorem EntryEnd.path_ends {rest : List Token} (stops : EntryEnd rest) : Path.Ends rest := by
  cases stops with
  | list => exact ⟨rfl, rfl⟩
  | comma joint span rest => exact ⟨rfl, rfl⟩

section Keys

variable {root : Option (Span × Span)} {word : Name} {steps : List Path.Step} {tokens rest : List Token}

def keyOf (root : Option (Span × Span)) (word : Name) (steps : List Path.Step) : AttributePath :=
  ⟨root.isSome, word :: steps.map Path.Step.word⟩

theorem runs_keySteps (unseparated : Ahead.symbol "::" rest = false) (steps : List Path.Step) :
    Runs (.symbol "::") (do
        let _ ← symbol "::"
        anyWord) rest (Path.stepTokens steps ++ rest) (steps.map Path.Step.word) (Path.stepTokens steps) := by
  induction steps with
  | nil => exact .stop unseparated
  | cons step steps ih =>
      obtain ⟨span, colons⟩ := reads_symbol (Path.marks_colons step.first step.second) (by decide)
      exact .next rfl (colons.bind reads_anyWord) ih

theorem reads_readKey (root : Option (Span × Span)) (word : Name) (steps : List Path.Step)
    (unseparated : Ahead.symbol "::" rest = false) :
    Reads readKey ((Path.ofWords root word steps).tokens ++ rest) rest (keyOf root word steps)
      (Path.ofWords root word steps).tokens := by
  have others : Reads (manyWhile (.symbol "::") do
      let _ ← symbol "::"
      anyWord) (Path.stepTokens steps ++ rest) rest (steps.map Path.Step.word) (Path.stepTokens steps) :=
    (runs_keySteps unseparated steps).reads_manyWhile (by rw [List.length_map]; exact Path.length_le_weightAll steps)
  have words : Reads (do
        let first ← anyWord
        let rest ← manyWhile (.symbol "::") do
          let _ ← symbol "::"
          anyWord
        return (⟨root.isSome, first :: rest⟩ : AttributePath))
      (word.token :: (Path.stepTokens steps ++ rest)) rest (keyOf root word steps) (word.token :: Path.stepTokens steps) :=
    reads_anyWord.bind others.answer
  cases root with
  | none => exact (reads_symbol?_of_absent rfl).bind (Reads.peek rfl words)
  | some root => exact (reads_symbol? (Path.marks_colons root.1 root.2) (by decide)).bind (Reads.peek rfl words)

/-- An entry as it is written: a key of the vocabulary and the value that is read behind it, or a key that is not
known, and behind it anything. Behind a comma or the end of the list nothing is read. -/
inductive Written (vocabulary : Vocabulary α) : List Token → Option α → Prop where
  | known {word : Name} {value : Parser α} {tokens shown : List Token} {meaning : α}
      (known : vocabulary word.text = some value)
      (unseparated : ∀ rest, EntryEnd rest → Ahead.symbol "::" (tokens ++ rest) = false)
      (reads : ∀ rest, EntryEnd rest → Reads value (tokens ++ rest) rest meaning shown) :
      Written vocabulary (word.token :: tokens) (some meaning)
  | unknown {root : Option (Span × Span)} {word : Name} {steps : List Path.Step} {tokens : List Token}
      (unknown : keyReader vocabulary (keyOf root word steps) = none)
      (unseparated : ∀ rest, EntryEnd rest → Ahead.symbol "::" (tokens ++ rest) = false) :
      Written vocabulary ((Path.ofWords root word steps).tokens ++ tokens) none

/-- Wherever an entry stands in a list, it is read with its meaning, and up to its end if its key is known. -/
theorem Written.read {meaning : Option α} (written : Written vocabulary tokens meaning) {s : State}
    (here : s.tokens = tokens ++ rest) (stops : EntryEnd rest) :
    ∃ entry last, readEntry vocabulary s = .ok (entry, last) ∧ entry.meaning = meaning ∧
      (meaning ≠ none → last.tokens = rest ∧ last.leftover = s.leftover) := by
  cases written with
  | @unknown root word steps tokens unknown unseparated =>
      rw [List.append_assoc] at here
      obtain ⟨last, read, _⟩ := reads_readKey root word steps (unseparated rest stops) s here
      refine ⟨⟨none, word.span.join last.last⟩, last, ?_, rfl, fun known => absurd rfl known⟩
      unfold readEntry
      refine bind_eq_ok_iff.mpr ⟨_, last, read, ?_⟩
      rw [unknown]
      rfl
  | @known word value tokens shown meaning known unseparated reads =>
      obtain ⟨middle, read, left, kept, _⟩ := reads_readKey none word [] (unseparated rest stops) s here
      obtain ⟨last, readValue, leftLast, keptLast, _⟩ := reads rest stops middle left
      have isKnown : keyReader vocabulary (keyOf none word []) = some value := known
      refine ⟨⟨some meaning, word.span.join last.last⟩, last, ?_, rfl, fun _ => ⟨leftLast, keptLast.trans kept⟩⟩
      unfold readEntry
      refine bind_eq_ok_iff.mpr ⟨_, middle, read, ?_⟩
      rw [isKnown]
      exact bind_eq_ok_iff.mpr ⟨_, last, map_eq_ok_iff.mpr ⟨meaning, readValue, rfl⟩, rfl⟩

theorem Written.ne_nil {meaning : Option α} (written : Written vocabulary tokens meaning) : tokens ≠ [] := by
  cases written with
  | known known unseparated reads => exact List.cons_ne_nil _ _
  | unknown unknown unseparated =>
      simp [Path.ofWords]

theorem written_flag (word : Name) {meaning : α} (known : vocabulary word.text = some (pure meaning)) :
    Written vocabulary [word.token] (some meaning) :=
  .known known (fun _ stops => stops.path_ends.unseparated) fun _ _ => reads_pure

theorem written_assigned (word : Name) {γ : Type} {f : γ → α} {p : Parser γ} {a : γ} {shown : List Token} {joint : Bool}
    {span : Span} (known : vocabulary word.text = some do
      let _ ← symbol "="
      return f (← p))
    (reads : ∀ rest, EntryEnd rest → Reads p (tokens ++ rest) rest a shown) :
    Written vocabulary (word.token :: .mark '=' joint span :: tokens) (some (f a)) := by
  refine @Written.known _ _ _ _ _ (.mark '=' false span :: shown) _ known (fun _ _ => rfl) fun rest stops => ?_
  have marks : Marks (tokens ++ rest) "=".toList (.mark '=' joint span :: (tokens ++ rest)) [.mark '=' false span] :=
    .last '=' joint span
  obtain ⟨equals, sign⟩ := reads_symbol marks (by decide)
  exact sign.bind (reads rest stops).answer

end Keys

/-- The tokens are entries with commas between them and perhaps one behind them. -/
inductive Lists (vocabulary : Vocabulary α) : List Token → List (Option α) → Prop where
  | nil : Lists vocabulary [] []
  | last {tokens : List Token} {meaning : Option α} (written : Written vocabulary tokens meaning) :
      Lists vocabulary tokens [meaning]
  | cons {tokens rest : List Token} {meaning : Option α} {meanings : List (Option α)}
      (written : Written vocabulary tokens meaning) (joint : Bool) (span : Span) (others : Lists vocabulary rest meanings) :
      Lists vocabulary (tokens ++ .mark ',' joint span :: rest) (meaning :: meanings)

/-- Together the helper attributes among these list entries with these meanings. -/
inductive Groups (vocabulary : Vocabulary α) : List Attribute → List (Option α) → Prop where
  | nil : Groups vocabulary [] []
  | foreign {a : Attribute} {attributes : List Attribute} {meanings : List (Option α)} (isForeign : isHelper a = false)
      (others : Groups vocabulary attributes meanings) : Groups vocabulary (a :: attributes) meanings
  | helper {a : Attribute} {attributes : List Attribute} {tokens : List Token} {here meanings : List (Option α)}
      (isOwn : isHelper a = true) (delimits : a.Delimits tokens) (lists : Lists vocabulary tokens here)
      (others : Groups vocabulary attributes meanings) : Groups vocabulary (a :: attributes) (here ++ meanings)

/-- The entries have these meanings, up to the first without one. If all have one, no fault stands behind them. -/
inductive Follows : List (Entry α) → Option Fault → List (Option α) → Prop where
  | nil : Follows [] none []
  | unknown {entry : Entry α} {entries : List (Entry α)} {fault : Option Fault} {meanings : List (Option α)}
      (means : entry.meaning = none) : Follows (entry :: entries) fault (none :: meanings)
  | known {entry : Entry α} {entries : List (Entry α)} {fault : Option Fault} {meanings : List (Option α)} {a : α}
      (means : entry.meaning = some a) (others : Follows entries fault meanings) :
      Follows (entry :: entries) fault (some a :: meanings)

section Reading

/-- Whatever stands behind an entry that was read, the entry comes first. -/
theorem readEntries_of_readEntry (fuel : Nat) {s last : State} {entry : Entry α} (present : s.tokens ≠ [])
    (read : readEntry vocabulary s = .ok (entry, last)) :
    ∃ entries fault, readEntries vocabulary (fuel + 1) s = ⟨entry :: entries, fault⟩ := by
  have nonempty : s.tokens.isEmpty = false := by simpa using present
  rw [readEntries, nonempty]
  simp only [Bool.false_eq_true, if_false, read]
  split
  next => exact ⟨_, _, rfl⟩
  next =>
    split
    next => exact ⟨_, _, rfl⟩
    next => exact ⟨_, _, rfl⟩

/-- An entry that is known is read up to the end of the list, or up to the comma behind it. -/
theorem readEntries_of_known {fuel : Nat} {s last : State} {entry : Entry α} (present : s.tokens ≠ [])
    (read : readEntry vocabulary s = .ok (entry, last)) :
    (last.tokens = [] → last.leftover = none → readEntries vocabulary (fuel + 1) s = ⟨[entry], none⟩) ∧
      ∀ joint span rest, last.tokens = .mark ',' joint span :: rest →
        ∃ next, next.tokens = rest ∧ next.leftover = last.leftover ∧
          readEntries vocabulary (fuel + 1) s = Reading.cons entry (readEntries vocabulary fuel next) := by
  have nonempty : s.tokens.isEmpty = false := by simpa using present
  rw [readEntries, nonempty]
  simp only [Bool.false_eq_true, if_false, read]
  constructor
  · intro ended settled
    simp [ended, Reading.cons, closing, settled]
  · intro joint span rest here
    have marks : Marks rest ",".toList (.mark ',' joint span :: rest) [.mark ',' false span] := .last ',' joint span
    obtain ⟨comma, reads⟩ := reads_symbol marks (by decide)
    obtain ⟨next, passed, left, kept, _⟩ := reads last here
    exact ⟨next, left, kept, by simp [here, passed]⟩

/-- Nothing is said of what stands behind an entry without a meaning. -/
theorem follows_of_unknown (fuel : Nat) {s last : State} {entry : Entry α} (present : s.tokens ≠ [])
    (read : readEntry vocabulary s = .ok (entry, last)) (means : entry.meaning = none) (meanings : List (Option α)) :
    Follows (readEntries vocabulary (fuel + 1) s).entries (readEntries vocabulary (fuel + 1) s).fault
      (none :: meanings) := by
  obtain ⟨entries, fault, result⟩ := readEntries_of_readEntry fuel present read
  rw [result]
  exact .unknown means

theorem Lists.follows {tokens : List Token} {meanings : List (Option α)} (lists : Lists vocabulary tokens meanings)
    {fuel : Nat} {s : State} (here : s.tokens = tokens) (settled : s.leftover = none)
    (enough : Token.weightAll tokens < fuel) :
    Follows (readEntries vocabulary fuel s).entries (readEntries vocabulary fuel s).fault meanings := by
  induction lists generalizing fuel s with
  | nil =>
      obtain ⟨fuel, rfl⟩ := Nat.exists_eq_succ_of_ne_zero (Nat.ne_zero_of_lt enough)
      simp only [readEntries, here, closing, settled, List.isEmpty_nil, if_true, Option.map_none]
      exact .nil
  | @last tokens meaning written =>
      obtain ⟨fuel, rfl⟩ := Nat.exists_eq_succ_of_ne_zero (Nat.ne_zero_of_lt enough)
      have present : s.tokens ≠ [] := here ▸ written.ne_nil
      obtain ⟨entry, last, read, means, known⟩ :=
        written.read (by rw [here, List.append_nil]) .list
      cases meaning with
      | none => exact follows_of_unknown fuel present read means []
      | some a =>
          obtain ⟨ended, kept⟩ := known (Option.some_ne_none a)
          rw [(readEntries_of_known present read).1 ended (kept.trans settled)]
          exact .known means .nil
  | @cons tokens rest meaning meanings written joint span others ih =>
      obtain ⟨fuel, rfl⟩ := Nat.exists_eq_succ_of_ne_zero (Nat.ne_zero_of_lt enough)
      have present : s.tokens ≠ [] := by
        rw [here]
        exact List.append_ne_nil_of_left_ne_nil written.ne_nil _
      obtain ⟨entry, last, read, means, known⟩ := written.read here (.comma joint span rest)
      cases meaning with
      | none => exact follows_of_unknown fuel present read means meanings
      | some a =>
          obtain ⟨atComma, kept⟩ := known (Option.some_ne_none a)
          obtain ⟨next, left, keptNext, result⟩ := (readEntries_of_known present read).2 joint span rest atComma
          -- The comma weighs something, so that the fuel is enough for the entries behind it.
          have lighter : Token.weightAll rest < fuel := by
            rw [Token.weightAll_append] at enough
            simp only [Token.weightAll, Token.weight] at enough
            omega
          rw [result]
          exact .known means (ih left (keptNext.trans (kept.trans settled)) lighter)

theorem Follows.append {entries others : List (Entry α)} {fault otherFault : Option Fault}
    {meanings otherMeanings : List (Option α)} (first : Follows entries fault meanings)
    (second : Follows others otherFault otherMeanings) :
    Follows (Reading.append ⟨entries, fault⟩ ⟨others, otherFault⟩).entries
      (Reading.append ⟨entries, fault⟩ ⟨others, otherFault⟩).fault (meanings ++ otherMeanings) := by
  induction first with
  | nil => exact second
  | @unknown entry entries fault meanings means =>
      cases fault with
      | none => exact .unknown means
      | some fault => exact .unknown means
  | @known entry entries fault meanings a means rest ih =>
      cases fault with
      | none => exact .known means ih
      | some fault => exact .known means ih

/-- However the entries are grouped, they are read in their order. -/
theorem Groups.follows {attributes : List Attribute} {meanings : List (Option α)}
    (groups : Groups vocabulary attributes meanings) :
    Follows (ofAttributes vocabulary attributes).entries (ofAttributes vocabulary attributes).fault meanings := by
  induction groups with
  | nil => exact .nil
  | foreign isForeign others ih =>
      rw [ofAttributes, isForeign]
      exact ih
  | @helper a attributes tokens here meanings isOwn delimits lists others ih =>
      obtain ⟨span, arguments⟩ := delimits.arguments_eq
      rw [ofAttributes, isOwn, if_pos rfl, ofAttribute, arguments]
      exact (lists.follows rfl rfl (Nat.lt_succ_self _)).append ih

theorem Follows.wellFormed_iff {reading : Reading α} {meanings : List (Option α)}
    (follows : Follows reading.entries reading.fault meanings) :
    (reading.WellFormed ↔ none ∉ meanings) ∧ (reading.WellFormed → reading.entries.map Entry.meaning = meanings) := by
  obtain ⟨entries, fault⟩ := reading
  simp only at follows
  induction follows with
  | nil => exact ⟨⟨fun _ => List.not_mem_nil, fun _ => ⟨rfl, fun _ member => absurd member List.not_mem_nil⟩⟩, fun _ => rfl⟩
  | @unknown entry entries fault meanings means =>
      have misread : ¬ Reading.WellFormed ⟨entry :: entries, fault⟩ :=
        fun wellFormed => wellFormed.known entry List.mem_cons_self means
      exact ⟨⟨fun wellFormed => absurd wellFormed misread, fun absent => absurd List.mem_cons_self absent⟩,
        fun wellFormed => absurd wellFormed misread⟩
  | @known entry entries fault meanings a means others ih =>
      have split : Reading.WellFormed ⟨entry :: entries, fault⟩ ↔ Reading.WellFormed ⟨entries, fault⟩ := by
        constructor
        · rintro ⟨readable, known⟩
          exact ⟨readable, fun other member => known other (List.mem_cons_of_mem _ member)⟩
        · rintro ⟨readable, known⟩
          refine ⟨readable, List.forall_mem_cons.mpr ⟨?_, known⟩⟩
          rw [means]
          exact Option.some_ne_none a
      rw [split]
      constructor
      · rw [ih.1, List.mem_cons, not_or]
        simp
      · intro wellFormed
        rw [List.map_cons, ih.2 wellFormed, means]

end Reading

end Helper

end Replica
