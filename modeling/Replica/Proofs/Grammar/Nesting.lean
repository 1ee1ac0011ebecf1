import Replica.Proofs.Grammar.Rereading

/-!
Names with arguments that are names with arguments. However deep they are nested, they are read from what is printed
of them.
-/

namespace Replica

open Replica.Parser

namespace Path

variable {rest : List Token}

/-- The word can be a segment of the path of a type. -/
structure IsName (word : Name) : Prop where
  isSegment : IsSegment word
  certain : word.text ≠ "try"

/-- The tokens begin the path of a type. -/
inductive Begins : List Token → Prop where
  | rooted (first second : Span) (rest : List Token) : Begins (colonTokens (some (first, second)) ++ rest)
  | word {word : Name} {rest : List Token} (isName : IsName word) (unmarked : Ahead.symbol "#" rest = false) :
      Begins (word.token :: rest)

/-- The type that is named by the path. -/
def type (path : PathText) : TypeOutline :=
  .path none path.rooted path.segments

/-- The end of an argument. -/
inductive ArgumentEnd : List Token → Prop where
  | comma (span : Span) (rest : List Token) : ArgumentEnd (.mark ',' false span :: rest)
  | close (span : Span) (rest : List Token) : ArgumentEnd (.mark '>' false span :: rest)

end Path

namespace TypeOutline

variable {level : Level} {tokens rest shown : List Token} {path : PathText}

theorem reads_readPath (read : Reads (Path.plain level false) tokens rest (path.rooted, path.segments) shown)
    (begins : Path.Begins tokens) (stops : Path.ArgumentEnd rest) :
    Reads (readPath level false true) tokens rest (Path.type path) shown := by
  have unbracketed : Ahead.symbol "<" tokens = false := by cases begins <;> rfl
  have qualified : Reads (Path.qualified level false) tokens rest (none, path.rooted, path.segments) shown :=
    Reads.peek unbracketed read.answer
  have uncalled : Ahead.symbol "!" rest = false := by cases stops <;> rfl
  have single : Ahead.symbol "+" rest = false := by cases stops <;> rfl
  rw [← List.append_nil shown]
  exact qualified.bind (Reads.peek uncalled (Reads.peek rfl (Reads.peek single reads_pure)))

/-- What else a type can begin with is not there. -/
structure Unlike (tokens : List Token) : Prop where
  ungrouped : Ahead.invisibleGroup tokens = false
  unquantified : Ahead.word "for" tokens = false
  untupled : Ahead.group .parenthesis tokens = false
  functionless : Ahead.anyWordOf ["fn", "unsafe", "extern"] tokens = false
  unbuilt : Builtin.ahead tokens = false

theorem unlike_of_begins (begins : Path.Begins tokens) : Unlike tokens := by
  cases begins with
  | rooted first second rest => exact ⟨rfl, rfl, rfl, rfl, rfl⟩
  | @word word rest isName unmarked =>
      have notFor := isName.isSegment.ne (rfl : Ahead.reserved.contains "for" = true) rfl
      have notFn := isName.isSegment.ne (rfl : Ahead.reserved.contains "fn" = true) rfl
      have notUnsafe := isName.isSegment.ne (rfl : Ahead.reserved.contains "unsafe" = true) rfl
      have notExtern := isName.isSegment.ne (rfl : Ahead.reserved.contains "extern" = true) rfl
      have second : (Ahead.symbol "#").second (word.token :: rest) = false := unmarked
      refine ⟨rfl, decide_eq_false notFor, rfl, ?_, ?_⟩
      · simp [Ahead.anyWordOf, word?_token, notFn, notUnsafe, notExtern]
      · rw [Builtin.ahead, second, Bool.and_false]

theorem pathAhead_of_begins (begins : Path.Begins tokens) : pathAhead tokens = true := by
  cases begins with
  | rooted first second rest => rfl
  | word isName unmarked => exact pathAhead_segment isName.isSegment isName.certain

theorem reads_read (plain : Reads (Path.plain level false) tokens rest (path.rooted, path.segments) shown)
    (begins : Path.Begins tokens) (stops : Path.ArgumentEnd rest) :
    Reads (read level true true) tokens rest (Path.type path) shown := by
  have unlike : Unlike tokens := unlike_of_begins begins
  have binder : Reads (Parser.withhold (if false = true then level.binder else pure ())) tokens tokens ((), []) [] :=
    reads_pure.withhold
  refine Reads.peek unlike.ungrouped (Reads.peek unlike.unquantified (binder.bind ?_))
  refine Reads.peek unlike.untupled <| Reads.peek unlike.functionless <| Reads.peek unlike.unbuilt <|
    Reads.peek (pathAhead_of_begins begins) ?_
  rw [← List.nil_append shown]
  exact (reads_readPath plain begins stops).withhold.bind reads_print.answer

end TypeOutline

namespace Argument

variable {level : Level} {tokens rest : List Token} {path : PathText} {stop : Span}

/-- The argument that is named by the path. -/
def ofPath (path : PathText) : Argument :=
  ⟨false, some (Path.type path), path.tokens⟩

theorem lifetime_of_begins (begins : Path.Begins tokens) : Ahead.lifetime tokens = false := by
  cases begins <;> rfl

theorem unclosed_of_begins (begins : Path.Begins tokens) : Ahead.symbol ">" tokens = false := by
  cases begins <;> rfl

theorem constant_of_begins (begins : Path.Begins tokens) : Ahead.any [.literal, .group .brace] tokens = false := by
  cases begins with
  | rooted first second rest => rfl
  | word isName unmarked =>
      simp only [Ahead.any, List.any_cons, ExpressionOutline.literal_segment isName.isSegment]
      rfl

theorem reads_read
    (plain : Reads (Path.plain level false) (path.tokens ++ rest) rest (path.rooted, path.segments) path.tokens)
    (begins : Path.Begins (path.tokens ++ rest)) (stops : Path.ArgumentEnd rest) :
    Reads (read level.next) (path.tokens ++ rest) rest (ofPath path) path.tokens := by
  have equals : Reads (symbol? "=") rest rest false [] :=
    reads_symbol?_of_absent (by cases stops <;> rfl)
  have colon : Reads (symbol? ":") rest rest false [] :=
    reads_symbol?_of_absent (by cases stops <;> rfl)
  have type : Reads (level.next.type true true) (path.tokens ++ rest) rest (Path.type path) path.tokens :=
    TypeOutline.reads_read plain begins stops
  have other : Reads (readOther level.next) (path.tokens ++ rest) rest (some (Path.type path)) (path.tokens ++ []) := by
    refine Reads.peek (constant_of_begins begins) (type.bind ?_)
    split
    next => exact equals.bind (colon.bind reads_pure)
    next => exact reads_pure
  rw [List.append_nil] at other
  exact Reads.peek (lifetime_of_begins begins) (Reads.peek rfl other.capture.answer)

/-- The tokens of paths with commas between them. -/
def listTokens : List PathText → List Token
  | [] => []
  | [last] => last.tokens
  | first :: second :: others => first.tokens ++ .mark ',' false .origin :: listTokens (second :: others)

/-- The arguments that are named by the paths. -/
def list : List PathText → Separated Argument
  | [] => []
  | [last] => [(ofPath last, false)]
  | first :: second :: others => (ofPath first, true) :: list (second :: others)

/-- The path begins a type and is read from its tokens in front of the end of an argument. -/
structure ReadsPath (level : Level) (path : PathText) : Prop where
  begins : ∀ rest, Path.ArgumentEnd rest → Path.Begins (path.tokens ++ rest)
  reads : ∀ rest, Path.ArgumentEnd rest →
    Reads (Path.plain level false) (path.tokens ++ rest) rest (path.rooted, path.segments) path.tokens

theorem lists_paths {paths : List PathText} (reads : ∀ path ∈ paths, ReadsPath level path) (present : paths ≠ [])
    (stop : Span) : Lists (.symbol ">") "," (read level.next) (.mark '>' false stop :: rest)
      (listTokens paths ++ .mark '>' false stop :: rest) (list paths) (listTokens paths) := by
  have goesOn {path : PathText} {behind : List Token} (reads : ReadsPath level path) (stops : Path.ArgumentEnd behind) :
      Ahead.symbol ">" (path.tokens ++ behind) = false := unclosed_of_begins (reads.begins behind stops)
  induction paths using list.induct with
  | case1 => contradiction
  | case2 last =>
      have stops := Path.ArgumentEnd.close stop rest
      have path := reads last List.mem_cons_self
      exact .last (goesOn path stops) (reads_read (path.reads _ stops) (path.begins _ stops) stops) rfl
  | case3 first second others ih =>
      obtain ⟨path, behind⟩ := List.forall_mem_cons.mp reads
      rw [listTokens, List.append_assoc, List.cons_append]
      have stops := Path.ArgumentEnd.comma .origin (listTokens (second :: others) ++ .mark '>' false stop :: rest)
      exact .next (goesOn path stops) (reads_read (path.reads _ stops) (path.begins _ stops) stops) rfl
        (.last ',' false .origin) (ih behind (List.cons_ne_nil _ _))

theorem not_lifetime_list {paths : List PathText} : ∀ argument ∈ list paths, argument.1.isLifetime = false := by
  induction paths using list.induct with
  | case1 => exact fun _ member => absurd member List.not_mem_nil
  | case2 last => exact List.forall_mem_singleton.mpr rfl
  | case3 first second others ih => exact List.forall_mem_cons.mpr ⟨rfl, ih⟩

theorem commaTokens_list {paths : List PathText} :
    Bound.commaTokens Argument.tokens (list paths) = listTokens paths := by
  induction paths using list.induct with
  | case1 => rfl
  | case2 last => simp [list, listTokens, Bound.commaTokens, Separated.tokens, ofPath]
  | case3 first second others ih =>
      rw [listTokens, ← ih]
      simp [list, Bound.commaTokens, Separated.tokens, ofPath]

/-- No lifetime is moved to the front. -/
theorem lifetimesFirst_list {paths : List PathText} :
    Bound.lifetimesFirst isLifetime Argument.tokens (list paths) = listTokens paths := by
  have lifetimes : (list paths).filter (fun argument => argument.1.isLifetime) = [] :=
    List.filter_eq_nil_iff.mpr fun argument member => by simp [not_lifetime_list argument member]
  have others : (list paths).filter (fun argument => !argument.1.isLifetime) = list paths :=
    List.filter_eq_self.mpr fun argument member => by simp [not_lifetime_list argument member]
  have nothing : Bound.commaTokens Argument.tokens [] = [] := rfl
  have unsplit (noneNeeded : Bool) :
      (if noneNeeded || true then ([] : List Token) else [.mark ',' false .origin]) = [] := by
    rw [Bool.or_true]
    rfl
  simp only [Bound.lifetimesFirst, lifetimes, others, nothing, commaTokens_list, List.getLast?_nil, Option.all_none,
    unsplit, List.nil_append]

theorem types_list {paths : List PathText} :
    (list paths).filterMap (fun argument => argument.1.type) = paths.map Path.type := by
  induction paths using list.induct with
  | case1 => rfl
  | case2 last => rfl
  | case3 first second others ih =>
      rw [list, List.map_cons, ← ih]
      rfl

theorem length_list_le (paths : List PathText) :
    (list paths).length ≤ Token.weightAll (listTokens paths ++ .mark '>' false stop :: rest) := by
  induction paths using list.induct with
  | case1 => exact Nat.zero_le _
  | case2 last =>
      rw [Token.weightAll_append]
      exact Nat.le_add_left_of_le (Nat.le_add_right 1 _)
  | case3 first second others ih =>
      rw [listTokens, List.append_assoc, List.cons_append, Token.weightAll_append]
      have comma : Token.weightAll
          (.mark ',' false .origin :: (listTokens (second :: others) ++ .mark '>' false stop :: rest)) =
            1 + Token.weightAll (listTokens (second :: others) ++ .mark '>' false stop :: rest) := rfl
      rw [list, List.length_cons, comma]
      omega

theorem weightAll_le_listTokens {paths : List PathText} (member : path ∈ paths) :
    Token.weightAll path.tokens ≤ Token.weightAll (listTokens paths) := by
  induction paths using listTokens.induct with
  | case1 => contradiction
  | case2 last =>
      rw [List.mem_singleton.mp member]
      exact Nat.le_refl _
  | case3 first second others ih =>
      rw [listTokens, Token.weightAll_append, Token.weightAll]
      rcases List.mem_cons.mp member with rfl | member
      · omega
      · have lighter := ih member
        omega

theorem reads_readAll {paths : List PathText} (reads : ∀ path ∈ paths, ReadsPath level path) (present : paths ≠ [])
    (name : String) (colons : Option (Span × Span)) (start stop : Span) :
    Reads (readAll level.next name)
      (Path.colonTokens colons ++ .mark '<' false start :: (listTokens paths ++ .mark '>' false stop :: rest)) rest
      (.generic name colons.isSome (paths.map Path.type))
      (Path.colonTokens colons ++ .mark '<' false start :: listTokens paths ++ [.mark '>' false stop]) := by
  have turbofish : Reads (symbol? "::")
      (Path.colonTokens colons ++ .mark '<' false start :: (listTokens paths ++ .mark '>' false stop :: rest))
      (.mark '<' false start :: (listTokens paths ++ .mark '>' false stop :: rest)) colons.isSome
      (Path.colonTokens colons) := by
    cases colons with
    | none => exact reads_symbol?_of_absent rfl
    | some places => exact reads_symbol? (Path.marks_colons places.1 places.2) (by decide)
  have opening : Marks (listTokens paths ++ .mark '>' false stop :: rest) "<".toList
      (.mark '<' false start :: (listTokens paths ++ .mark '>' false stop :: rest)) [.mark '<' false start] :=
    .last '<' false start
  have closing : Marks rest ">".toList (.mark '>' false stop :: rest) [.mark '>' false stop] := .last '>' false stop
  have arguments : Reads (upTo ">" (read level.next)) (listTokens paths ++ .mark '>' false stop :: rest)
      (.mark '>' false stop :: rest) (list paths) (listTokens paths) :=
    (lists_paths reads present stop).reads_upTo (length_list_le paths)
  have inBrackets : Reads (do
      let start ← symbol "<"
      let list ← upTo ">" (read level.next)
      return (start, list, ← symbol ">"))
      (.mark '<' false start :: (listTokens paths ++ .mark '>' false stop :: rest)) rest (start, list paths, stop)
      (.mark '<' false start :: (listTokens paths ++ [.mark '>' false stop])) :=
    (opening.reads_symbol (by decide)).bind (arguments.bind (closing.reads_symbol (by decide)).answer)
  have filled : (list paths).isEmpty = false := by
    induction paths using list.induct with
    | case1 => contradiction
    | case2 last => rfl
    | case3 first second others ih => rfl
  rw [List.append_assoc]
  refine turbofish.bind (inBrackets.withhold.bind ?_)
  simp only [lifetimesFirst_list, types_list, filled, Bool.false_eq_true, if_false]
  exact reads_print.answer

end Argument

/-- Names, and names with arguments that are paths of such segments, less deep. -/
def SegmentOutline.Nested : (depth : Nat) → SegmentOutline → List Token → Prop
  | 0, segment, shown => ∃ word, Path.IsName word ∧ segment = .bare word.text ∧ shown = [word.token]
  | depth + 1, segment, shown => Nested depth segment shown ∨
      ∃ (word : Name) (colons : Option (Span × Span)) (start stop : Span) (paths : List PathText),
      Ahead.reserved.contains word.text = false ∧ paths ≠ [] ∧
      (∀ path ∈ paths, Path.Spelled (Nested depth) path.rooted path.segments path.tokens) ∧
      segment = .generic word.text colons.isSome (paths.map Path.type) ∧
      shown = word.token :: Path.colonTokens colons ++
        .mark '<' false start :: Argument.listTokens paths ++ [.mark '>' false stop]

namespace Path

variable {level : Level} {rest tokens : List Token} {word : Name}

theorem isName_of_free (free : Ahead.reserved.contains word.text = false) : IsName word :=
  ⟨.inr (.inr free), ne_of_free free rfl⟩

theorem reads_segmentWord (free : Ahead.reserved.contains word.text = false) :
    Reads segmentWord (word.token :: rest) rest (word, false) [word.token] := by
  have ordinary : Ahead.anyWordOf ["super", "self", "crate", "try"] (word.token :: rest) = false := by
    have notSuper := ne_of_free free (rfl : Ahead.reserved.contains "super" = true)
    have notSelf := ne_of_free free (rfl : Ahead.reserved.contains "self" = true)
    have notCrate := ne_of_free free (rfl : Ahead.reserved.contains "crate" = true)
    have notTry := ne_of_free free (rfl : Ahead.reserved.contains "try" = true)
    simp [Ahead.anyWordOf, word?_token, notSuper, notSelf, notCrate, notTry]
  have notSelf : Ahead.word "Self" (word.token :: rest) = false := decide_eq_false (ne_of_free free rfl)
  exact Reads.peek ordinary (Reads.peek notSelf (reads_name free).answer)

theorem reads_behindWord {segment : SegmentOutline} {shown : List Token}
    (arguments : Reads (level.arguments word.text) tokens rest segment shown)
    (present : argumentsAhead false tokens = true) : Reads (behindWord level false word) tokens rest segment shown := by
  rw [behindWord_eq]
  exact Reads.peek present arguments

theorem begins_of_nested {depth : Nat} {segment : SegmentOutline} {shown : List Token}
    (nested : segment.Nested depth shown) (unmarked : Ahead.symbol "#" rest = false) : Begins (shown ++ rest) := by
  induction depth generalizing segment shown with
  | zero =>
      obtain ⟨word, isName, rfl, rfl⟩ := nested
      exact .word isName unmarked
  | succ depth ih =>
      rcases nested with nested | ⟨word, colons, start, stop, paths, free, _, _, rfl, rfl⟩
      · exact ih nested
      · cases colons with
        | none => exact .word (isName_of_free free) rfl
        | some places => exact .word (isName_of_free free) rfl

theorem begins_of_spelled {depth : Nat} {rooted : Bool} {segments : List SegmentOutline}
    (spelled : Spelled (SegmentOutline.Nested depth) rooted segments tokens)
    (unmarked : Ahead.symbol "#" rest = false) : Begins (tokens ++ rest) := by
  cases spelled with
  | @path segment segments shown more root nested others =>
      cases root with
      | some places =>
          rw [List.append_assoc, List.append_assoc]
          exact .rooted places.1 places.2 _
      | none =>
          have behind : Ahead.symbol "#" (more ++ rest) = false := by
            cases others with
            | nil => exact unmarked
            | cons first second segment others => rfl
          rw [List.append_assoc]
          exact begins_of_nested nested behind

end Path

/-- Nested names are read from what is printed of them. -/
theorem SegmentOutline.Nested.rereads {depth : Nat} {segment : SegmentOutline} {shown : List Token}
    (nested : segment.Nested depth shown) : segment.Rereads shown := by
  induction depth generalizing segment shown with
  | zero =>
      obtain ⟨word, isName, rfl, rfl⟩ := nested
      exact rereads_bare isName.isSegment
  | succ depth ih =>
      rcases nested with nested | ⟨word, colons, start, stop, paths, free, present, spelled, rfl, rfl⟩
      · exact ih nested
      · intro n enough
        have shown : (SegmentOutline.generic word.text colons.isSome (paths.map Path.type)).Spelled _ :=
          .generic (.inr (.inr free)) colons (paths.map Path.type) start stop (Argument.listTokens paths)
        refine ⟨shown, fun rest bare => ?_⟩
        simp only [Token.weightAll_append, Token.weightAll, Token.weight, Name.token, List.cons_append] at enough
        -- The brackets weigh two at least, and the paths between them are read with what is left of the height.
        obtain ⟨n, rfl⟩ : ∃ m, n = m + 2 := ⟨n - 2, by omega⟩
        have reads : ∀ path ∈ paths, Argument.ReadsPath (.height n) path := by
          intro path member
          have lighter := Argument.weightAll_le_listTokens member
          have segments : Path.Spelled (Path.ReadsSegment (.height n) false) path.rooted path.segments path.tokens :=
            (spelled path member).imp fun segment _ inner light nested => ih nested n (by omega)
          refine ⟨fun rest stops => Path.begins_of_spelled (spelled path member) ?_, fun rest stops => ?_⟩
          · cases stops <;> rfl
          · exact Path.reads_plain segments (by cases stops <;> exact ⟨rfl, rfl⟩)
        have arguments : Reads ((Level.height (n + 2)).arguments word.text) _ rest _ _ :=
          Argument.reads_readAll reads present word.text colons start stop
        have ahead : Path.argumentsAhead false (Path.colonTokens colons ++
            .mark '<' false start :: (Argument.listTokens paths ++ .mark '>' false stop :: rest)) = true := by
          cases colons <;> rfl
        have whole : word.token :: Path.colonTokens colons ++ .mark '<' false start :: Argument.listTokens paths ++
            [.mark '>' false stop] ++ rest = word.token :: (Path.colonTokens colons ++
              .mark '<' false start :: (Argument.listTokens paths ++ .mark '>' false stop :: rest)) := by simp
        rw [Path.segment_eq, whole]
        exact (Path.reads_segmentWord free).bind (Path.reads_behindWord arguments ahead)

end Replica
