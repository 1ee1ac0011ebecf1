import Replica.Proofs.Class.Arguments
import Replica.Proofs.Class.Grouping
import Replica.Proofs.Grammar.Nesting

/-!
Paths of the user in the place of functions. They are read as paths of types and printed where an expression begins,
so that one is called there just if it has a double colon in front of all arguments.
-/

namespace Replica

open Token Replica.Parser Helper

namespace CopyBody

/-- The copies that the body is made of. -/
def expressions : CopyBody → List CopyExpression
  | .unit => []
  | .literal copied _ => copied.map Prod.snd
  | .call _ arguments => arguments

variable {expression : CopyExpression}

/-- The expression is one of those in the group that the body ends with. -/
def Holds (body : CopyBody) (expression : CopyExpression) : Prop :=
  ∃ head delimiter front back, EntryEnd back ∧
    body.tokens = head ++ [.group delimiter (front ++ expression.tokens ++ back) .origin]

theorem exists_commaSeparated {arguments : List CopyExpression} (member : expression ∈ arguments) :
    ∃ front back, EntryEnd back ∧
      commaSeparated (arguments.map CopyExpression.tokens) = front ++ expression.tokens ++ back := by
  induction arguments with
  | nil => contradiction
  | cons first rest ih =>
      cases rest with
      | nil =>
          rw [List.mem_singleton.mp member]
          exact ⟨[], [], .list, by simp [commaSeparated]⟩
      | cons second others =>
          rcases List.mem_cons.mp member with rfl | later
          · exact ⟨[], _, .comma false .origin _, List.append_assoc _ _ _⟩
          · obtain ⟨front, back, stops, shown⟩ := ih later
            refine ⟨first.tokens ++ spell "," ++ front, back, stops, ?_⟩
            rw [List.map_cons, List.map_cons, commaSeparated, ← List.map_cons, shown]
            · simp
            · exact List.cons_ne_nil _ _

theorem exists_initializer {copied : List (Name × CopyExpression)} (member : expression ∈ copied.map Prod.snd)
    (more : List Token) : ∃ front back, EntryEnd back ∧
      copied.flatMap (fun part => initializer part.1 part.2.tokens) ++ more = front ++ expression.tokens ++ back := by
  obtain ⟨⟨field, _⟩, inCopied, rfl⟩ := List.mem_map.mp member
  obtain ⟨before, behind, rfl⟩ := List.append_of_mem inCopied
  refine ⟨before.flatMap (fun part => initializer part.1 part.2.tokens) ++ field.token :: spell ":", _,
    .comma false .origin (behind.flatMap (fun part => initializer part.1 part.2.tokens) ++ more), ?_⟩
  have comma : spell "," = [.mark ',' false .origin] := rfl
  simp [initializer, comma]

theorem holds_of_mem {body : CopyBody} (member : expression ∈ body.expressions) : body.Holds expression := by
  cases body with
  | unit => contradiction
  | literal copied skipped =>
      obtain ⟨front, back, stops, shown⟩ :=
        exists_initializer member (skipped.flatMap fun field => initializer field defaultCall)
      refine ⟨spell "Self", .brace, front, back, stops, ?_⟩
      rw [tokens, ← shown]
      rfl
  | call constructor arguments =>
      have inArguments : expression ∈ arguments := member
      obtain ⟨front, back, stops, shown⟩ := exists_commaSeparated inArguments
      refine ⟨spellAll ["Self", "::"] ++ [constructor.token], .parenthesis, front, back, stops, ?_⟩
      rw [tokens, shown, List.append_assoc]
      rfl

end CopyBody

namespace PathText

variable {path : PathText}

/-- The path was read where a type may stand. Where an expression is read, the same tokens are the same path just if
it is callable. -/
structure Accepted (path : PathText) : Prop where
  spelled : Path.Spelled SegmentOutline.Spelled path.rooted path.segments path.tokens
  read : ∃ s last, Source.leveled Path.text s = .ok (path, last) ∧
    (Source.leveled Path.callee s = .ok (path, last) ↔ path.Callable)

theorem accepted_of_read {s last : State} (read : Source.leveled Path.text s = .ok (path, last)) : path.Accepted := by
  obtain ⟨t, _, look, text⟩ := bind_eq_ok_iff.mp read
  cases look
  have spelled := Path.spelled_text text
  refine ⟨spelled, s, last, read, ?_⟩
  exact Path.callee_eq_ok_iff (Level.separates_height _) text

/-- The segments of the path are printed as they are read. -/
def Rereads (path : PathText) : Prop :=
  Path.Spelled SegmentOutline.Rereads path.rooted path.segments path.tokens

theorem Rereads.reads_text (rereads : path.Rereads) {rest : List Token} (ends : Path.Ends rest) :
    Reads (Source.leveled Path.text) (path.tokens ++ rest) rest path path.tokens := by
  refine reads_get fun s here => ?_
  have enough : 4 * Token.weightAll path.tokens ≤ 4 * Token.weightAll s.tokens + 16 := by
    rw [here, Token.weightAll_append]
    omega
  have spelled := rereads.imp fun segment _ inner lighter reads =>
    (reads (4 * Token.weightAll s.tokens + 16) (by omega) : Path.ReadsSegment _ false segment inner)
  exact (Path.reads_plain spelled ends).capture.answer

theorem rereads_of_nested {depth : Nat}
    (nested : Path.Spelled (SegmentOutline.Nested depth) path.rooted path.segments path.tokens) : path.Rereads :=
  nested.imp fun _ _ _ _ segment => segment.rereads

/-- The function of the trait whose home is at the path. -/
def traitFunction (home : PathText) : List SegmentOutline :=
  home.segments ++ [.bare "DeepCopy", .bare "deep_copy"]

/-- The call of this function in the helper. -/
def traitCall (home : PathText) : List Token :=
  home.tokens ++ spellAll ["::", "DeepCopy", "::", "deep_copy"] ++ [parentheses (spell "value")]

theorem exists_helperFunction {expansion : Expansion} {home : PathText} (same : expansion.home = home.tokens) :
    ∃ header, expansion.helperFunction = header ++ [braces home.traitCall] := by
  have call : expansion.traitTokens ++ spellAll ["::", "deep_copy"] ++ [parentheses (spell "value")] =
      home.traitCall := by
    rw [Expansion.traitTokens, same, traitCall, List.append_assoc home.tokens]
    rfl
  rw [Expansion.helperFunction, call]
  exact ⟨_, rfl⟩

end PathText

namespace Strategy

theorem accepted_of_custom {attributes : List Attribute} {path : PathText}
    (accepted : ofAttributes attributes = .ok (.custom path)) : path.Accepted := by
  obtain ⟨_, ⟨_, isDeep⟩ | ⟨span, entries⟩⟩ := ofAttributes_eq_ok_iff.mp accepted
  · cases isDeep
  · have member : (⟨some (.custom path), span⟩ : Entry Strategy) ∈ (reading attributes).entries := by simp [entries]
    obtain isClone | isSkip | ⟨other, s, last, isCustom, read⟩ :=
      expresses_cases (expresses_of_mem_ofAttributes member rfl)
    · cases isClone
    · cases isSkip
    · cases isCustom
      exact PathText.accepted_of_read read

/-- The attribute that hands a field to the function at the path. -/
def entryOf (path : PathText) : Attribute :=
  helperOf (Name.token ⟨"with", .origin⟩ :: .mark '=' false .origin :: path.tokens)

theorem ofAttributes_entryOf {path : PathText} (rereads : path.Rereads) :
    ofAttributes [entryOf path] = .ok (.custom path) := by
  have written : Written vocabulary (Name.token ⟨"with", .origin⟩ :: .mark '=' false .origin :: path.tokens)
      (some (.custom path)) :=
    written_assigned ⟨"with", .origin⟩ (f := Strategy.custom) rfl fun rest stops => rereads.reads_text stops.path_ends
  have groups : Groups vocabulary [entryOf path] [some (.custom path)] :=
    .helper rfl (delimits_helperOf _) (.last written) .nil
  exact (ofAttributes_eq_ok_iff_of_groups groups).mpr (.inr rfl)

end Strategy

namespace ContainerOptions

theorem accepted_of_home {attributes : List Attribute} {options : ContainerOptions} {path : PathText}
    (accepted : ofAttributes attributes = .ok options) (given : options.home = some path) : path.Accepted := by
  have entered : (reading attributes).Has (.home path) := by
    rw [(last_of_accepted accepted).1] at given
    obtain ⟨meaning, isMeaning, picked⟩ := List.mem_filterMap.mp (List.mem_of_getLast? given)
    obtain ⟨entry, rfl, isHome⟩ := Option.bind_eq_some_iff.mp picked
    cases entry with
    | home other =>
        cases isHome
        obtain ⟨entry, member, means⟩ := List.mem_map.mp isMeaning
        exact ⟨entry, member, means⟩
    | method word => cases isHome
    | bound literal => cases isHome
  obtain ⟨entry, member, means⟩ := entered
  obtain ⟨s, last, read⟩ := exists_of_expresses_home (expresses_of_mem_ofAttributes member means)
  exact PathText.accepted_of_read read

theorem accepted_defaultHome : defaultHome.Accepted := by
  have isSegment : Path.IsSegment ⟨"deepcopy_rs", .origin⟩ := .inr (.inr rfl)
  have words : Path.ofWords (some (.origin, .origin)) ⟨"deepcopy_rs", .origin⟩ [] = defaultHome := rfl
  have noSteps (step : Path.Step) (member : step ∈ []) : Path.IsSegment step.word := absurd member List.not_mem_nil
  have reads : Reads (Source.leveled Path.text) (defaultHome.tokens ++ []) [] defaultHome defaultHome.tokens :=
    Source.reads_leveled fun level => words ▸ Path.reads_text isSegment noSteps ⟨rfl, rfl⟩
  obtain ⟨last, read, _⟩ := reads (.ofTokens defaultHome.tokens .origin) rfl
  exact PathText.accepted_of_read read

theorem rereads_defaultHome : defaultHome.Rereads := by
  have isSegment : Path.IsSegment ⟨"deepcopy_rs", .origin⟩ := .inr (.inr rfl)
  exact .path (some (.origin, .origin)) (SegmentOutline.rereads_bare isSegment) .nil

end ContainerOptions

namespace Source

variable {segments : List SegmentOutline} {tokens : List Token}

/-- In front of a comma or the end, the tokens are read as a call of the path with these segments, and printed as they
are. -/
def ReadsCall (segments : List SegmentOutline) (tokens : List Token) : Prop :=
  ∀ rest, EntryEnd rest → Reads (leveled fun level => level.expression .anywhere) (tokens ++ rest) rest
    (.call (.path false segments)) tokens

theorem callable_of_call {s last : State}
    (read : leveled (fun level => level.expression .anywhere) s = .ok (.call (.path false segments), last)) :
    ∀ segment ∈ segments, segment.Callable := by
  obtain ⟨_, _, look, read⟩ := bind_eq_ok_iff.mp read
  cases look
  exact (Level.calls_height _).expression .anywhere s _ last read

theorem readsCall_field {path : PathText} (callable : path.Callable) (rereads : path.Rereads)
    (solid : Path.Solid path.rooted path.segments) {field : Name} (free : Ahead.reserved.contains field.text = false) :
    ReadsCall path.segments (CopyExpression.custom path field).tokens := by
  have argument (level : Level) : Reads (level.next.next.next.expression .anywhere) (fieldReference field) [] .plain
      (fieldReference field) := by
    have isSelf : Path.IsSegment ⟨"self", .origin⟩ := .inl rfl
    have member : Reads (level.next.operand (Context.behind .anywhere))
        [Name.token ⟨"self", .origin⟩, .mark '.' false .origin, field.token] [] .plain
        [Name.token ⟨"self", .origin⟩, .mark '.' false .origin, field.token] :=
      ExpressionOutline.reads_member .list isSelf (by decide) ⟨rfl, rfl⟩ free .origin
    have reference : Reads (level.next.next.operand .anywhere) (fieldReference field) [] .plain
        (fieldReference field) :=
      ExpressionOutline.reads_reference rfl rfl member .origin
    exact ExpressionOutline.reads_expression_of_operand .list reference (by rintro ⟨⟩)
  intro rest stops
  rw [CopyExpression.tokens, List.append_assoc]
  exact reads_call rereads callable solid argument (List.cons_ne_nil _ _) .origin stops

theorem readsCall_home {home : PathText} (callable : home.Callable) (rereads : home.Rereads) :
    ReadsCall home.traitFunction home.traitCall := by
  have step {word : Name} (isSegment : Path.IsSegment word) {segments : List SegmentOutline} {shown : List Token}
      (others : Path.SpelledBehind SegmentOutline.Rereads segments shown) :
      Path.SpelledBehind SegmentOutline.Rereads (.bare word.text :: segments)
        ([.mark ':' true .origin, .mark ':' false .origin, word.token] ++ shown) :=
    .cons .origin .origin (SegmentOutline.rereads_bare isSegment) others
  have isTrait : Path.IsSegment ⟨"DeepCopy", .origin⟩ := .inr (.inr rfl)
  have isFunction : Path.IsSegment ⟨"deep_copy", .origin⟩ := .inr (.inr rfl)
  have spelled := Path.Spelled.append rereads (step isTrait (step isFunction .nil))
  have callableAll : ∀ segment ∈ home.traitFunction, segment.Callable :=
    List.forall_mem_append.mpr ⟨callable, List.forall_mem_cons.mpr ⟨trivial, List.forall_mem_singleton.mpr trivial⟩⟩
  have solid : Path.Solid home.rooted home.traitFunction := by
    rintro - alone
    have short := congrArg List.length alone
    simp [PathText.traitFunction] at short
  have argument (level : Level) : Reads (level.next.next.next.expression .anywhere) [Name.token ⟨"value", .origin⟩] []
      (.path false [.bare "value"]) [Name.token ⟨"value", .origin⟩] :=
    ExpressionOutline.reads_word .list (by decide)
  intro rest stops
  rw [PathText.traitCall, List.append_assoc]
  exact reads_call spelled callableAll solid argument (List.cons_ne_nil _ _) .origin stops

/-- Nothing of the user stands in the call of a helper that is at home where none is given. -/
theorem readsCall_defaultHome :
    ReadsCall ContainerOptions.defaultHome.traitFunction ContainerOptions.defaultHome.traitCall :=
  readsCall_home (List.forall_mem_singleton.mpr trivial) ContainerOptions.rereads_defaultHome

end Source

namespace Declaration

variable {d : Declaration} {expansion : Expansion}

/-- The struct is expanded by itself, or with blocks behind it. -/
def Expands (d : Declaration) (expansion : Expansion) : Prop :=
  Expansion.derive d = .ok expansion ∨ ∃ blocks, ClassDefinition.expand ⟨.declaration d, blocks⟩ = .ok expansion

/-- The field of this name is copied by the function at the path. -/
def Hands (d : Declaration) (name : Name) (path : PathText) : Prop :=
  ∃ field ∈ d.fields, field.name = some name ∧ Strategy.ofAttributes field.attributes = .ok (.custom path)

/-- The path to the trait's home. -/
def Houses (d : Declaration) (home : PathText) : Prop :=
  ∃ options, ContainerOptions.ofAttributes d.attributes = .ok options ∧
    options.home.getD ContainerOptions.defaultHome = home

theorem Expands.exists_shape (expands : d.Expands expansion) :
    ∃ shape, Shape.ofDeclaration d = .ok shape ∧ expansion.home = shape.options.homeTokens ∧
      ∀ expression ∈ expansion.body.expressions, expression = .default ∨
        ∃ property ∈ shape.properties, expression = property.expression := by
  rcases expands with derived | ⟨blocks, expanded⟩
  · obtain ⟨shape, scanned, rfl⟩ := Expansion.derive_eq_ok_iff.mp derived
    refine ⟨shape, scanned, rfl, fun expression member => ?_⟩
    change expression ∈ (Expansion.literalBody shape).expressions at member
    unfold Expansion.literalBody at member
    split at member
    next => contradiction
    next =>
      simp only [CopyBody.expressions, List.map_map, List.mem_map] at member
      obtain ⟨property, isProperty, rfl⟩ := member
      exact .inr ⟨property, isProperty, rfl⟩
  · obtain ⟨_, shape, constructor, declares, scanned, _, rfl⟩ := ClassDefinition.expand_eq_ok_iff.mp expanded
    cases declares
    refine ⟨shape, scanned, rfl, fun expression member => ?_⟩
    obtain ⟨parameter, _, rfl⟩ := List.mem_map.mp member
    unfold Expansion.argument
    split
    next property found =>
      obtain ⟨_, _, found⟩ := Option.bind_eq_some_iff.mp found
      exact .inr ⟨property, List.mem_of_find?_eq_some found, rfl⟩
    next => exact .inl rfl

theorem Expands.hands (expands : d.Expands expansion) {path : PathText} {name : Name}
    (member : CopyExpression.custom path name ∈ expansion.body.expressions) : d.Hands name path := by
  obtain ⟨shape, scanned, _, expressions⟩ := expands.exists_shape
  rcases expressions _ member with isDefault | ⟨property, isProperty, same⟩
  · cases isDefault
  · rw [Shape.properties_eq scanned] at isProperty
    obtain ⟨field, isField, found⟩ := List.mem_filterMap.mp isProperty
    obtain ⟨named, accepted, _⟩ := Field.property?_eq_some_iff.mp found
    unfold Property.expression at same
    split at same
    next => cases same
    next => cases same
    next other isCustom =>
      cases same
      exact ⟨field, isField, named, isCustom ▸ accepted⟩
    next => cases same

theorem Expands.houses (expands : d.Expands expansion) : ∃ home, d.Houses home ∧ expansion.home = home.tokens := by
  obtain ⟨shape, scanned, same, _⟩ := expands.exists_shape
  obtain ⟨kind, options, roles, _, accepted, _, rfl⟩ := Shape.ofDeclaration_eq_ok_iff.mp scanned
  exact ⟨_, ⟨options, accepted, rfl⟩, same⟩

theorem Houses.accepted {home : PathText} (houses : d.Houses home) : home.Accepted := by
  obtain ⟨options, accepted, rfl⟩ := houses
  cases given : options.home with
  | none => exact ContainerOptions.accepted_defaultHome
  | some path => exact ContainerOptions.accepted_of_home accepted given

/-- Paths of the user are called as they are written. The path of each field that is handed to a function, and the path
to the trait's home, were read as paths of types. Where an expression is read, one is the same path, and is ever called,
only if it has a double colon in front of all arguments. If it has, and its arguments are read again as they are
printed, the generated call is read as a call of just this path, whatever stands around it. -/
theorem calls_callable_paths (expands : d.Expands expansion) :
    (∀ path field, CopyExpression.custom path field ∈ expansion.body.expressions →
      d.Hands field path ∧ path.Accepted ∧ expansion.body.Holds (.custom path field) ∧
      (∀ s last, Source.leveled (fun level => level.expression .anywhere) s =
        .ok (.call (.path false path.segments), last) → path.Callable) ∧
      (path.Callable → path.Rereads → Path.Solid path.rooted path.segments →
        Ahead.reserved.contains field.text = false →
        Source.ReadsCall path.segments (CopyExpression.custom path field).tokens)) ∧
    ∃ home header, d.Houses home ∧ home.Accepted ∧ expansion.helperFunction = header ++ [braces home.traitCall] ∧
      (∀ s last, Source.leveled (fun level => level.expression .anywhere) s =
        .ok (.call (.path false home.traitFunction), last) → home.Callable) ∧
      (home.Callable → home.Rereads → Source.ReadsCall home.traitFunction home.traitCall) := by
  constructor
  · intro path field member
    obtain ⟨_, _, _, accepted⟩ := expands.hands member
    refine ⟨expands.hands member, Strategy.accepted_of_custom accepted, CopyBody.holds_of_mem member, ?_, ?_⟩
    · exact fun s last read => Source.callable_of_call read
    · exact fun callable rereads solid free => Source.readsCall_field callable rereads solid free
  · obtain ⟨home, houses, same⟩ := expands.houses
    obtain ⟨header, helper⟩ := PathText.exists_helperFunction same
    refine ⟨home, header, houses, houses.accepted, helper, ?_, ?_⟩
    · exact fun s last read => (List.forall_mem_append.mp (Source.callable_of_call read)).1
    · exact fun callable rereads => Source.readsCall_home callable rereads

section Sample

open ClassDefinition

/-- A struct with a field that is copied by the function at the path. -/
def sampleStruct (path : PathText) : Declaration where
  attributes := []
  head := spell "struct"
  name := ⟨"Sample", .origin⟩
  generics := Generics.empty
  body := .struct (.named
    [({ plainField "bytes" "Bytes" none with attributes := [Strategy.entryOf path] }, false)] .origin)
  stop := []

/-- Whatever path is read from what is printed of it is taken for a field. -/
theorem exists_expands_sampleStruct {path : PathText} (rereads : path.Rereads) :
    ∃ expansion, (sampleStruct path).Expands expansion ∧
      .custom path ⟨"bytes", .origin⟩ ∈ expansion.body.expressions := by
  have role : Role.ofField ⟨"bytes", .origin⟩
      { plainField "bytes" "Bytes" none with attributes := [Strategy.entryOf path] } = .ok (.copied ⟨⟨"bytes", .origin⟩, .custom path⟩) :=
    Role.ofField_eq_ok_iff.mpr ⟨.custom path, Strategy.ofAttributes_entryOf rereads, by rintro ⟨⟩,
      .inr ⟨by rintro ⟨⟩, rfl⟩⟩
  have scanned : Shape.ofDeclaration (sampleStruct path) = .ok
      (Shape.ofRoles (sampleStruct path) .named .none [.copied ⟨⟨"bytes", .origin⟩, .custom path⟩]) :=
    Shape.ofDeclaration_eq_ok_iff.mpr ⟨.named, .none, _, .inr ⟨_, .origin, rfl, rfl⟩, rfl,
      Except.mapM_eq_ok_iff.mpr (.cons role .nil), rfl⟩
  exact ⟨_, .inl (Expansion.derive_eq_ok_iff.mpr ⟨_, scanned, rfl⟩), List.mem_cons_self⟩

/-- The path of this name, with another as its argument. -/
def applied (name : String) (colons : Option (Span × Span)) (argument : PathText) : PathText where
  rooted := false
  segments := [.generic name colons.isSome [Path.type argument]]
  tokens := Name.token ⟨name, .origin⟩ :: Path.colonTokens colons ++ .mark '<' false .origin :: argument.tokens ++
    [.mark '>' false .origin]

theorem nested_applied {depth : Nat} {name : String} {argument : PathText}
    (free : Ahead.reserved.contains name = false)
    (nested : Path.Spelled (SegmentOutline.Nested depth) argument.rooted argument.segments argument.tokens)
    (colons : Option (Span × Span)) :
    Path.Spelled (SegmentOutline.Nested (depth + 1)) false (applied name colons argument).segments
      (applied name colons argument).tokens := by
  have segment : SegmentOutline.Nested (depth + 1) (.generic name colons.isSome [Path.type argument])
      (applied name colons argument).tokens :=
    .inr ⟨⟨name, .origin⟩, colons, .origin, .origin, [argument], free, List.cons_ne_nil _ _,
      List.forall_mem_singleton.mpr nested, rfl, rfl⟩
  rw [← List.append_nil (applied name colons argument).tokens]
  exact .path none segment .nil

def byte : PathText := Path.ofWords none ⟨"u8", .origin⟩ []

theorem nested_byte : Path.Spelled (SegmentOutline.Nested 0) byte.rooted byte.segments byte.tokens := by
  have segment : SegmentOutline.Nested 0 (.bare "u8") [Name.token ⟨"u8", .origin⟩] :=
    ⟨⟨"u8", .origin⟩, Path.isName_of_free rfl, rfl, rfl⟩
  have path := Path.Spelled.path none segment .nil
  exact path

theorem calls_callable_paths_sample :
    let path := applied "convert" (some (.origin, .origin)) (applied "Vec" none byte)
    ∃ expansion, (sampleStruct path).Expands expansion ∧ .custom path ⟨"bytes", .origin⟩ ∈ expansion.body.expressions ∧
      path.Callable ∧ path.Rereads ∧
      Source.ReadsCall path.segments (CopyExpression.custom path ⟨"bytes", .origin⟩).tokens := by
  intro path
  have rereads : path.Rereads := PathText.rereads_of_nested (nested_applied rfl (nested_applied rfl nested_byte none) _)
  have callable : path.Callable := List.forall_mem_singleton.mpr rfl
  obtain ⟨expansion, expands, member⟩ := exists_expands_sampleStruct rereads
  obtain ⟨_, _, _, _, reads⟩ := (calls_callable_paths expands).1 path _ member
  exact ⟨expansion, expands, member, callable, rereads, reads callable rereads (by rintro - ⟨⟩) rfl⟩

/-- Without a double colon in front of its arguments the path is accepted, but not called. -/
theorem calls_uncallable_path :
    let path := applied "convert" none byte
    ∃ expansion, (sampleStruct path).Expands expansion ∧ .custom path ⟨"bytes", .origin⟩ ∈ expansion.body.expressions ∧
      ¬ path.Callable ∧ ¬ Source.ReadsCall path.segments (CopyExpression.custom path ⟨"bytes", .origin⟩).tokens := by
  intro path
  have rereads : path.Rereads := PathText.rereads_of_nested (nested_applied rfl nested_byte none)
  have uncallable : ¬ path.Callable := fun callable => Bool.false_ne_true (callable _ List.mem_cons_self)
  obtain ⟨expansion, expands, member⟩ := exists_expands_sampleStruct rereads
  refine ⟨expansion, expands, member, uncallable, fun reads => uncallable ?_⟩
  obtain ⟨last, read, _⟩ := reads [] .list (.ofTokens _ .origin) rfl
  exact Source.callable_of_call read

end Sample

end Declaration

end Replica
