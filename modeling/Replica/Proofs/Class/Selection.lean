import Mathlib.Data.Bool.Basic
import Replica.Class.Constructor
import Replica.Proofs.Class.Attributes

/-!
Which function builds the copies of a class. What is asked of it is said here without the code that looks
for it: the function that is found is the first one, block by block, that meets every condition.
-/

namespace Replica

variable {className : String}

namespace TypeOutline

/-- The type is `Self` or the class by its name, whatever arguments it has. Parentheses and invisible
groups around it do not matter. -/
inductive Names (className : String) : TypeOutline → Prop where
  | path {rooted : Bool} {segment : SegmentOutline}
      (named : segment.name = "Self" ∨ segment.name = className) :
      Names className (.path none rooted [segment])
  | parenthesized {inner : TypeOutline} (named : Names className inner) :
      Names className (.parenthesized inner)
  | grouped {inner : TypeOutline} (named : Names className inner) : Names className (.grouped inner)

theorem isClass_iff {type : TypeOutline} : type.isClass className = true ↔ type.Names className := by
  fun_induction isClass className type with
  | case1 rooted segment =>
      simp only [Bool.or_eq_true, decide_eq_true_eq]
      exact ⟨.path, fun | .path named => named⟩
  | case2 inner ih => exact ih.trans ⟨.parenthesized, fun | .parenthesized named => named⟩
  | case3 inner ih => exact ih.trans ⟨.grouped, fun | .grouped named => named⟩
  | case4 type notPath notParenthesized notGrouped =>
      simp only [Bool.false_eq_true, false_iff]
      rintro (named | named | named)
      · exact notPath _ _ rfl
      · exact notParenthesized _ rfl
      · exact notGrouped _ rfl

end TypeOutline

namespace ExpressionOutline

variable {core outline : ExpressionOutline}

/-- The expression is the core, with parentheses, invisible groups and `return` around it. -/
inductive Wraps (core : ExpressionOutline) : ExpressionOutline → Prop where
  | core : Wraps core core
  | parenthesized {inner : ExpressionOutline} (wraps : Wraps core inner) : Wraps core (.parenthesized inner)
  | grouped {inner : ExpressionOutline} (wraps : Wraps core inner) : Wraps core (.grouped inner)
  | returned {inner : ExpressionOutline} (wraps : Wraps core inner) : Wraps core (.returned (some inner))

/-- The expression calls a function of the class: a path of two segments, of which the first is `Self` or
the class's name. -/
def CallsClass (className : String) (outline : ExpressionOutline) : Prop :=
  ∃ callee qualified first second, Wraps (.call callee) outline ∧
    Wraps (.path qualified [first, second]) callee ∧ (first.name = "Self" ∨ first.name = className)

theorem wraps_peel (outline : ExpressionOutline) : Wraps outline.peel outline := by
  fun_induction peel outline with
  | case1 inner ih => exact .parenthesized ih
  | case2 inner ih => exact .grouped ih
  | case3 inner ih => exact .returned ih
  | case4 outline => exact .core

theorem Wraps.peel_eq (wraps : Wraps core outline) : outline.peel = core.peel := by
  induction wraps with
  | core => rfl
  | parenthesized _ ih => rw [peel, ih]
  | grouped _ ih => rw [peel, ih]
  | returned _ ih => rw [peel, ih]

theorem isClassCall_iff : outline.isClassCall className = true ↔ outline.CallsClass className := by
  constructor
  · intro calls
    unfold isClassCall at calls
    split at calls
    next callee isCall =>
      split at calls
      next qualified first second isPath =>
        refine ⟨callee, qualified, first, second, isCall ▸ wraps_peel outline,
          isPath ▸ wraps_peel callee, ?_⟩
        simpa using calls
      next => cases calls
    next => cases calls
  · rintro ⟨callee, qualified, first, second, wrapsCall, wrapsPath, named⟩
    have isCall : outline.peel = .call callee := wrapsCall.peel_eq
    have isPath : callee.peel = .path qualified [first, second] := wrapsPath.peel_eq
    simpa [isClassCall, isCall, isPath] using named

end ExpressionOutline

/-- The pattern is a plain identifier, perhaps in parentheses. -/
inductive PatternOutline.Binds (text : String) : PatternOutline → Prop where
  | name : Binds text (.name text false)
  | parenthesized {inner : PatternOutline} (binds : Binds text inner) : Binds text (.parenthesized inner)

theorem PatternOutline.name?_eq_some_iff {pattern : PatternOutline} {text : String} :
    pattern.name? = some text ↔ pattern.Binds text := by
  fun_induction name? pattern with
  | case1 bound =>
      rw [Option.some.injEq]
      constructor
      · rintro rfl
        exact .name
      · rintro ⟨⟩
        rfl
  | case2 inner ih => exact ih.trans ⟨.parenthesized, fun | .parenthesized binds => binds⟩
  | case3 pattern notName notParenthesized =>
      simp only [reduceCtorEq, false_iff]
      rintro (binds | binds)
      · exact notName _ rfl
      · exact notParenthesized _ rfl

/-- The parameter is named by a plain identifier. -/
inductive Parameter.Binds (text : String) : Parameter → Prop where
  | typed {pattern : PatternOutline} (binds : pattern.Binds text) : Binds text (.typed pattern)

theorem Parameter.name?_eq_some_iff {parameter : Parameter} {text : String} :
    parameter.name? = some text ↔ parameter.Binds text := by
  cases parameter with
  | typed pattern =>
      exact PatternOutline.name?_eq_some_iff.trans ⟨.typed, fun | .typed binds => binds⟩
  | receiver word =>
      simp only [name?, reduceCtorEq, false_iff]
      rintro ⟨⟩
  | variadic =>
      simp only [name?, reduceCtorEq, false_iff]
      rintro ⟨⟩

namespace Function

variable {f : Function}

/-- The entries at the function. -/
def marks (f : Function) : Helper.Reading ConstructorOptions.Entry :=
  ConstructorOptions.reading f.attributes

/-- The function makes a value of the class by itself, and its user does not exclude it. -/
@[mk_iff]
structure Constructs (className : String) (f : Function) : Prop where
  kept : ¬ f.marks.Has .skip
  primary : ¬ f.marks.Has .convenience
  free : ∀ word, f.signature.parameters.head? ≠ some (.receiver word)
  immediate : f.signature.isAsync = false
  safe : f.signature.isUnsafe = false
  returns : ∃ result, f.signature.result = some result ∧ result.Names className
  direct : ∀ outline, f.statements = [.expression outline false] → ¬ outline.CallsClass className

/-- Each property has a parameter that is named after it. -/
def Takes (isProperty : String → Prop) (f : Function) : Prop :=
  ∀ name, isProperty name → ∃ parameter ∈ f.signature.parameters, parameter.Binds name

theorem hasReceiver_iff :
    f.hasReceiver = true ↔ ∃ word, f.signature.parameters.head? = some (.receiver word) := by
  unfold hasReceiver
  cases f.signature.parameters.head? with
  | none => simp
  | some parameter => cases parameter <;> simp [Parameter.isReceiver]

theorem isConstructor_iff :
    f.isConstructor className = true ↔
      (∀ word, f.signature.parameters.head? ≠ some (.receiver word)) ∧ f.signature.isAsync = false ∧
        f.signature.isUnsafe = false ∧ ∃ result, f.signature.result = some result ∧ result.Names className := by
  have free : (!f.hasReceiver) = true ↔ ∀ word, f.signature.parameters.head? ≠ some (.receiver word) := by
    rw [Bool.not_iff_not, hasReceiver_iff, not_exists]
  have returns : f.signature.result.any (TypeOutline.isClass className) = true ↔
      ∃ result, f.signature.result = some result ∧ result.Names className := by
    cases f.signature.result with
    | none => simp
    | some result => simp [TypeOutline.isClass_iff]
  unfold isConstructor
  rw [Bool.and_eq_true, Bool.and_eq_true, Bool.and_eq_true, free, returns, Bool.not_eq_true',
    Bool.not_eq_true', and_assoc, and_assoc]

theorem delegates_iff :
    f.delegates className = true ↔
      ∃ outline, f.statements = [.expression outline false] ∧ outline.CallsClass className := by
  unfold delegates
  split
  next outline single => simp [single, ExpressionOutline.isClassCall_iff]
  next several =>
    simp only [Bool.false_eq_true, false_iff, not_exists, not_and]
    intro outline single
    exact absurd single (several outline)

end Function

namespace Implementation

variable {block : Implementation} {f : Function}

/-- The block implements no trait, and its subject is the class. -/
@[mk_iff]
structure BelongsTo (className : String) (block : Implementation) : Prop where
  inherent : block.trait = none
  named : block.selfType.outline.Names className

theorem isInherent_iff : block.isInherent className = true ↔ block.BelongsTo className := by
  rw [isInherent, Bool.and_eq_true, Option.isNone_iff_eq_none, TypeOutline.isClass_iff, belongsTo_iff]

theorem mem_functions_iff : f ∈ block.functions ↔ .function f ∈ block.items := by
  rw [functions, List.mem_filterMap]
  constructor
  · rintro ⟨item, member, shown⟩
    cases item with
    | function g =>
        cases shown
        exact member
    | other => cases shown
  · intro member
    exact ⟨.function f, member, rfl⟩

theorem find?_functions_eq_some_iff {p : Function → Bool} :
    block.functions.find? p = some f ↔ p f = true ∧ ∃ front back,
      block.items = front ++ .function f :: back ∧ ∀ g, .function g ∈ front → ¬ p g = true := by
  rw [functions, List.find?_filterMap, Option.bind_eq_some_iff]
  constructor
  · rintro ⟨item, found, shown⟩
    cases item with
    | other => cases shown
    | function g =>
        cases shown
        obtain ⟨holds, front, back, parts, none⟩ := List.find?_eq_some_iff_append.mp found
        refine ⟨by simpa using holds, front, back, parts, fun g member => ?_⟩
        simpa using none _ member
  · rintro ⟨holds, front, back, parts, none⟩
    refine ⟨.function f, List.find?_eq_some_iff_append.mpr ⟨by simpa using holds, front, back, parts, ?_⟩, rfl⟩
    intro item member
    cases item with
    | function g => simpa using none g member
    | other => rfl

end Implementation

namespace Candidate

variable {candidate : Candidate} {holds holds' : Candidate → Prop} {blocks : List Implementation}
  {p : Candidate → Bool}

/-- Among all functions, block by block and item by item, this is the first for which `holds` is true. -/
def First (holds : Candidate → Prop) (blocks : List Implementation) (candidate : Candidate) : Prop :=
  holds candidate ∧ ∃ earlier later front back,
    blocks = earlier ++ candidate.block :: later ∧
    candidate.block.items = front ++ .function candidate.function :: back ∧
    (∀ block ∈ earlier, ∀ f, .function f ∈ block.items → ¬ holds ⟨block, f⟩) ∧
    ∀ f, .function f ∈ front → ¬ holds ⟨candidate.block, f⟩

theorem First.congr (same : ∀ candidate, holds candidate ↔ holds' candidate) :
    First holds blocks candidate ↔ First holds' blocks candidate := by
  rw [show holds = holds' from funext fun candidate => propext (same candidate)]

theorem first_cons_iff {block : Implementation} :
    First holds (block :: blocks) candidate ↔
      (candidate.block = block ∧ holds candidate ∧ ∃ front back,
        block.items = front ++ .function candidate.function :: back ∧
          ∀ f, .function f ∈ front → ¬ holds ⟨block, f⟩) ∨
      (∀ f, .function f ∈ block.items → ¬ holds ⟨block, f⟩) ∧ First holds blocks candidate := by
  constructor
  · rintro ⟨isSuch, earlier, later, front, back, parts, items, noBlock, noFunction⟩
    cases earlier with
    | nil =>
        obtain ⟨rfl, rfl⟩ := List.cons.inj parts
        exact .inl ⟨rfl, isSuch, front, back, items, noFunction⟩
    | cons head earlier =>
        obtain ⟨rfl, rfl⟩ := List.cons.inj parts
        obtain ⟨noneHere, noneBefore⟩ := List.forall_mem_cons.mp noBlock
        exact .inr ⟨noneHere, isSuch, earlier, later, front, back, rfl, items, noneBefore, noFunction⟩
  · rintro (⟨rfl, isSuch, front, back, items, noFunction⟩ |
      ⟨noneHere, isSuch, earlier, later, front, back, parts, items, noneBefore, noFunction⟩)
    · exact ⟨isSuch, [], blocks, front, back, rfl, items, by simp, noFunction⟩
    · exact ⟨isSuch, block :: earlier, later, front, back, by simp [parts], items,
        List.forall_mem_cons.mpr ⟨noneHere, noneBefore⟩, noFunction⟩

/-- All functions of all blocks. -/
def all (blocks : List Implementation) : List Candidate :=
  blocks.flatMap fun block => block.functions.map (mk block)

theorem all_cons {block : Implementation} :
    all (block :: blocks) = block.functions.map (mk block) ++ all blocks := rfl

theorem mem_all_iff :
    candidate ∈ all blocks ↔ candidate.block ∈ blocks ∧ .function candidate.function ∈ candidate.block.items := by
  rw [all, List.mem_flatMap]
  constructor
  · rintro ⟨block, member, inBlock⟩
    obtain ⟨f, isFunction, rfl⟩ := List.mem_map.mp inBlock
    exact ⟨member, Implementation.mem_functions_iff.mp isFunction⟩
  · rintro ⟨member, isItem⟩
    exact ⟨candidate.block, member,
      List.mem_map.mpr ⟨candidate.function, Implementation.mem_functions_iff.mpr isItem, rfl⟩⟩

theorem find?_all_eq_some_iff : (all blocks).find? p = some candidate ↔ First (p · = true) blocks candidate := by
  induction blocks with
  | nil => simp [all, First]
  | cons block blocks ih =>
      -- The first function stands in the first block, or behind it if this block has none.
      rw [all_cons, List.find?_append, Option.or_eq_some_iff, ih, first_cons_iff, List.find?_map]
      refine or_congr ?_ (and_congr_left' ?_)
      · rw [Option.map_eq_some_iff]
        constructor
        · rintro ⟨f, found, rfl⟩
          exact ⟨rfl, Implementation.find?_functions_eq_some_iff.mp found⟩
        · rintro ⟨rfl, isSuch, parts⟩
          exact ⟨candidate.function, Implementation.find?_functions_eq_some_iff.mpr ⟨isSuch, parts⟩, rfl⟩
      · simp [Implementation.mem_functions_iff]

theorem find?_all_eq_none_iff :
    (all blocks).find? p = none ↔
      ∀ block ∈ blocks, ∀ f, .function f ∈ block.items → ¬ p ⟨block, f⟩ = true := by
  rw [List.find?_eq_none]
  constructor
  · intro none block member f isItem
    exact none ⟨block, f⟩ (mem_all_iff.mpr ⟨member, isItem⟩)
  · intro none candidate member
    obtain ⟨inBlocks, isItem⟩ := mem_all_iff.mp member
    exact none candidate.block inBlocks candidate.function isItem

theorem First.mem (first : First holds blocks candidate) :
    candidate.block ∈ blocks ∧ .function candidate.function ∈ candidate.block.items := by
  obtain ⟨_, earlier, later, front, back, parts, items, _⟩ := first
  rw [parts, items]
  simp

theorem First.unique {other : Candidate} (first : First holds blocks candidate)
    (otherFirst : First holds blocks other) : candidate = other := by
  classical
  have found {one : Candidate} (isFirst : First holds blocks one) :
      (all blocks).find? (decide <| holds ·) = some one :=
    find?_all_eq_some_iff.mpr ((First.congr fun _ => decide_eq_true_iff).mpr isFirst)
  exact Option.some.inj ((found first).symm.trans (found otherFirst))

theorem exists_first_iff :
    (∃ candidate, First holds blocks candidate) ↔
      ∃ block ∈ blocks, ∃ f, .function f ∈ block.items ∧ holds ⟨block, f⟩ := by
  classical
  have found : (∃ candidate, First holds blocks candidate) ↔
      ∃ candidate, (all blocks).find? (decide <| holds ·) = some candidate := by
    simp only [find?_all_eq_some_iff, decide_eq_true_eq]
  rw [found, ← Option.ne_none_iff_exists', ne_eq, find?_all_eq_none_iff]
  simp only [decide_eq_true_eq]
  push Not
  rfl

theorem listed_eq_filter :
    listed className blocks = (all blocks).filter fun candidate => candidate.block.isInherent className := by
  unfold listed
  induction blocks with
  | nil => rfl
  | cons block blocks ih =>
      rw [all_cons, List.filter_append, List.filter_map, ← ih, List.filter_cons]
      cases inherent : block.isInherent className with
      | true => simp [Function.comp_def, inherent]
      | false => simp [Function.comp_def, inherent]

/-- A function of the class with marks that are not well formed. -/
@[mk_iff]
structure Misread (className : String) (candidate : Candidate) : Prop where
  own : candidate.block.BelongsTo className
  unclear : ¬ candidate.function.marks.WellFormed

/-- A function of the class that makes a value of it from one for each property. -/
@[mk_iff]
structure Builds (className : String) (isProperty : String → Prop) (candidate : Candidate) : Prop where
  own : candidate.block.BelongsTo className
  constructs : candidate.function.Constructs className
  takes : candidate.function.Takes isProperty

theorem withOptions_eq (candidate : Candidate) :
    candidate.withOptions = (ConstructorOptions.ofAttributes candidate.function.attributes >>= fun options =>
      .ok (candidate, options)) := rfl

theorem withOptions_eq_ok_iff {other : Candidate} {options : ConstructorOptions} :
    candidate.withOptions = .ok (other, options) ↔
      other = candidate ∧ ConstructorOptions.ofAttributes candidate.function.attributes = .ok options := by
  rw [withOptions_eq, Except.bind_eq_ok_iff]
  simp [and_comm, eq_comm]

theorem withOptions_eq_error_iff {fault : Helper.Fault} :
    candidate.withOptions = .error fault ↔
      ConstructorOptions.ofAttributes candidate.function.attributes = .error fault := by
  rw [withOptions_eq, Except.bind_eq_error_iff]
  simp

theorem isOk_withOptions_iff :
    candidate.withOptions.isOk = true ↔ candidate.function.marks.WellFormed := by
  rw [Function.marks, ← ConstructorOptions.exists_ofAttributes_iff]
  cases made : candidate.withOptions with
  | error fault =>
      simp [Except.isOk, Except.toBool, withOptions_eq_error_iff.mp made]
  | ok pair =>
      simp [Except.isOk, Except.toBool, (withOptions_eq_ok_iff.mp made).2]

theorem qualifies_iff {options : ConstructorOptions} {f : Function}
    (accepted : ConstructorOptions.ofAttributes f.attributes = .ok options) :
    qualifies className options f = true ↔ f.Constructs className := by
  obtain ⟨skip, convenience⟩ := ConstructorOptions.marks_of_ofAttributes accepted
  have kept : (!options.skip) = true ↔ ¬ f.marks.Has .skip := by
    rw [Bool.not_iff_not, skip, Function.marks]
  have primary : (!options.convenience) = true ↔ ¬ f.marks.Has .convenience := by
    rw [Bool.not_iff_not, convenience, Function.marks]
  have direct : (!f.delegates className) = true ↔
      ∀ outline, f.statements = [.expression outline false] → ¬ outline.CallsClass className := by
    rw [Bool.not_iff_not, Function.delegates_iff]
    push Not
    rfl
  rw [qualifies, Bool.and_eq_true, Bool.and_eq_true, Bool.and_eq_true, kept, primary, direct,
    Function.isConstructor_iff, Function.constructs_iff]
  simp only [and_assoc]

theorem isEmpty_missing_iff {properties : List String} :
    (candidate.missing properties).isEmpty = true ↔ candidate.function.Takes (· ∈ properties) := by
  simp only [missing, List.isEmpty_iff, List.filter_eq_nil_iff, Function.Takes, Function.parameterNames,
    Bool.not_eq_true', Bool.not_eq_false, List.contains_iff_mem, List.mem_map, Parameter.name?_eq_some_iff]

theorem qualified_eq (className : String) (blocks : List Implementation) :
    qualified className blocks = ((listed className blocks).mapM withOptions >>= fun results =>
      .ok ((results.filter fun result => qualifies className result.2 result.1.function).map Prod.fst)) := rfl

theorem qualified_eq_error_iff {fault : Helper.Fault} :
    qualified className blocks = .error fault ↔
      ∃ candidate, First (Misread className) blocks candidate ∧
        ConstructorOptions.ofAttributes candidate.function.attributes = .error fault := by
  have misread (candidate : Candidate) :
      decide (candidate.block.isInherent className = true ∧ (!candidate.withOptions.isOk) = true) = true ↔
        Misread className candidate := by
    rw [decide_eq_true_eq, Implementation.isInherent_iff, Bool.not_iff_not,
      isOk_withOptions_iff, misread_iff]
  rw [qualified_eq, Except.bind_eq_error_iff, Except.mapM_eq_error_iff, listed_eq_filter]
  simp only [reduceCtorEq, and_false, exists_false, or_false, List.find?_filter, find?_all_eq_some_iff,
    withOptions_eq_error_iff]
  exact exists_congr fun candidate => and_congr_left' (First.congr misread)

open scoped Classical in
theorem filter_results {candidates : List Candidate} {results : List (Candidate × ConstructorOptions)}
    (made : List.Forall₂ (fun candidate result => candidate.withOptions = .ok result) candidates results) :
    (results.filter fun result => qualifies className result.2 result.1.function).map Prod.fst =
      candidates.filter fun candidate => candidate.function.Constructs className := by
  induction made with
  | nil => rfl
  | @cons candidate result _ _ head _ ih =>
      obtain ⟨other, options⟩ := result
      obtain ⟨rfl, accepted⟩ := withOptions_eq_ok_iff.mp head
      have same : qualifies className options other.function = decide (other.function.Constructs className) := by
        rw [Bool.eq_iff_iff, qualifies_iff accepted, decide_eq_true_eq]
      rw [List.filter_cons, List.filter_cons, ← ih, same]
      split
      next => rfl
      next => rfl

open scoped Classical in
theorem eq_filter_of_qualified {candidates : List Candidate}
    (accepted : qualified className blocks = .ok candidates) :
    candidates = (all blocks).filter fun candidate =>
      candidate.block.BelongsTo className ∧ candidate.function.Constructs className := by
  rw [qualified_eq, Except.bind_eq_ok_iff] at accepted
  obtain ⟨results, read, final⟩ := accepted
  cases final
  rw [filter_results (Except.mapM_eq_ok_iff.mp read), listed_eq_filter, List.filter_filter]
  refine List.filter_congr fun candidate _ => ?_
  rw [Bool.eq_iff_iff, Bool.and_eq_true, decide_eq_true_eq, decide_eq_true_eq, Implementation.isInherent_iff,
    and_comm]

theorem mem_qualified_iff {candidates : List Candidate} (accepted : qualified className blocks = .ok candidates) :
    candidate ∈ candidates ↔ candidate.block ∈ blocks ∧ .function candidate.function ∈ candidate.block.items ∧
      candidate.block.BelongsTo className ∧ candidate.function.Constructs className := by
  classical
  rw [eq_filter_of_qualified accepted, List.mem_filter, decide_eq_true_eq, mem_all_iff, and_assoc]

theorem find?_qualified_eq_some_iff {candidates : List Candidate}
    (accepted : qualified className blocks = .ok candidates) :
    candidates.find? p = some candidate ↔ First (fun candidate =>
      candidate.block.BelongsTo className ∧ candidate.function.Constructs className ∧ p candidate = true)
        blocks candidate := by
  classical
  rw [eq_filter_of_qualified accepted, List.find?_filter, find?_all_eq_some_iff]
  exact First.congr fun candidate => by rw [decide_eq_true_eq, decide_eq_true_eq, and_assoc]

theorem exists_qualified_eq_error_iff :
    (∃ fault, qualified className blocks = .error fault) ↔
      ∃ block ∈ blocks, ∃ f, .function f ∈ block.items ∧ Misread className ⟨block, f⟩ := by
  rw [← exists_first_iff]
  simp only [qualified_eq_error_iff]
  constructor
  · rintro ⟨fault, candidate, first, _⟩
    exact ⟨candidate, first⟩
  · rintro ⟨candidate, first⟩
    cases accepted : ConstructorOptions.ofAttributes candidate.function.attributes with
    | error fault => exact ⟨fault, candidate, first, accepted⟩
    | ok options =>
        exact absurd (ConstructorOptions.exists_ofAttributes_iff.mp ⟨options, accepted⟩) first.1.unclear

theorem exists_qualified_iff :
    (∃ candidates, qualified className blocks = .ok candidates) ↔
      ∀ block ∈ blocks, ∀ f, .function f ∈ block.items → ¬ Misread className ⟨block, f⟩ := by
  have both : (∃ candidates, qualified className blocks = .ok candidates) ↔
      ¬ ∃ fault, qualified className blocks = .error fault := by
    cases qualified className blocks with
    | error fault => simp
    | ok candidates => simp
  rw [both, exists_qualified_eq_error_iff]
  push Not
  rfl

end Candidate

namespace Constructor

variable {shape : Shape} {blocks : List Implementation}

theorem find?_missing_eq_some_iff {candidates : List Candidate} {candidate : Candidate}
    (accepted : Candidate.qualified shape.name.text blocks = .ok candidates) :
    candidates.find? (fun candidate => (candidate.missing shape.names).isEmpty) = some candidate ↔
      Candidate.First (Candidate.Builds shape.name.text (· ∈ shape.names)) blocks candidate := by
  rw [Candidate.find?_qualified_eq_some_iff accepted]
  exact Candidate.First.congr fun candidate => by rw [Candidate.isEmpty_missing_iff, Candidate.builds_iff]

/-- What is selected, as far as the candidates that it is selected from are known. -/
theorem select_cases (shape : Shape) (blocks : List Implementation) :
    (∃ fault, Candidate.qualified shape.name.text blocks = .error fault ∧
      select shape blocks = .error (.helper fault)) ∨
    ∃ candidates, Candidate.qualified shape.name.text blocks = .ok candidates ∧
      ((∃ candidate, Candidate.First (Candidate.Builds shape.name.text (· ∈ shape.names)) blocks candidate ∧
        select shape blocks = .ok candidate.constructor) ∨
      (¬ ∃ candidate, Candidate.First (Candidate.Builds shape.name.text (· ∈ shape.names)) blocks candidate) ∧
        ∃ closest, select shape blocks =
          .error (.noInitializer shape.name.text closest shape.name.span)) := by
  cases accepted : Candidate.qualified shape.name.text blocks with
  | error fault => exact .inl ⟨fault, rfl, by simp [select, accepted]⟩
  | ok candidates =>
      refine .inr ⟨candidates, rfl, ?_⟩
      cases found : candidates.find? fun candidate => (candidate.missing shape.names).isEmpty with
      | some candidate =>
          exact .inl ⟨candidate, (find?_missing_eq_some_iff accepted).mp found, by simp [select, accepted, found]⟩
      | none =>
          refine .inr ⟨?_, Candidate.closest shape.names candidates, by simp [select, accepted, found]⟩
          rintro ⟨candidate, first⟩
          rw [← find?_missing_eq_some_iff accepted, found] at first
          cases first

theorem select_eq_helper_iff {fault : Helper.Fault} :
    select shape blocks = .error (.helper fault) ↔
      ∃ candidate, Candidate.First (Candidate.Misread shape.name.text) blocks candidate ∧
        ConstructorOptions.ofAttributes candidate.function.attributes = .error fault := by
  rw [← Candidate.qualified_eq_error_iff]
  obtain ⟨other, failed, selected⟩ | ⟨_, accepted, ⟨_, _, selected⟩ | ⟨_, _, selected⟩⟩ :=
    select_cases shape blocks
  · simp [failed, selected]
  · simp [accepted, selected]
  · simp [accepted, selected]

theorem select_eq_ok_iff {constructor : Constructor} :
    select shape blocks = .ok constructor ↔
      (∀ block ∈ blocks, ∀ f, .function f ∈ block.items →
        ¬ Candidate.Misread shape.name.text ⟨block, f⟩) ∧
      ∃ candidate, Candidate.First (Candidate.Builds shape.name.text (· ∈ shape.names)) blocks candidate ∧
        constructor = candidate.constructor := by
  rw [← Candidate.exists_qualified_iff]
  obtain ⟨_, failed, selected⟩ | ⟨_, accepted, ⟨candidate, first, selected⟩ | ⟨absent, _, selected⟩⟩ :=
    select_cases shape blocks
  · simp [failed, selected]
  · rw [selected, accepted]
    constructor
    · intro same
      exact ⟨⟨_, rfl⟩, candidate, first, (Except.ok.inj same).symm⟩
    · rintro ⟨_, other, otherFirst, rfl⟩
      rw [first.unique otherFirst]
  · rw [selected]
    simp only [reduceCtorEq, false_iff]
    rintro ⟨_, candidate, first, _⟩
    exact absent ⟨candidate, first⟩

theorem exists_select_eq_noInitializer_iff :
    (∃ closest, select shape blocks = .error (.noInitializer shape.name.text closest shape.name.span)) ↔
      (∀ block ∈ blocks, ∀ f, .function f ∈ block.items →
        ¬ Candidate.Misread shape.name.text ⟨block, f⟩) ∧
      ¬ ∃ block ∈ blocks, ∃ f, .function f ∈ block.items ∧
        Candidate.Builds shape.name.text (· ∈ shape.names) ⟨block, f⟩ := by
  rw [← Candidate.exists_qualified_iff, ← Candidate.exists_first_iff]
  obtain ⟨_, failed, selected⟩ | ⟨_, accepted, ⟨candidate, first, selected⟩ | ⟨absent, _, selected⟩⟩ :=
    select_cases shape blocks
  · simp [failed, selected]
  · rw [selected]
    simp only [reduceCtorEq, exists_false, false_iff, not_and_not_right]
    exact fun _ => ⟨candidate, first⟩
  · simp [accepted, selected, absent]

/-- Misread marks anywhere among the functions of the class come first. Without them the first function that
builds values from all properties is selected, and if there is none, that is what fails. -/
theorem select_first (shape : Shape) (blocks : List Implementation) :
    ((∃ fault, select shape blocks = .error (.helper fault)) ↔
      ∃ block ∈ blocks, ∃ f, .function f ∈ block.items ∧ Candidate.Misread shape.name.text ⟨block, f⟩) ∧
    (∀ fault, select shape blocks = .error (.helper fault) ↔
      ∃ candidate, Candidate.First (Candidate.Misread shape.name.text) blocks candidate ∧
        ConstructorOptions.ofAttributes candidate.function.attributes = .error fault) ∧
    (∀ constructor, select shape blocks = .ok constructor ↔
      (∀ block ∈ blocks, ∀ f, .function f ∈ block.items →
        ¬ Candidate.Misread shape.name.text ⟨block, f⟩) ∧
      ∃ candidate, Candidate.First (Candidate.Builds shape.name.text (· ∈ shape.names)) blocks candidate ∧
        constructor = candidate.constructor) ∧
    ((∃ closest, select shape blocks = .error (.noInitializer shape.name.text closest shape.name.span)) ↔
      (∀ block ∈ blocks, ∀ f, .function f ∈ block.items →
        ¬ Candidate.Misread shape.name.text ⟨block, f⟩) ∧
      ¬ ∃ block ∈ blocks, ∃ f, .function f ∈ block.items ∧
        Candidate.Builds shape.name.text (· ∈ shape.names) ⟨block, f⟩) := by
  refine ⟨?_, fun _ => select_eq_helper_iff, fun _ => select_eq_ok_iff, exists_select_eq_noInitializer_iff⟩
  simp only [select_eq_helper_iff, ← Candidate.qualified_eq_error_iff]
  exact Candidate.exists_qualified_eq_error_iff

end Constructor

end Replica
