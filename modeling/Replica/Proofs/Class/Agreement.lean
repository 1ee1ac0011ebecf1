import Replica.Proofs.Class.Arguments
import Replica.Proofs.Class.Wording

/-!
The two ways of building a copy agree. Where the blocks of a class repeat the struct and its constructor takes
the fields in their order, both write the same code but for the body of the method: a call instead of a literal.
-/

namespace Replica

open Token

namespace Expansion

/-- Both say the same outside of the method's body. -/
structure Alike (first second : Expansion) : Prop where
  name : first.name = second.name
  home : first.home = second.home
  method : first.method = second.method
  generics : first.generics.Repeats second.generics
  bounds : first.boundPredicates.map unplacedAll = second.boundPredicates.map unplacedAll
  selfType : Token.Alike first.selfType second.selfType

variable {first second : Expansion} {options : ContainerOptions}

theorem Alike.withBody (alike : first.Alike second) (body : CopyBody) : first.Alike { second with body := body } :=
  ⟨alike.name, alike.home, alike.method, alike.generics, alike.bounds, alike.selfType⟩

theorem Alike.clause (alike : first.Alike second) : Token.Alike first.clause second.clause :=
  alike.generics.alike_clauseTokens alike.bounds

theorem Alike.traitTokens (alike : first.Alike second) : first.traitTokens = second.traitTokens := by
  rw [Expansion.traitTokens, Expansion.traitTokens, alike.home]

theorem Alike.copyMethod (alike : first.Alike second) (body : Token.Alike first.body.tokens second.body.tokens) :
    Token.Alike first.copyMethod second.copyMethod := by
  have documented : first.documentation = second.documentation := by
    unfold Expansion.documentation
    rw [alike.name]
  have inBraces : unplaced (braces first.body.tokens) = unplaced (braces second.body.tokens) := by
    rw [unplaced_braces, unplaced_braces, body]
  unfold Token.Alike Expansion.copyMethod
  rw [documented, alike.method]
  simp only [unplacedAll_append, unplacedAll, inBraces]

theorem Alike.inherentBlock (alike : first.Alike second)
    (body : Token.Alike first.body.tokens second.body.tokens) :
    Token.Alike first.inherentBlock second.inherentBlock := by
  have header : unplacedAll first.generics.header = unplacedAll second.generics.header := alike.generics.alike_header
  have clause : unplacedAll first.clause = unplacedAll second.clause := alike.clause
  have selfType : unplacedAll first.selfType = unplacedAll second.selfType := alike.selfType
  have copy : unplacedAll first.copyMethod = unplacedAll second.copyMethod := alike.copyMethod body
  have helper : first.helperFunction = second.helperFunction := by
    rw [helperFunction, helperFunction, alike.traitTokens]
  unfold Token.Alike Expansion.inherentBlock
  simp only [unplacedAll_append, unplacedAll, unplaced_braces, header, clause, selfType, helper, copy]

theorem Alike.traitBlock (alike : first.Alike second) : Token.Alike first.traitBlock second.traitBlock := by
  have header : unplacedAll first.generics.header = unplacedAll second.generics.header := alike.generics.alike_header
  have clause : unplacedAll first.clause = unplacedAll second.clause := alike.clause
  have selfType : unplacedAll first.selfType = unplacedAll second.selfType := alike.selfType
  have forwarding : first.traitMethod = second.traitMethod := by
    rw [traitMethod, traitMethod, alike.method]
  unfold Token.Alike Expansion.traitBlock
  simp only [unplacedAll_append, header, clause, selfType, forwarding, alike.traitTokens]

theorem Alike.tokens (alike : first.Alike second) (body : Token.Alike first.body.tokens second.body.tokens) :
    Token.Alike first.tokens second.tokens := by
  have inherent : unplacedAll first.inherentBlock = unplacedAll second.inherentBlock := alike.inherentBlock body
  have implementation : unplacedAll first.traitBlock = unplacedAll second.traitBlock := alike.traitBlock
  rw [Token.Alike, Expansion.tokens, Expansion.tokens, unplacedAll_append, unplacedAll_append, inherent,
    implementation]

/-- What is asked of the parameters does not tell apart generics that repeat each other. -/
theorem boundPredicates_unplaced_eq (bounded : first.bounds = boundsFor options first.generics)
    (otherBounded : second.bounds = boundsFor options second.generics) (home : first.home = second.home)
    (repeats : first.generics.Repeats second.generics) :
    first.boundPredicates.map unplacedAll = second.boundPredicates.map unplacedAll := by
  unfold boundPredicates
  rw [bounded, otherBounded]
  unfold boundsFor
  cases options.bound with
  | some predicates => rfl
  | none =>
      have traits : first.traitTokens = second.traitTokens := by rw [traitTokens, traitTokens, home]
      have predicate (e : Expansion) : (unplacedAll ∘ fun p => p ++ spell ":" ++ e.traitTokens) =
          (fun p => p ++ (spell ":" ++ unplacedAll e.traitTokens)) ∘ unplacedAll := by
        funext p
        simp only [Function.comp_apply, unplacedAll_append, unplacedAll_spell, List.append_assoc]
      simp only [List.map_map, predicate, traits]
      rw [← List.map_map, ← List.map_map, repeats.typeParameters_unplaced_eq]

end Expansion

theorem CopyBody.alike_commaSeparated {parts others : List (List Token)} (alike : List.Forall₂ Token.Alike parts others) :
    Token.Alike (commaSeparated parts) (commaSeparated others) := by
  induction alike with
  | nil => rfl
  | cons here rest ih =>
      cases rest with
      | nil => exact here
      | cons next rest =>
          unfold Token.Alike at *
          simp only [commaSeparated, unplacedAll_append, here] at ih ⊢
          rw [ih]

namespace Declaration

variable {d : Declaration} {shape : Shape}

/-- Fields that share a name are carried alike. -/
def Unambiguous (d : Declaration) : Prop :=
  ∀ first ∈ d.fields, ∀ second ∈ d.fields, ∀ property other, first.property? = some property →
    second.property? = some other → property.name.text = other.name.text →
    Token.Alike property.expression.tokens other.expression.tokens

/-- Where no two fields share a name, nothing can be ambiguous. -/
theorem unambiguous_of_distinct (distinct : ∀ first ∈ d.fields, ∀ second ∈ d.fields, ∀ name other,
      first.name = some name → second.name = some other → name.text = other.text → first = second) :
    d.Unambiguous := by
  intro first inFirst second inSecond property other isProperty isOther sameName
  obtain ⟨named, _⟩ := Field.property?_eq_some_iff.mp isProperty
  obtain ⟨otherNamed, _⟩ := Field.property?_eq_some_iff.mp isOther
  have same := distinct first inFirst second inSecond _ _ named otherNamed sameName
  rw [← same, isProperty] at isOther
  cases isOther
  rfl

theorem exists_property?_of_unskipped {field : Field} (copyable : d.Copyable) (member : field ∈ d.fields)
    {name : Name} (named : field.name = some name) (unskipped : ¬ field.marks.Has .skip) :
    ∃ property, field.property? = some property ∧ property.name = name := by
  obtain ⟨clear, single, _⟩ := copyable.fields field member name named
  obtain ⟨strategy, accepted⟩ := Strategy.exists_ofAttributes_iff.mpr ⟨clear, single⟩
  have notSkip : strategy ≠ .skip := (Strategy.eq_skip_iff accepted).not.mpr unskipped
  exact ⟨⟨name, strategy⟩, Field.property?_eq_some_iff.mpr ⟨named, accepted, notSkip⟩, rfl⟩

end Declaration

theorem Shape.kind_eq_named {d : Declaration} {shape : Shape} {fields : Separated Field} {span : Span}
    (scanned : ofDeclaration d = .ok shape) (named : d.body = .struct (.named fields span)) : shape.kind = .named := by
  obtain ⟨kind, options, roles, ⟨unit, _⟩ | ⟨_, _, _, isNamed⟩, _, _, rfl⟩ := ofDeclaration_eq_ok_iff.mp scanned
  · rw [named] at unit
    cases unit
  · exact isNamed

namespace ClassDefinition

/-- The class is made of the struct and of blocks that repeat it: the candidate is the first that builds copies,
stands under the struct's own parameters, has none of its own, and takes a parameter for each field. -/
structure Mirrors (definition : ClassDefinition) (d : Declaration) (candidate : Candidate) : Prop where
  declaration : definition.declaration = .declaration d
  struct : ∃ fields span, d.body = .struct (.named fields span)
  unskipped : ∀ field ∈ d.fields, ¬ field.marks.Has .skip
  clear : ∀ block ∈ definition.blocks, ∀ f, .function f ∈ block.items →
    ¬ Candidate.Misread d.name.text ⟨block, f⟩
  first : Candidate.First (Candidate.Builds d.name.text d.Stores) definition.blocks candidate
  generics : candidate.block.generics.Repeats d.generics
  selfType : Token.Alike candidate.block.selfType.tokens (d.name.token :: d.generics.arguments)
  plain : candidate.function.signature.generics = Generics.empty
  inOrder : List.Forall₂ (fun field parameter => ∃ name, field.name = some name ∧ parameter.Binds name.text)
    d.fields candidate.function.signature.parameters

variable {definition : ClassDefinition} {d : Declaration} {candidate : Candidate} {shape : Shape} {derived : Expansion}

section Mirrored

variable (mirrors : definition.Mirrors d candidate) (scanned : Shape.ofDeclaration d = .ok shape)

include mirrors scanned

/-- Each field has a property, and each property a parameter. -/
theorem Mirrors.properties_inOrder :
    d.fields.map Field.name = shape.properties.map (fun property => some property.name) ∧
      List.Forall₂ (fun property parameter => parameter.Binds property.name.text) shape.properties
        candidate.function.signature.parameters := by
  have copyable := Shape.exists_ofDeclaration_iff.mp ⟨shape, scanned⟩
  have isProperty (field : Field) (member : field ∈ d.fields) (name : Name) (named : field.name = some name) :=
    Declaration.exists_property?_of_unskipped copyable member named (mirrors.unskipped field member)
  have inOrder := mirrors.inOrder
  rw [Shape.properties_eq scanned]
  generalize candidate.function.signature.parameters = parameters at inOrder
  generalize d.fields = fields at inOrder isProperty
  induction inOrder with
  | nil => exact ⟨rfl, .nil⟩
  | cons here rest ih =>
      obtain ⟨name, named, binds⟩ := here
      obtain ⟨property, shown, rfl⟩ := isProperty _ List.mem_cons_self name named
      obtain ⟨names, others⟩ := ih fun field member => isProperty field (List.mem_cons_of_mem _ member)
      rw [List.filterMap_cons_some shown, List.map_cons, List.map_cons, names, named]
      exact ⟨rfl, .cons binds others⟩

theorem Mirrors.skipped_eq_nil : shape.skipped = [] := by
  have copyable := Shape.exists_ofDeclaration_iff.mp ⟨shape, scanned⟩
  rw [Shape.skipped_eq scanned, List.filterMap_filterMap, List.filterMap_eq_nil_iff]
  intro field member
  cases named : field.name with
  | none => simp [Field.role?, named]
  | some name =>
      obtain ⟨property, shown, _⟩ :=
        Declaration.exists_property?_of_unskipped copyable member named (mirrors.unskipped field member)
      obtain ⟨role, isRole, isCopied⟩ := Option.bind_eq_some_iff.mp shown
      rw [isRole]
      cases role with
      | copied => rfl
      | skipped => cases isCopied

theorem Mirrors.arguments_alike (unambiguous : d.Unambiguous) :
    List.Forall₂ Token.Alike
      ((candidate.function.parameterNames.map (Expansion.argument shape)).map CopyExpression.tokens)
      (shape.properties.map fun property => property.expression.tokens) := by
  have argument (property : Property) (member : property ∈ shape.properties) (parameter : Parameter)
      (binds : parameter.Binds property.name.text) :
      Token.Alike (Expansion.argument shape parameter.name?).tokens property.expression.tokens := by
    -- The parameter stands for the first property of this name, which may be another one.
    have present : shape.property? property.name.text ≠ none := by
      simp only [Shape.property?, ne_eq, List.find?_eq_none, decide_eq_true_eq, not_forall, not_not]
      exact ⟨property, member, rfl⟩
    obtain ⟨other, found⟩ := Option.ne_none_iff_exists'.mp present
    have sameName : other.name.text = property.name.text := by simpa using List.find?_some found
    have isOther := List.mem_of_find?_eq_some found
    rw [Shape.properties_eq scanned, List.mem_filterMap] at isOther member
    obtain ⟨first, inFirst, isFirst⟩ := isOther
    obtain ⟨second, inSecond, isSecond⟩ := member
    rw [Expansion.argument, Parameter.name?_eq_some_iff.mpr binds, Option.bind_some, found]
    exact unambiguous first inFirst second inSecond other property isFirst isSecond sameName
  simp only [Function.parameterNames, List.map_map, List.forall₂_map_left_iff, List.forall₂_map_right_iff]
  have stored := (List.forall₂_and_left shape.properties _).mpr
    ⟨fun _ member => member, (mirrors.properties_inOrder scanned).2⟩
  exact stored.flip.imp fun parameter property both => argument property both.1 parameter both.2

/-- Both expansions are built from one shape, and the constructor's generics and type repeat the struct's. -/
theorem Mirrors.expansions_alike :
    (Expansion.byConstructor shape candidate.constructor).Alike (Expansion.memberwise shape) := by
  obtain ⟨kind, options, roles, _, _, _, rfl⟩ := Shape.ofDeclaration_eq_ok_iff.mp scanned
  have own : candidate.generics = candidate.block.generics := by
    rw [Candidate.generics, mirrors.plain]
    rfl
  have repeats : candidate.constructor.generics.Repeats d.generics := by
    rw [Candidate.constructor, own]
    exact mirrors.generics
  refine ⟨rfl, rfl, rfl, repeats, ?_, mirrors.selfType⟩
  exact Expansion.boundPredicates_unplaced_eq rfl rfl rfl repeats

end Mirrored

/-- A class that mirrors its struct is written as the struct alone would be. Only the method's body differs: it is
a call of the constructor where the other is a literal, with the same copies in the same order. -/
theorem expand_agrees_with_derive (mirrors : definition.Mirrors d candidate) (unambiguous : d.Unambiguous)
    (accepted : Expansion.derive d = .ok derived) :
    ∃ (expansion : Expansion) (copies : List (Name × CopyExpression)), definition.expand = .ok expansion ∧
      d.fields.map Field.name = copies.map (fun copy => some copy.1) ∧ derived.body = .literal copies [] ∧
      Token.Alike expansion.body.tokens (spellAll ["Self", "::"] ++ [candidate.function.signature.name.token,
        parentheses (CopyBody.commaSeparated (copies.map fun copy => copy.2.tokens))]) ∧
      Token.Alike expansion.tokens { derived with body := expansion.body }.tokens ∧
      definition.output = definition.userItems ++ expansion.tokens ∧ d.derived = derived.tokens := by
  obtain ⟨shape, scanned, rfl⟩ := Expansion.derive_eq_ok_iff.mp accepted
  -- Both expansions are built from this shape, so they differ in the body of the method only.
  have selected := (Constructor.select_scanned_eq_ok_iff scanned).mpr
    ⟨mirrors.clear, candidate, mirrors.first, rfl⟩
  have expanded := expand_eq_ok_iff.mpr
    ⟨d, shape, candidate.constructor, mirrors.declaration, scanned, selected, rfl⟩
  refine ⟨_, shape.properties.map fun property => (property.name, property.expression), expanded, ?_, ?_, ?_, ?_, ?_, ?_⟩
  · rw [List.map_map]
    exact (mirrors.properties_inOrder scanned).1
  · obtain ⟨fields, span, named⟩ := mirrors.struct
    have kind : shape.kind = .named := Shape.kind_eq_named scanned named
    change Expansion.literalBody shape = _
    rw [Expansion.literalBody, kind, mirrors.skipped_eq_nil scanned]
  · have arguments := CopyBody.alike_commaSeparated (mirrors.arguments_alike scanned unambiguous)
    have call : (Expansion.byConstructor shape candidate.constructor).body.tokens = spellAll ["Self", "::"] ++
        [candidate.function.signature.name.token, parentheses (CopyBody.commaSeparated
          ((candidate.function.parameterNames.map (Expansion.argument shape)).map CopyExpression.tokens))] := rfl
    have copies : (shape.properties.map fun property => (property.name, property.expression)).map
        (fun copy => copy.2.tokens) = shape.properties.map fun property => property.expression.tokens := List.map_map
    unfold Token.Alike at *
    rw [call, copies]
    simp only [unplacedAll_append, unplacedAll, unplaced_parentheses, arguments]
  · exact ((mirrors.expansions_alike scanned).withBody _).tokens rfl
  · rw [output, expanded]
    rfl
  · rw [Declaration.derived, accepted]
    rfl

section Duo

/-- The parameters of a declaration, or as a block repeats them. -/
def duoGenerics (default : List Token) (span : Span) : Generics where
  parameters :=
    [(⟨.lifetime, [], [], [.mark '\'' true span, .word "a" span], [], []⟩, true),
      (⟨.type, [], [], [.word "T" span], [.mark ':' false span, .word "Ord" span], []⟩, true),
      (⟨.constant, [], [.word "const" span], [.word "N" span], [.mark ':' false span, .word "usize" span], default⟩,
        false)]
  clause := some [([.word "T" span, .mark ':' false span, .word "Clone" span], false)]

/-- A struct with two fields of these names, one of which is cloned. -/
def duoStruct (first second : String) : Declaration where
  attributes := []
  head := [.word "struct" .origin]
  name := ⟨"Duo", .origin⟩
  generics := duoGenerics [.mark '=' false .origin, .literal "1" .origin] .origin
  body := .struct (.named [(plainField first "T" (some "clone"), true), (plainField second "String" none, false)] .origin)
  stop := []

/-- The only constructor of the struct. It stands further down, in a block that repeats the parameters. -/
def duoConstructor (first second : String) : Candidate :=
  let place : Span := ⟨⟨5, 0⟩, ⟨5, 1⟩⟩
  let function : Function :=
    { attributes := []
      head := []
      signature :=
        { name := ⟨"new", place⟩
          isAsync := false
          isUnsafe := false
          generics := Generics.empty
          parameters := [.typed (.name first false), .typed (.name second false)]
          result := some (.path none false [.bare "Self"]) }
      statements := []
      body := []
      span := place }
  { block :=
      { attributes := []
        head := [.word "impl" place]
        generics := duoGenerics [] place
        trait := none
        selfType := ⟨.path none false [.generic "Duo" false []],
          .word "Duo" place :: (duoGenerics [] place).arguments⟩
        items := [.function function]
        span := place }
    function := function }

def duo (first second : String) : ClassDefinition :=
  ⟨.declaration (duoStruct first second), [(duoConstructor first second).block]⟩

theorem duo_mirrors (first second : String) :
    (duo first second).Mirrors (duoStruct first second) (duoConstructor first second) := by
  have fields : (duoStruct first second).fields =
      [plainField first "T" (some "clone"), plainField second "String" none] := rfl
  have cloned : (plainField first "T" (some "clone")).marks.entries = [⟨some .clone, .origin⟩] := rfl
  have plain : (plainField second "String" none).marks.entries = [] := rfl
  have unmarked : (duoConstructor first second).function.marks = .nothing := rfl
  have only (block : Implementation) (member : block ∈ (duo first second).blocks) (f : Function)
      (isItem : .function f ∈ block.items) : f = (duoConstructor first second).function := by
    cases List.mem_singleton.mp member
    cases List.mem_singleton.mp isItem
    rfl
  refine ⟨rfl, ⟨_, _, rfl⟩, ?_, ?_, ⟨⟨⟨rfl, .path (.inr rfl)⟩, ?_, ?_⟩, [], [], [], [], rfl, rfl, by simp, by simp⟩,
    ⟨rfl, rfl⟩, rfl, rfl, .cons ⟨_, rfl, .typed .name⟩ (.cons ⟨_, rfl, .typed .name⟩ .nil)⟩
  · intro field member
    rw [fields] at member
    rcases List.mem_pair.mp member with rfl | rfl
    · simp [Helper.Reading.Has, cloned]
    · simp [Helper.Reading.Has, plain]
  · intro block member f isItem misread
    refine misread.unclear ?_
    rw [only block member f isItem, unmarked]
    exact ⟨rfl, by simp [Helper.Reading.nothing]⟩
  · refine ⟨?_, ?_, by simp [duoConstructor], rfl, rfl, ⟨_, rfl, .path (.inl rfl)⟩, fun _ body => by cases body⟩
    · simp [unmarked, Helper.Reading.Has, Helper.Reading.nothing]
    · simp [unmarked, Helper.Reading.Has, Helper.Reading.nothing]
  · rintro _ ⟨field, member, name, named, rfl, _⟩
    rw [fields] at member
    rcases List.mem_pair.mp member with rfl | rfl
    · cases named
      exact ⟨_, List.mem_cons_self, .typed .name⟩
    · cases named
      exact ⟨_, List.mem_cons_of_mem _ List.mem_cons_self, .typed .name⟩

theorem expand_agrees_with_derive_duo :
    (duo "left" "right").Mirrors (duoStruct "left" "right") (duoConstructor "left" "right") ∧
      (duoStruct "left" "right").Unambiguous ∧
      ∃ derived expansion, Expansion.derive (duoStruct "left" "right") = .ok derived ∧
        (duo "left" "right").expand = .ok expansion ∧
        Token.Alike expansion.tokens { derived with body := expansion.body }.tokens := by
  have unambiguous : (duoStruct "left" "right").Unambiguous := by
    refine Declaration.unambiguous_of_distinct fun one inOne two inTwo name other named otherNamed sameName => ?_
    have fields : (duoStruct "left" "right").fields =
        [plainField "left" "T" (some "clone"), plainField "right" "String" none] := rfl
    rw [fields] at inOne inTwo
    rcases List.mem_pair.mp inOne with rfl | rfl <;> rcases List.mem_pair.mp inTwo with rfl | rfl
    · rfl
    · cases named
      cases otherNamed
      exact absurd sameName (by decide)
    · cases named
      cases otherNamed
      exact absurd sameName (by decide)
    · rfl
  obtain ⟨derived, accepted⟩ : ∃ derived, Expansion.derive (duoStruct "left" "right") = .ok derived := ⟨_, rfl⟩
  obtain ⟨expansion, _, expanded, _, _, _, alike, _⟩ :=
    expand_agrees_with_derive (duo_mirrors "left" "right") unambiguous accepted
  exact ⟨duo_mirrors "left" "right", unambiguous, derived, expansion, accepted, expanded, alike⟩

/-- Of two fields with one name, a parameter of this name stands for the first. -/
theorem expand_disagrees_with_derive :
    (duo "left" "left").Mirrors (duoStruct "left" "left") (duoConstructor "left" "left") ∧
      ∃ derived expansion, Expansion.derive (duoStruct "left" "left") = .ok derived ∧
        (duo "left" "left").expand = .ok expansion ∧
        ¬ ∃ copies : List (Name × CopyExpression), derived.body = .literal copies [] ∧
          Token.Alike expansion.body.tokens (spellAll ["Self", "::"] ++
            [(duoConstructor "left" "left").function.signature.name.token,
              parentheses (CopyBody.commaSeparated (copies.map fun copy => copy.2.tokens))]) := by
  refine ⟨duo_mirrors "left" "left", _, _, rfl, rfl, ?_⟩
  rintro ⟨copies, literal, alike⟩
  cases literal
  exact absurd alike.renderAll_eq (by decide +kernel)

end Duo

end ClassDefinition

end Replica
