import Replica.Proofs.Class.Acceptance

/-!
How a copy is built by a constructor: one call of it, with an argument for each parameter in their order.
What an argument is depends on the field that the parameter is named after.
-/

namespace Replica

open Token

/-- The expression reads the field of this name. -/
def CopyExpression.Reads (text : String) : CopyExpression → Prop
  | .deep field => field.text = text
  | .clone field => field.text = text
  | .custom _ field => field.text = text
  | .default => False

/-- How the copy of a field is written: a call with a reference to the field, of the function that the strategy
asks for. A field that is skipped has no copy. -/
inductive Strategy.Writes (field : Name) : Strategy → List Token → Prop where
  | deep : Writes field .deep
      (spellAll ["Self", "::", "__deep_copy_value"] ++
        [parentheses (spellAll ["&", "self", "."] ++ [field.token])])
  | clone : Writes field .clone
      (spellAll ["::", "core", "::", "clone", "::", "Clone", "::", "clone"] ++
        [parentheses (spellAll ["&", "self", "."] ++ [field.token])])
  | custom (path : PathText) : Writes field (.custom path)
      (path.tokens ++ [parentheses (spellAll ["&", "self", "."] ++ [field.token])])

namespace Property

variable {property : Property}

theorem writes_expression (carried : property.strategy ≠ .skip) :
    property.strategy.Writes property.name property.expression.tokens := by
  unfold expression
  cases kind : property.strategy with
  | deep => exact .deep
  | clone => exact .clone
  | custom path => exact .custom path
  | skip => exact absurd kind carried

theorem reads_expression_iff (carried : property.strategy ≠ .skip) {text : String} :
    property.expression.Reads text ↔ property.name.text = text := by
  unfold expression
  cases kind : property.strategy with
  | skip => exact absurd kind carried
  | _ => rfl

end Property

theorem Parameter.Binds.unique {parameter : Parameter} {text other : String} (binds : parameter.Binds text)
    (alsoBinds : parameter.Binds other) : text = other :=
  Option.some.inj ((name?_eq_some_iff.mpr binds).symm.trans (name?_eq_some_iff.mpr alsoBinds))

namespace Declaration

variable {d : Declaration} {name : Name} {strategy : Strategy}

/-- There is a field of this name that is carried into copies by this strategy. In a declaration that gives a
name to several fields, it is the first that is carried at all. -/
def Carries (d : Declaration) (name : Name) (strategy : Strategy) : Prop :=
  ∃ front field back, d.fields = front ++ field :: back ∧ field.name = some name ∧
    Strategy.ofAttributes field.attributes = .ok strategy ∧ strategy ≠ .skip ∧
    ∀ other ∈ front, ¬ other.Stores name.text

theorem Carries.ne_skip (carries : d.Carries name strategy) : strategy ≠ .skip := by
  obtain ⟨_, _, _, _, _, _, notSkip, _⟩ := carries
  exact notSkip

/-- Where no two fields have the same name, each field that is not skipped is carried. -/
theorem carries_of_only {field : Field} (member : field ∈ d.fields) (named : field.name = some name)
    (accepted : Strategy.ofAttributes field.attributes = .ok strategy) (notSkip : strategy ≠ .skip)
    (only : ∀ other ∈ d.fields, other.Stores name.text → other = field) : d.Carries name strategy := by
  obtain ⟨front, back, parts, absent⟩ := List.eq_append_cons_of_mem member
  refine ⟨front, field, back, parts, named, accepted, notSkip, fun other inFront stores => ?_⟩
  have isField : other = field := only other (by simp [parts, inFront]) stores
  exact absent (isField ▸ inFront)

/-- What stands for a parameter in the call. -/
structure Fills (d : Declaration) (parameter : Parameter) (argument : CopyExpression) : Prop where
  copied : ∀ name strategy, d.Carries name strategy → parameter.Binds name.text →
    strategy.Writes name argument.tokens
  default : (∀ text, d.Stores text → ¬ parameter.Binds text) →
    argument.tokens = spellAll ["::", "core", "::", "default", "::", "Default", "::", "default"] ++ [parentheses []]

end Declaration

namespace Shape

variable {d : Declaration} {shape : Shape} {text : String} {property : Property}

section Scanned

variable (scanned : ofDeclaration d = .ok shape)

include scanned

theorem property?_eq_some_iff :
    shape.property? text = some property ↔
      d.Carries property.name property.strategy ∧ property.name.text = text := by
  have copyable := (exists_ofDeclaration_iff.mp ⟨shape, scanned⟩).fields
  have isStored (field : Field) (member : field ∈ d.fields) :
      (field.property?.any fun property => property.name.text = text) = true ↔ field.Stores text := by
    rw [Field.stores_iff (copyable field member)]
    cases field.property? <;> simp
  rw [property?, properties_eq scanned, List.find?_filterMap, Option.bind_eq_some_iff]
  constructor
  · rintro ⟨field, found, isProperty⟩
    obtain ⟨holds, front, back, parts, none⟩ := List.find?_eq_some_iff_append.mp found
    obtain ⟨named, accepted, notSkip⟩ := Field.property?_eq_some_iff.mp isProperty
    have same : property.name.text = text := by simpa [isProperty] using holds
    refine ⟨⟨front, field, back, parts, named, accepted, notSkip, fun other inFront => ?_⟩, same⟩
    rw [same, ← isStored other (by simp [parts, inFront])]
    simpa using none other inFront
  · rintro ⟨⟨front, field, back, parts, named, accepted, notSkip, none⟩, same⟩
    have isProperty : field.property? = some property :=
      Field.property?_eq_some_iff.mpr ⟨named, accepted, notSkip⟩
    have isSuch : (field.property?.any fun property => property.name.text = text) = true := by
      simp [isProperty, same]
    refine ⟨field, List.find?_eq_some_iff_append.mpr ⟨isSuch, front, back, parts, ?_⟩, isProperty⟩
    intro other inFront
    have unstored := none other inFront
    rw [same, ← isStored other (by simp [parts, inFront])] at unstored
    simpa using unstored

theorem property?_eq_none_iff : shape.property? text = none ↔ ¬ d.Stores text := by
  rw [← mem_names_iff scanned, property?, List.find?_eq_none, names, List.mem_map]
  simp

theorem exists_carries_of_stores (stores : d.Stores text) :
    ∃ name strategy, d.Carries name strategy ∧ name.text = text := by
  have present : shape.property? text ≠ none := by
    rwa [ne_eq, property?_eq_none_iff scanned, not_not]
  obtain ⟨property, found⟩ := Option.ne_none_iff_exists'.mp present
  exact ⟨property.name, property.strategy, (property?_eq_some_iff scanned).mp found⟩

end Scanned

end Shape

namespace Expansion

variable {d : Declaration} {shape : Shape} {parameter : Parameter} {name : Name} {strategy : Strategy}
  {text : String}

section Scanned

variable (scanned : Shape.ofDeclaration d = .ok shape)

include scanned

theorem argument_of_carries (carries : d.Carries name strategy) (binds : parameter.Binds name.text) :
    argument shape parameter.name? = Property.expression ⟨name, strategy⟩ := by
  have found : shape.property? name.text = some ⟨name, strategy⟩ :=
    (Shape.property?_eq_some_iff scanned).mpr ⟨carries, rfl⟩
  rw [argument, Parameter.name?_eq_some_iff.mpr binds, Option.bind_some, found]

theorem argument_of_unnamed (unnamed : ∀ text, d.Stores text → ¬ parameter.Binds text) :
    argument shape parameter.name? = .default := by
  have absent : parameter.name?.bind shape.property? = none := by
    rw [Option.bind_eq_none_iff]
    intro text bound
    rw [Shape.property?_eq_none_iff scanned]
    exact fun stores => unnamed text stores (Parameter.name?_eq_some_iff.mp bound)
  rw [argument, absent]

theorem fills_argument (parameter : Parameter) : d.Fills parameter (argument shape parameter.name?) := by
  constructor
  · intro name strategy carries binds
    rw [argument_of_carries scanned carries binds]
    exact @Property.writes_expression ⟨name, strategy⟩ carries.ne_skip
  · intro unnamed
    rw [argument_of_unnamed scanned unnamed]
    rfl

/-- An argument reads a field that is carried if its parameter is named after it, and no other field. -/
theorem reads_argument_iff :
    (argument shape parameter.name?).Reads text ↔ d.Stores text ∧ parameter.Binds text := by
  -- A parameter binds one name at most, so that it is enough to look at the field of that name.
  by_cases named : ∃ text, d.Stores text ∧ parameter.Binds text
  · obtain ⟨bound, stores, binds⟩ := named
    obtain ⟨name, strategy, carries, rfl⟩ := Shape.exists_carries_of_stores scanned stores
    rw [argument_of_carries scanned carries binds, Property.reads_expression_iff carries.ne_skip]
    constructor
    · rintro rfl
      exact ⟨stores, binds⟩
    · rintro ⟨_, alsoBinds⟩
      exact binds.unique alsoBinds
  · rw [argument_of_unnamed scanned fun text stores binds => named ⟨text, stores, binds⟩]
    exact ⟨False.elim, fun both => named ⟨text, both⟩⟩

end Scanned

end Expansion

namespace ClassDefinition

variable {definition : ClassDefinition} {expansion : Expansion}

theorem expand_body (expanded : definition.expand = .ok expansion) :
    ∃ d shape candidate, definition.declaration = .declaration d ∧ Shape.ofDeclaration d = .ok shape ∧
      Candidate.First (Candidate.Builds d.name.text d.Stores) definition.blocks candidate ∧
      expansion.body = .call candidate.function.signature.name
        (candidate.function.signature.parameters.map fun parameter => Expansion.argument shape parameter.name?) := by
  obtain ⟨d, shape, constructor, declaration, scanned, selected, rfl⟩ := expand_eq_ok_iff.mp expanded
  obtain ⟨_, candidate, first, rfl⟩ := (Constructor.select_scanned_eq_ok_iff scanned).mp selected
  refine ⟨d, shape, candidate, declaration, scanned, first, ?_⟩
  simp only [Expansion.byConstructor, Expansion.build, Candidate.constructor, Function.parameterNames, List.map_map]
  rfl

theorem copyMethod_of_call {name : Name} {arguments : List CopyExpression}
    (body : expansion.body = .call name arguments) :
    ∃ header, expansion.copyMethod = header ++ [braces (spellAll ["Self", "::"] ++
      [name.token, parentheses (CopyBody.commaSeparated (arguments.map CopyExpression.tokens))])] := by
  rw [Expansion.copyMethod, body]
  exact ⟨_, rfl⟩

/-- The copy of a class is one call of its constructor. Each parameter that is named after a field gets the
copy of this field, and any other a default value. No field that is carried is left out, none that is not is
read, and none is read twice unless two parameters have the same name. -/
theorem call_carries_fields (expanded : definition.expand = .ok expansion) :
    ∃ d candidate arguments, definition.declaration = .declaration d ∧
      Candidate.First (Candidate.Builds d.name.text d.Stores) definition.blocks candidate ∧
      (∃ header, expansion.copyMethod = header ++ [braces (spellAll ["Self", "::"] ++
        [candidate.function.signature.name.token,
          parentheses (CopyBody.commaSeparated (arguments.map CopyExpression.tokens))])]) ∧
      List.Forall₂ d.Fills candidate.function.signature.parameters arguments ∧
      (∀ text, d.Stores text → ∃ argument ∈ arguments, argument.Reads text) ∧
      (candidate.function.signature.parameters.Pairwise
          (fun first second => ∀ text, first.Binds text → ¬ second.Binds text) →
        ∀ text, d.Stores text → ∃ front argument back, arguments = front ++ argument :: back ∧
          argument.Reads text ∧ ∀ other ∈ front ++ back, ¬ other.Reads text) ∧
      ∀ argument ∈ arguments, ∀ text, argument.Reads text → d.Stores text := by
  obtain ⟨d, shape, candidate, declaration, scanned, first, body⟩ := expand_body expanded
  refine ⟨d, candidate, _, declaration, first, copyMethod_of_call body, ?_, ?_, ?_, ?_⟩
  · rw [List.forall₂_map_right_iff, List.forall₂_same]
    exact fun parameter _ => Expansion.fills_argument scanned parameter
  · intro text stores
    obtain ⟨parameter, member, binds⟩ := first.1.takes text stores
    exact ⟨_, List.mem_map_of_mem member, (Expansion.reads_argument_iff scanned).mpr ⟨stores, binds⟩⟩
  · intro distinct text stores
    obtain ⟨parameter, member, binds⟩ := first.1.takes text stores
    obtain ⟨front, back, parts⟩ := List.append_of_mem member
    rw [parts] at distinct ⊢
    obtain ⟨_, distinctBehind, apart⟩ := List.pairwise_append.mp distinct
    have behind := (List.pairwise_cons.mp distinctBehind).1
    refine ⟨_, _, _, List.map_append, (Expansion.reads_argument_iff scanned).mpr ⟨stores, binds⟩, ?_⟩
    rw [← List.map_append]
    intro other isOther reads
    obtain ⟨another, inOthers, rfl⟩ := List.mem_map.mp isOther
    obtain ⟨_, alsoBinds⟩ := (Expansion.reads_argument_iff scanned).mp reads
    rcases List.mem_append.mp inOthers with inFront | inBack
    · exact apart another inFront parameter List.mem_cons_self text alsoBinds binds
    · exact behind another inBack text binds alsoBinds
  · intro argument member text reads
    obtain ⟨parameter, _, rfl⟩ := List.mem_map.mp member
    exact ((Expansion.reads_argument_iff scanned).mp reads).1

/-- A field of a type that is known by its name, with at most one entry. -/
def plainField (name type : String) (entry : Option String) : Field where
  attributes := entry.toList.map fun word =>
    ⟨false, ⟨false, [⟨Helper.name, .origin⟩]⟩, .list [.word word .origin] .origin, []⟩
  visibility := []
  name := some ⟨name, .origin⟩
  type := ⟨.path none false [.bare type], [.word type .origin]⟩

/-- A constructor with parameters of these names. -/
def plainConstructor (name : String) (parameters : List String) (statements : List StatementOutline) : Function where
  attributes := []
  head := []
  signature :=
    { name := ⟨name, .origin⟩
      isAsync := false
      isUnsafe := false
      generics := Generics.empty
      parameters := parameters.map fun text => .typed (.name text false)
      result := some (.path none false [.bare "Self"]) }
  statements := statements
  body := []
  span := .origin

/-- A struct of which two fields are carried, and a constructor that takes them in another order, with something
else between them. -/
def track : ClassDefinition where
  declaration := .declaration
    { attributes := []
      head := [.word "struct" .origin]
      name := ⟨"Track", .origin⟩
      generics := Generics.empty
      body := .struct (.named
        [(plainField "title" "String" none, true), (plainField "cover" "Cover" (some "clone"), true),
          (plainField "plays" "Count" (some "skip"), false)] .origin)
      stop := [] }
  blocks :=
    [{ attributes := []
       head := [.word "impl" .origin]
       generics := Generics.empty
       trait := none
       selfType := ⟨.path none false [.bare "Track"], [.word "Track" .origin]⟩
       items := [.function
        { attributes := []
          head := []
          signature :=
            { name := ⟨"new", .origin⟩
              isAsync := false
              isUnsafe := false
              generics := Generics.empty
              parameters := [.typed (.name "cover" false), .typed (.name "plays" false), .typed .other,
                .typed (.parenthesized (.name "title" false))]
              result := some (.path none false [.bare "Self"]) }
          statements := []
          body := []
          span := .origin }]
       span := .origin }]

theorem call_carries_fields_track :
    ∃ expansion, track.expand = .ok expansion ∧ ∃ d candidate arguments, track.declaration = .declaration d ∧
      Candidate.First (Candidate.Builds d.name.text d.Stores) track.blocks candidate ∧
      List.Forall₂ d.Fills candidate.function.signature.parameters arguments := by
  obtain ⟨expansion, expanded⟩ : ∃ expansion, track.expand = .ok expansion := ⟨_, rfl⟩
  obtain ⟨d, candidate, arguments, declaration, first, _, fills, _⟩ := call_carries_fields expanded
  exact ⟨expansion, expanded, d, candidate, arguments, declaration, first, fills⟩

example : track.expand.map Expansion.body = .ok (.call ⟨"new", .origin⟩
    [.clone ⟨"cover", .origin⟩, .default, .default, .deep ⟨"title", .origin⟩]) := rfl

end ClassDefinition

end Replica
