import Replica.Proofs.Class.Signatures

/-!
What an entry at one field changes. A field without an entry can be given one wherever copies can be built, and they
still can: the entry decides how this field is carried and touches no other. A field that is skipped asks less of a
constructor, so that an earlier one may serve.
-/

namespace Replica

namespace Field

variable {field : Field} {name : Name} {attributes : List Attribute} {strategy : Strategy}

def withAttributes (attributes : List Attribute) (field : Field) : Field :=
  { field with attributes := attributes }

/-- The name of the field and its copy, if it has one. -/
def copy? (field : Field) : Option (Name × CopyExpression) :=
  field.property?.map fun property => (property.name, property.expression)

def skipped? (field : Field) : Option Name :=
  field.role?.bind Role.skipped?

section Named

variable (named : field.name = some name)

include named

theorem role?_of_carried (accepted : Strategy.ofAttributes field.attributes = .ok strategy)
    (carried : strategy ≠ .skip) : field.role? = some (.copied ⟨name, strategy⟩) :=
  role?_eq_some_iff.mpr ⟨name, strategy, named, accepted, .inr ⟨carried, rfl⟩⟩

theorem role?_of_skip (accepted : Strategy.ofAttributes field.attributes = .ok .skip) :
    field.role? = some (.skipped name) :=
  role?_eq_some_iff.mpr ⟨name, .skip, named, accepted, .inl ⟨rfl, rfl⟩⟩

theorem copies_append (accepted : Strategy.ofAttributes field.attributes = .ok strategy) (carried : strategy ≠ .skip)
    (front back : List Field) :
    (front ++ field :: back).filterMap copy? =
        front.filterMap copy? ++ (name, Property.expression ⟨name, strategy⟩) :: back.filterMap copy? ∧
      (front ++ field :: back).filterMap skipped? = (front ++ back).filterMap skipped? := by
  have role := role?_of_carried named accepted carried
  have copied : field.copy? = some (name, Property.expression ⟨name, strategy⟩) := by
    rw [copy?, property?, role]
    rfl
  have unskipped : field.skipped? = none := by
    rw [skipped?, role]
    rfl
  simp [copied, unskipped]

theorem skips_append (accepted : Strategy.ofAttributes field.attributes = .ok .skip) (front back : List Field) :
    (front ++ field :: back).filterMap copy? = (front ++ back).filterMap copy? ∧
      (front ++ field :: back).filterMap skipped? = front.filterMap skipped? ++ name :: back.filterMap skipped? := by
  have role := role?_of_skip named accepted
  have uncopied : field.copy? = none := by
    rw [copy?, property?, role]
    rfl
  have skipped : field.skipped? = some name := by
    rw [skipped?, role]
    rfl
  simp [uncopied, skipped]

theorem stores_iff_of_accepted (accepted : Strategy.ofAttributes field.attributes = .ok strategy) {text : String} :
    field.Stores text ↔ name.text = text ∧ strategy ≠ .skip := by
  have skips := Strategy.eq_skip_iff accepted
  constructor
  · rintro ⟨other, otherNamed, rfl, stored⟩
    rw [named, Option.some.injEq] at otherNamed
    exact ⟨otherNamed ▸ rfl, skips.not.mpr stored⟩
  · rintro ⟨rfl, carried⟩
    exact ⟨name, named, rfl, skips.not.mp carried⟩

end Named

end Field

namespace Fields

variable {fields : Fields} {n : Nat} {update : Field → Field}

/-- The fields with another in the place of the n-th. -/
def modify (n : Nat) (update : Field → Field) : Fields → Fields
  | .named fields span => .named (List.modify fields n (Prod.map update id)) span
  | .positional fields span => .positional (List.modify fields n (Prod.map update id)) span
  | .unit => .unit

theorem items_modify (fields : Separated Field) :
    Separated.items (List.modify fields n (Prod.map update id)) = fields.items.modify n update := by
  unfold Separated.items
  induction fields generalizing n with
  | nil => cases n <;> rfl
  | cons field fields ih =>
      cases n with
      | zero => rfl
      | succ n => simp [ih]

theorem toList_modify : (fields.modify n update).toList = fields.toList.modify n update := by
  cases fields with
  | named fields span => exact items_modify fields
  | positional fields span => exact items_modify fields
  | unit => cases n <;> rfl

end Fields

namespace Declaration

variable {d : Declaration} {front back : List Field} {field : Field} {name : Name} {attributes : List Attribute}
  {strategy : Strategy} {parameter : Parameter} {text : String}

/-- The struct with these attributes at its n-th field, in the place of those that it has. -/
def reattribute (d : Declaration) (n : Nat) (attributes : List Attribute) : Declaration :=
  { d with
    body := match d.body with
      | .struct fields => .struct (fields.modify n (Field.withAttributes attributes))
      | body => body }

/-- The first field of this name that is carried. -/
def property? (d : Declaration) (text : String) : Option Property :=
  (d.fields.filterMap Field.property?).find? fun property => property.name.text = text

/-- What a constructor gets for the parameter. -/
def argument (d : Declaration) (parameter : Parameter) : CopyExpression :=
  match parameter.name?.bind d.property? with
  | some property => property.expression
  | none => .default

theorem argument_eq_of_property?_eq {other : Declaration}
    (same : ∀ text, parameter.Binds text → other.property? text = d.property? text) :
    other.argument parameter = d.argument parameter := by
  unfold argument
  cases bound : parameter.name? with
  | none => rfl
  | some text =>
      rw [Option.bind_some, Option.bind_some, same text (Parameter.name?_eq_some_iff.mp bound)]

theorem body_reattribute {fields : Fields} {n : Nat} (struct : d.body = .struct fields) :
    (d.reattribute n attributes).body = .struct (fields.modify n (Field.withAttributes attributes)) := by
  simp only [reattribute, struct]

section Parts

variable (parts : d.fields = front ++ field :: back)

include parts

theorem fields_reattribute :
    (d.reattribute front.length attributes).fields = front ++ field.withAttributes attributes :: back := by
  unfold fields at parts ⊢
  cases body : d.body with
  | struct fields =>
      rw [body] at parts
      rw [body_reattribute body]
      change fields.toList = _ at parts
      change (fields.modify _ _).toList = _
      rw [Fields.toList_modify, parts, List.modify_eq_take_drop, List.take_left, List.drop_left]
      rfl
  | enumeration variants span => simp [body] at parts
  | union fields => simp [body] at parts

theorem Copyable.reattribute (copyable : d.Copyable) (named : field.name = some name)
    (plain : Strategy.ofAttributes field.attributes = .ok .deep)
    (given : Strategy.ofAttributes attributes = .ok strategy) : (d.reattribute front.length attributes).Copyable := by
  have before : ∀ other ∈ front ++ field :: back, ∀ name, other.name = some name → other.Copyable :=
    parts ▸ copyable.fields
  refine ⟨?_, copyable.clear, copyable.bounds, ?_⟩
  · obtain unit | ⟨fields, span, isNamed⟩ := copyable.struct
    · exact .inl (body_reattribute unit)
    · exact .inr ⟨_, span, body_reattribute isNamed⟩
  · rw [fields_reattribute parts]
    intro other member otherName otherNamed
    rcases List.mem_append.mp member with inFront | behind
    · exact before other (List.mem_append_left _ inFront) otherName otherNamed
    · rcases List.mem_cons.mp behind with rfl | inBack
      · -- The type was good enough without an entry.
        obtain ⟨clear, single⟩ := Strategy.exists_ofAttributes_iff.mp ⟨strategy, given⟩
        have supported := (before field (by simp) name named).supported ((Strategy.eq_deep_iff plain).mp rfl)
        exact ⟨clear, single, fun _ => supported⟩
      · exact before other (by simp [inBack]) otherName otherNamed

theorem property?_eq_of_parts :
    d.property? text = ((front.filterMap Field.property?).find? fun property => property.name.text = text).or
      ((field.property?.toList.find? fun property => property.name.text = text).or
        ((back.filterMap Field.property?).find? fun property => property.name.text = text)) := by
  have middle : (field :: back).filterMap Field.property? =
      field.property?.toList ++ back.filterMap Field.property? := by
    cases shown : field.property? <;> simp [shown]
  rw [property?, parts, List.filterMap_append, List.find?_append, middle, List.find?_append]

theorem find?_front_eq_none_iff (copyable : d.Copyable) :
    ((front.filterMap Field.property?).find? fun property => property.name.text = text) = none ↔
      ∀ other ∈ front, ¬ other.Stores text := by
  have stored (other : Field) (inFront : other ∈ front) :
      other.Stores text ↔ ∃ property, other.property? = some property ∧ property.name.text = text :=
    Field.stores_iff (copyable.fields other (by simp [parts, inFront]))
  simp only [List.find?_eq_none, List.mem_filterMap, decide_eq_true_eq]
  constructor
  · intro none other inFront stores
    obtain ⟨property, shown, same⟩ := (stored other inFront).mp stores
    exact none property ⟨other, inFront, shown⟩ same
  · rintro unstored property ⟨other, inFront, shown⟩ same
    exact unstored other inFront ((stored other inFront).mpr ⟨property, shown, same⟩)

/-- A parameter that is named after the field gets its copy, unless an earlier field of this name is carried. -/
theorem argument_of_first (copyable : d.Copyable) (named : field.name = some name)
    (accepted : Strategy.ofAttributes field.attributes = .ok strategy) (carried : strategy ≠ .skip)
    (binds : parameter.Binds name.text) (unstored : ∀ other ∈ front, ¬ other.Stores name.text) :
    d.argument parameter = Property.expression ⟨name, strategy⟩ := by
  have shown : field.property? = some ⟨name, strategy⟩ := Field.property?_eq_some_iff.mpr ⟨named, accepted, carried⟩
  have found : d.property? name.text = some ⟨name, strategy⟩ := by
    rw [property?_eq_of_parts parts, (find?_front_eq_none_iff parts copyable).mpr unstored, shown]
    simp
  rw [argument, Parameter.name?_eq_some_iff.mpr binds, Option.bind_some, found]

theorem argument_reattribute_of_not (copyable : d.Copyable) (named : field.name = some name)
    (other : ¬ (parameter.Binds name.text ∧ ∀ other ∈ front, ¬ other.Stores name.text)) :
    (d.reattribute front.length attributes).argument parameter = d.argument parameter := by
  refine argument_eq_of_property?_eq fun text binds => ?_
  rw [property?_eq_of_parts parts, property?_eq_of_parts (fields_reattribute parts)]
  cases found : (front.filterMap Field.property?).find? fun property => property.name.text = text with
  | some property => rfl
  | none =>
      have unstored := (find?_front_eq_none_iff parts copyable).mp found
      have apart : name.text ≠ text := by
        rintro rfl
        exact other ⟨binds, unstored⟩
      -- The field has another name than the parameter, whatever its attributes are.
      have absent (changed : Field) (sameName : changed.name = some name) :
          (changed.property?.toList.find? fun property => property.name.text = text) = none := by
        rw [List.find?_eq_none]
        intro property member
        obtain ⟨alsoNamed, _⟩ := Field.property?_eq_some_iff.mp (Option.mem_toList.mp member)
        rw [sameName, Option.some.injEq] at alsoNamed
        simpa [← alsoNamed] using apart
      rw [absent field named, absent (field.withAttributes attributes) named]

theorem stores_iff_of_parts :
    d.Stores text ↔ (∃ other ∈ front ++ back, other.Stores text) ∨ field.Stores text := by
  simp only [Stores, parts, List.mem_append, List.mem_cons, or_assoc, or_and_right, exists_or, exists_eq_left]
  exact or_congr_right or_comm

theorem stores_of_reattribute (named : field.name = some name)
    (plain : Strategy.ofAttributes field.attributes = .ok .deep)
    (given : Strategy.ofAttributes attributes = .ok strategy) :
    (d.reattribute front.length attributes).Stores text ↔
      (∃ other ∈ front ++ back, other.Stores text) ∨ strategy ≠ .skip ∧ field.Stores text := by
  rw [stores_iff_of_parts (fields_reattribute parts), Field.stores_iff_of_accepted named plain,
    @Field.stores_iff_of_accepted (field.withAttributes attributes) name strategy named given]
  simp [and_comm]

end Parts

end Declaration

namespace Shape

variable {d : Declaration} {shape : Shape} {front back : List Field} {field : Field} {name : Name}
  {attributes : List Attribute} {strategy : Strategy} {n : Nat}

theorem ofDeclaration_reattribute (scanned : ofDeclaration d = .ok shape)
    (copyable : (d.reattribute n attributes).Copyable) :
    ofDeclaration (d.reattribute n attributes) = .ok { shape with
      properties := (d.reattribute n attributes).fields.filterMap Field.property?
      skipped := (d.reattribute n attributes).fields.filterMap Field.skipped? } := by
  obtain ⟨changed, alsoScanned⟩ := exists_ofDeclaration_iff.mpr copyable
  have properties := properties_eq alsoScanned
  have skipped := skipped_eq alsoScanned
  rw [List.filterMap_filterMap] at skipped
  obtain ⟨kind, options, roles, isStruct, accepted, _, rfl⟩ := ofDeclaration_eq_ok_iff.mp scanned
  obtain ⟨otherKind, otherOptions, otherRoles, isOther, otherAccepted, _, rfl⟩ :=
    ofDeclaration_eq_ok_iff.mp alsoScanned
  have sameOptions : otherOptions = options := Except.ok.inj (otherAccepted.symm.trans accepted)
  have sameKind : otherKind = kind := by
    rcases isStruct with ⟨unit, rfl⟩ | ⟨fields, span, isNamed, rfl⟩
    · rw [Declaration.body_reattribute unit] at isOther
      simpa [Fields.modify] using isOther
    · rw [Declaration.body_reattribute isNamed] at isOther
      simpa [Fields.modify] using isOther
  rw [alsoScanned, sameOptions, sameKind]
  rw [sameOptions, sameKind] at properties skipped
  have same := congrArg₂ (Shape.mk d.name d.generics kind options) properties skipped
  exact congrArg Except.ok same

end Shape

namespace Candidate

variable {candidate other : Candidate} {holds holds' : Candidate → Prop} {blocks : List Implementation}

/-- Where less is asked for, the same function is the first, or one in front of it. -/
theorem First.same_or_earlier (first : First holds blocks candidate) (otherFirst : First holds' blocks other)
    (less : ∀ candidate, holds candidate → holds' candidate) :
    other = candidate ∨ [other, candidate].Sublist (all blocks) := by
  classical
  have found {holds : Candidate → Prop} {one : Candidate} (isFirst : First holds blocks one) :
      (all blocks).find? (decide <| holds ·) = some one :=
    find?_all_eq_some_iff.mpr ((First.congr fun _ => decide_eq_true_iff).mpr isFirst)
  obtain ⟨_, front, back, parts, none⟩ := List.find?_eq_some_iff_append.mp (found otherFirst)
  have member : candidate ∈ front ++ other :: back := parts ▸ List.mem_of_find?_eq_some (found first)
  rcases List.mem_append.mp member with inFront | behind
  · have unsuited := none candidate inFront
    simp [less candidate first.1] at unsuited
  · rcases List.mem_cons.mp behind with rfl | inBack
    · exact .inl rfl
    · rw [parts]
      refine .inr (List.Sublist.trans ?_ (List.sublist_append_right front _))
      exact (List.singleton_sublist.mpr inBack).cons_cons other

theorem First.exists_of_less (first : First holds blocks candidate)
    (less : ∀ candidate, holds candidate → holds' candidate) : ∃ other, First holds' blocks other := by
  obtain ⟨block, inBlocks, f, isItem, suited⟩ := exists_first_iff.mp ⟨candidate, first⟩
  exact exists_first_iff.mpr ⟨block, inBlocks, f, isItem, less _ suited⟩

theorem Builds.of_less {className : String} {isProperty isProperty' : String → Prop}
    (builds : Builds className isProperty candidate) (less : ∀ text, isProperty' text → isProperty text) :
    Builds className isProperty' candidate :=
  ⟨builds.own, builds.constructs, fun text property => builds.takes text (less text property)⟩

end Candidate

namespace Expansion

variable {d : Declaration} {shape : Shape} {parameter : Parameter}

theorem argument_eq (scanned : Shape.ofDeclaration d = .ok shape) :
    argument shape parameter.name? = d.argument parameter := by
  have same : shape.property? = d.property? := by
    funext text
    rw [Shape.property?, Shape.properties_eq scanned, Declaration.property?]
  cases found : parameter.name?.bind d.property? with
  | none => simp only [argument, Declaration.argument, same, found]
  | some property => simp only [argument, Declaration.argument, same, found]

/-- The expansion calls the first function that builds values from all fields that are carried. -/
structure Calls (expansion : Expansion) (d : Declaration) (blocks : List Implementation) (candidate : Candidate) :
    Prop where
  first : Candidate.First (Candidate.Builds d.name.text d.Stores) blocks candidate
  body : expansion.body =
    .call candidate.function.signature.name (candidate.function.signature.parameters.map d.argument)
  generics : expansion.generics = candidate.generics
  selfType : expansion.selfType = candidate.block.selfType.tokens

theorem byConstructor_calls {blocks : List Implementation} {candidate : Candidate}
    (scanned : Shape.ofDeclaration d = .ok shape)
    (first : Candidate.First (Candidate.Builds d.name.text d.Stores) blocks candidate) :
    (byConstructor shape candidate.constructor).Calls d blocks candidate := by
  refine ⟨first, ?_, rfl, rfl⟩
  change CopyBody.call _ (candidate.function.parameterNames.map (argument shape)) = _
  rw [Function.parameterNames, List.map_map]
  congr 1
  exact List.map_congr_left fun _ _ => argument_eq scanned

theorem memberwise_body_of_kind (scanned : Shape.ofDeclaration d = .ok shape) (kind : shape.kind = .named) :
    (memberwise shape).body = .literal (d.fields.filterMap Field.copy?) (d.fields.filterMap Field.skipped?) := by
  have copies : shape.properties.map (fun property => (property.name, property.expression)) =
      d.fields.filterMap Field.copy? := by
    rw [Shape.properties_eq scanned, List.map_filterMap]
    rfl
  have skipped : shape.skipped = d.fields.filterMap Field.skipped? := by
    rw [Shape.skipped_eq scanned, List.filterMap_filterMap]
    rfl
  change literalBody shape = _
  rw [literalBody, kind]
  dsimp only
  rw [copies, skipped]

theorem memberwise_body (scanned : Shape.ofDeclaration d = .ok shape) (present : d.fields ≠ []) :
    (memberwise shape).body = .literal (d.fields.filterMap Field.copy?) (d.fields.filterMap Field.skipped?) := by
  have copyable := Shape.exists_ofDeclaration_iff.mp ⟨shape, scanned⟩
  obtain unit | ⟨fields, span, isNamed⟩ := copyable.struct
  · exact absurd (by simp [Declaration.fields, unit, Fields.toList]) present
  · exact memberwise_body_of_kind scanned (Shape.kind_eq_named scanned isNamed)

end Expansion

/-- The parameter gets the copy of the field of this name that stands behind those in front. -/
def Parameter.StandsFor (parameter : Parameter) (name : Name) (front : List Field) : Prop :=
  parameter.Binds name.text ∧ ∀ other ∈ front, ¬ other.Stores name.text

namespace Declaration

variable {d : Declaration} {front back : List Field} {field : Field} {name : Name} {attributes : List Attribute}
  {strategy : Strategy} {expansion : Expansion}

/-- The struct with an entry at one of its fields that has none as yet. -/
inductive Grants (d : Declaration) (front back : List Field) (name : Name) (strategy : Strategy) : Declaration → Prop
  | reattribute {field : Field} {attributes : List Attribute} (parts : d.fields = front ++ field :: back)
      (named : field.name = some name) (plain : Strategy.ofAttributes field.attributes = .ok .deep)
      (given : Strategy.ofAttributes attributes = .ok strategy) :
      Grants d front back name strategy (d.reattribute front.length attributes)

section Given

variable (parts : d.fields = front ++ field :: back) (named : field.name = some name)
  (plain : Strategy.ofAttributes field.attributes = .ok .deep) (given : Strategy.ofAttributes attributes = .ok strategy)

include parts named plain given

theorem stores_reattribute_of_carried (carried : strategy ≠ .skip) :
    (d.reattribute front.length attributes).Stores = d.Stores := by
  funext text
  rw [eq_iff_iff, stores_of_reattribute parts named plain given, stores_iff_of_parts parts]
  simp [carried]

theorem derive_reattribute (derived : Expansion.derive d = .ok expansion) :
    expansion.body = .literal (d.fields.filterMap Field.copy?) (d.fields.filterMap Field.skipped?) ∧
      Expansion.derive (d.reattribute front.length attributes) = .ok { expansion with
        body := .literal ((d.reattribute front.length attributes).fields.filterMap Field.copy?)
          ((d.reattribute front.length attributes).fields.filterMap Field.skipped?) } := by
  obtain ⟨shape, scanned, rfl⟩ := Expansion.derive_eq_ok_iff.mp derived
  have copyable := Shape.exists_ofDeclaration_iff.mp ⟨shape, scanned⟩
  have rescanned := Shape.ofDeclaration_reattribute scanned (copyable.reattribute parts named plain given)
  refine ⟨Expansion.memberwise_body scanned (by simp [parts]), Expansion.derive_eq_ok_iff.mpr ⟨_, rescanned, ?_⟩⟩
  rw [← Expansion.memberwise_body rescanned (by simp [fields_reattribute parts])]
  rfl

theorem expand_reattribute {blocks : List Implementation}
    (expanded : ClassDefinition.expand ⟨.declaration d, blocks⟩ = .ok expansion) :
    ∃ candidate other changed, expansion.Calls d blocks candidate ∧
      ClassDefinition.expand ⟨.declaration (d.reattribute front.length attributes), blocks⟩ = .ok changed ∧
      changed.Calls (d.reattribute front.length attributes) blocks other ∧
      (other = candidate ∨ [other, candidate].Sublist (Candidate.all blocks)) ∧
      (other = candidate → changed = { expansion with body := changed.body }) := by
  obtain ⟨_, shape, _, declares, scanned, selected, rfl⟩ := ClassDefinition.expand_eq_ok_iff.mp expanded
  cases declares
  obtain ⟨clear, candidate, first, rfl⟩ := (Constructor.select_scanned_eq_ok_iff scanned).mp selected
  have copyable := Shape.exists_ofDeclaration_iff.mp ⟨shape, scanned⟩
  have rescanned := Shape.ofDeclaration_reattribute scanned (copyable.reattribute parts named plain given)
  have fewer (text : String) (stores : (d.reattribute front.length attributes).Stores text) : d.Stores text := by
    rw [stores_of_reattribute parts named plain given] at stores
    exact (stores_iff_of_parts parts).mpr (stores.imp_right And.right)
  have less (candidate : Candidate) (builds : candidate.Builds d.name.text d.Stores) :
      candidate.Builds d.name.text (d.reattribute front.length attributes).Stores := builds.of_less fewer
  obtain ⟨other, otherFirst⟩ := first.exists_of_less less
  have reselected := (Constructor.select_scanned_eq_ok_iff rescanned).mpr ⟨clear, other, otherFirst, rfl⟩
  refine ⟨candidate, other, _, Expansion.byConstructor_calls scanned first,
    ClassDefinition.expand_eq_ok_iff.mpr ⟨_, _, _, rfl, rescanned, reselected, rfl⟩,
    Expansion.byConstructor_calls rescanned otherFirst, first.same_or_earlier otherFirst less, ?_⟩
  rintro rfl
  rfl

end Given

/-- Whatever entry a field without one is given, what could be expanded still can. An entry that names another way to
copy the field replaces the copies of this field, and nothing else is written differently. An entry that skips the
field turns it into a default value behind the copies, in its turn among the fields that are skipped. A class is built
by the same constructor as before, or by an earlier one if the field is skipped. -/
theorem Grants.relaxes {changed : Declaration} (grants : d.Grants front back name strategy changed) :
    (strategy ≠ .skip →
      (∀ expansion, Expansion.derive d = .ok expansion →
        expansion.body = .literal (front.filterMap Field.copy? ++ (name, .deep name) :: back.filterMap Field.copy?)
            ((front ++ back).filterMap Field.skipped?) ∧
          Expansion.derive changed = .ok { expansion with
            body := .literal (front.filterMap Field.copy? ++
                (name, Property.expression ⟨name, strategy⟩) :: back.filterMap Field.copy?)
              ((front ++ back).filterMap Field.skipped?) }) ∧
      ∀ blocks expansion, ClassDefinition.expand ⟨.declaration d, blocks⟩ = .ok expansion →
        ∃ candidate body, expansion.Calls d blocks candidate ∧
          ClassDefinition.expand ⟨.declaration changed, blocks⟩ = .ok { expansion with body := body } ∧
          Expansion.Calls { expansion with body := body } changed blocks candidate ∧
          ∀ parameter : Parameter,
            (parameter.StandsFor name front → d.argument parameter = .deep name ∧
              changed.argument parameter = Property.expression ⟨name, strategy⟩) ∧
            (¬ parameter.StandsFor name front → changed.argument parameter = d.argument parameter)) ∧
    (strategy = .skip →
      (∀ expansion, Expansion.derive d = .ok expansion →
        expansion.body = .literal (front.filterMap Field.copy? ++ (name, .deep name) :: back.filterMap Field.copy?)
            ((front ++ back).filterMap Field.skipped?) ∧
          Expansion.derive changed = .ok { expansion with
            body := .literal ((front ++ back).filterMap Field.copy?)
              (front.filterMap Field.skipped? ++ name :: back.filterMap Field.skipped?) }) ∧
      ∀ blocks expansion, ClassDefinition.expand ⟨.declaration d, blocks⟩ = .ok expansion →
        ∃ candidate other relaxed, expansion.Calls d blocks candidate ∧
          ClassDefinition.expand ⟨.declaration changed, blocks⟩ = .ok relaxed ∧
          relaxed.Calls changed blocks other ∧
          (other = candidate ∨ [other, candidate].Sublist (Candidate.all blocks)) ∧
          ∀ parameter : Parameter, ¬ parameter.StandsFor name front →
            changed.argument parameter = d.argument parameter) := by
  obtain @⟨field, attributes, parts, named, plain, given⟩ := grants
  have fields : (d.reattribute front.length attributes).fields = front ++ field.withAttributes attributes :: back :=
    fields_reattribute parts
  obtain ⟨copies, skips⟩ := Field.copies_append named plain (by simp) front back
  have copyable {blocks : List Implementation} {expansion : Expansion}
      (expanded : ClassDefinition.expand ⟨.declaration d, blocks⟩ = .ok expansion) : d.Copyable := by
    obtain ⟨_, declares⟩ := ClassDefinition.exists_expand_eq_ok_iff.mp ⟨_, expanded⟩
    cases declares.declaration
    exact declares.copyable
  constructor
  · intro carried
    constructor
    · intro expansion derived
      obtain ⟨changedCopies, changedSkips⟩ :=
        @Field.copies_append (field.withAttributes attributes) name strategy named given carried front back
      obtain ⟨body, rederived⟩ := derive_reattribute parts named plain given derived
      rw [parts, copies, skips] at body
      rw [fields, changedCopies, changedSkips] at rederived
      exact ⟨body, rederived⟩
    · intro blocks expansion expanded
      obtain ⟨candidate, other, relaxed, calls, reexpanded, recalls, _, same⟩ :=
        expand_reattribute parts named plain given expanded
      -- As many fields are carried as before, so that the first constructor for them is the same.
      have isSame : other = candidate := by
        have first := recalls.first
        rw [stores_reattribute_of_carried parts named plain given carried] at first
        exact first.unique calls.first
      cases isSame
      rw [same rfl] at reexpanded recalls
      refine ⟨candidate, relaxed.body, calls, reexpanded, recalls, fun parameter => ?_⟩
      refine ⟨fun stands => ?_, fun unrelated => ?_⟩
      · have recopyable := (copyable expanded).reattribute parts named plain given
        exact ⟨argument_of_first parts (copyable expanded) named plain (by simp) stands.1 stands.2,
          argument_of_first fields recopyable named given carried stands.1 stands.2⟩
      · exact argument_reattribute_of_not parts (copyable expanded) named unrelated
  · rintro rfl
    constructor
    · intro expansion derived
      obtain ⟨changedCopies, changedSkips⟩ :=
        @Field.skips_append (field.withAttributes attributes) name named given front back
      obtain ⟨body, rederived⟩ := derive_reattribute parts named plain given derived
      rw [parts, copies, skips] at body
      rw [fields, changedCopies, changedSkips] at rederived
      exact ⟨body, rederived⟩
    · intro blocks expansion expanded
      obtain ⟨candidate, other, relaxed, calls, reexpanded, recalls, order, _⟩ :=
        expand_reattribute parts named plain given expanded
      exact ⟨candidate, other, relaxed, calls, reexpanded, recalls, order,
        fun parameter unrelated => argument_reattribute_of_not parts (copyable expanded) named unrelated⟩

section Album

/-- A struct with an entry at its first field, or none. -/
def albumStruct (entry : Option String) : Declaration where
  attributes := []
  head := [.word "struct" .origin]
  name := ⟨"Album", .origin⟩
  generics := Generics.empty
  body := .struct (.named
    [(ClassDefinition.plainField "title" "String" entry, true),
      (ClassDefinition.plainField "cover" "Cover" none, false)] .origin)
  stop := []

/-- A constructor for albums without a title in front of one for all albums. -/
def albumBlocks : List Implementation :=
  let function (name : String) (parameters : List String) : Associated :=
    .function
      { attributes := []
        head := []
        signature :=
          { name := ⟨name, .origin⟩
            isAsync := false
            isUnsafe := false
            generics := Generics.empty
            parameters := parameters.map fun parameter => .typed (.name parameter false)
            result := some (.path none false [.bare "Self"]) }
        statements := []
        body := []
        span := .origin }
  [ClassDefinition.labelBlock none "Album" [function "untitled" ["cover"], function "new" ["title", "cover"]] .origin]

theorem Grants.relaxes_album :
    (albumStruct none).Grants [] [ClassDefinition.plainField "cover" "Cover" none] ⟨"title", .origin⟩ .clone
        (albumStruct (some "clone")) ∧
      (albumStruct none).Grants [] [ClassDefinition.plainField "cover" "Cover" none] ⟨"title", .origin⟩ .skip
        (albumStruct (some "skip")) ∧
      ∃ expansion, ClassDefinition.expand ⟨.declaration (albumStruct none), albumBlocks⟩ = .ok expansion ∧
        (∃ candidate body, expansion.Calls (albumStruct none) albumBlocks candidate ∧
          Expansion.Calls { expansion with body := body } (albumStruct (some "clone")) albumBlocks candidate) ∧
        ∃ candidate other relaxed, expansion.Calls (albumStruct none) albumBlocks candidate ∧
          Expansion.Calls relaxed (albumStruct (some "skip")) albumBlocks other ∧
          (other = candidate ∨ [other, candidate].Sublist (Candidate.all albumBlocks)) := by
  have grants (entry : String) (strategy : Strategy)
      (given : Strategy.ofAttributes (ClassDefinition.plainField "title" "String" (some entry)).attributes =
        .ok strategy) :
      (albumStruct none).Grants [] [ClassDefinition.plainField "cover" "Cover" none] ⟨"title", .origin⟩ strategy
        (albumStruct (some entry)) :=
    .reattribute rfl rfl rfl given
  obtain ⟨expansion, expanded⟩ :
      ∃ expansion, ClassDefinition.expand ⟨.declaration (albumStruct none), albumBlocks⟩ = .ok expansion := ⟨_, rfl⟩
  refine ⟨grants "clone" .clone rfl, grants "skip" .skip rfl, expansion, expanded, ?_, ?_⟩
  · obtain ⟨candidate, body, calls, _, recalls, _⟩ :=
      ((grants "clone" .clone rfl).relaxes.1 (by simp)).2 albumBlocks expansion expanded
    exact ⟨candidate, body, calls, recalls⟩
  · obtain ⟨candidate, other, relaxed, calls, _, recalls, order, _⟩ :=
      ((grants "skip" .skip rfl).relaxes.2 rfl).2 albumBlocks expansion expanded
    exact ⟨candidate, other, relaxed, calls, recalls, order⟩

example : (ClassDefinition.expand ⟨.declaration (albumStruct (some "skip")), albumBlocks⟩).map Expansion.body =
    .ok (.call ⟨"untitled", .origin⟩ [.deep ⟨"cover", .origin⟩]) := rfl

end Album

end Declaration

end Replica
