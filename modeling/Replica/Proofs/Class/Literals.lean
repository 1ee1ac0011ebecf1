import Replica.Proofs.Class.Locality

/-!
The literal that a derived copy is. Each field is set in it once: those that are copied come first, in the order of
their declaration, and behind them those that are skipped.
-/

namespace Replica

open Token

theorem forall₂_filter_filterMap {α β : Type} {p : α → Prop} [DecidablePred p] {f : α → Option β}
    {relation : α → β → Prop} {items : List α} (kept : ∀ a ∈ items, p a → ∃ b, f a = some b ∧ relation a b)
    (dropped : ∀ a ∈ items, ¬ p a → f a = none) :
    List.Forall₂ relation (items.filter p) (items.filterMap f) := by
  induction items with
  | nil => exact .nil
  | cons a items ih =>
      obtain ⟨keptHere, keptRest⟩ := List.forall_mem_cons.mp kept
      obtain ⟨droppedHere, droppedRest⟩ := List.forall_mem_cons.mp dropped
      by_cases holds : p a
      · obtain ⟨b, shown, related⟩ := keptHere holds
        rw [List.filter_cons_of_pos (by simpa using holds), List.filterMap_cons_some shown]
        exact .cons related (ih keptRest droppedRest)
      · rw [List.filter_cons_of_neg (by simpa using holds), List.filterMap_cons_none (droppedHere holds)]
        exact ih keptRest droppedRest

namespace Field

variable {field : Field} {name : Name} {strategy : Strategy}

/-- The field asks for this strategy by its only entry. Without an entry it asks for a deep copy. -/
inductive Asks (field : Field) : Strategy → Prop
  | plain (unmarked : field.marks.entries = []) : Asks field .deep
  | marked {strategy : Strategy} {span : Span} (only : field.marks.entries = [⟨some strategy, span⟩]) :
      Asks field strategy

/-- What the field is set to in a literal: to the copy of the same field that it asks for, or to a default value. -/
inductive Sets (field : Field) : Name × List Token → Prop
  | copied {name : Name} {strategy : Strategy} {value : List Token} (named : field.name = some name)
      (asks : field.Asks strategy) (writes : strategy.Writes name value) : Sets field (name, value)
  | skipped {name : Name} (named : field.name = some name) (asks : field.Asks .skip) :
      Sets field (name, spellAll ["::", "core", "::", "default", "::", "Default", "::", "default"] ++ [parentheses []])

theorem asks_of_accepted (accepted : Strategy.ofAttributes field.attributes = .ok strategy) : field.Asks strategy := by
  obtain ⟨_, ⟨unmarked, rfl⟩ | ⟨span, only⟩⟩ := Strategy.ofAttributes_eq_ok_iff.mp accepted
  · exact .plain unmarked
  · exact .marked only

theorem role?_of_nameless (nameless : field.name = none) : field.role? = none := by
  rw [role?, nameless]

def copyTokens? (field : Field) : Option (Name × List Token) :=
  field.copy?.map fun copy => (copy.1, copy.2.tokens)

def defaultTokens? (field : Field) : Option (Name × List Token) :=
  field.skipped?.map fun name => (name, defaultCall)

theorem copyTokens?_of_carried (named : field.name = some name)
    (accepted : Strategy.ofAttributes field.attributes = .ok strategy) (carried : strategy ≠ .skip) :
    ∃ set, field.copyTokens? = some set ∧ field.Sets set := by
  have shown : field.property? = some ⟨name, strategy⟩ := property?_eq_some_iff.mpr ⟨named, accepted, carried⟩
  refine ⟨_, by rw [copyTokens?, copy?, shown]; rfl, ?_⟩
  exact .copied named (asks_of_accepted accepted) (@Property.writes_expression ⟨name, strategy⟩ carried)

theorem defaultTokens?_of_skip (named : field.name = some name)
    (accepted : Strategy.ofAttributes field.attributes = .ok .skip) :
    ∃ set, field.defaultTokens? = some set ∧ field.Sets set := by
  refine ⟨_, by rw [defaultTokens?, skipped?, role?_of_skip named accepted]; rfl, ?_⟩
  exact .skipped named (asks_of_accepted accepted)

theorem Sets.named {set : Name × List Token} (sets : field.Sets set) : field.name = some set.1 := by
  cases sets with
  | copied named => exact named
  | skipped named => exact named

end Field

theorem names_of_forall₂_sets {fields : List Field} {sets : List (Name × List Token)}
    (each : List.Forall₂ Field.Sets fields sets) : fields.filterMap Field.name = sets.map Prod.fst := by
  induction each with
  | nil => rfl
  | cons here _ ih => rw [List.filterMap_cons_some here.named, ih, List.map_cons]

theorem Expansion.memberwise_body_of_unit {d : Declaration} {shape : Shape}
    (scanned : Shape.ofDeclaration d = .ok shape) (unit : d.body = .struct .unit) : (memberwise shape).body = .unit := by
  obtain ⟨kind, options, roles, ⟨_, rfl⟩ | ⟨_, _, isNamed, _⟩, _, _, rfl⟩ := Shape.ofDeclaration_eq_ok_iff.mp scanned
  · rfl
  · rw [unit] at isNamed
    cases isNamed

namespace Declaration

variable {d : Declaration} {expansion : Expansion}

/-- The fields of a struct that have a name, which are all fields of a struct with named fields. -/
def namedFields (d : Declaration) : List Field :=
  d.fields.filter fun field => field.name.isSome

theorem filterMap_namedFields {β : Type} {f : Field → Option β}
    (nameless : ∀ field, field.name = none → f field = none) :
    d.namedFields.filterMap f = d.fields.filterMap f := by
  unfold namedFields
  rw [List.filterMap_filter]
  refine List.filterMap_congr fun field _ => ?_
  cases named : field.name with
  | none => simp [nameless field named]
  | some name => rfl

theorem tokens_literal :
    (CopyBody.literal (d.fields.filterMap Field.copy?) (d.fields.filterMap Field.skipped?)).tokens =
      spell "Self" ++ [braces ((d.namedFields.filterMap Field.copyTokens? ++
        d.namedFields.filterMap Field.defaultTokens?).flatMap fun set =>
          set.1.token :: spell ":" ++ set.2 ++ spell ",")] := by
  have copies : d.namedFields.filterMap Field.copyTokens? =
      (d.fields.filterMap Field.copy?).map fun copy => (copy.1, copy.2.tokens) := by
    rw [List.map_filterMap]
    refine filterMap_namedFields fun field nameless => ?_
    rw [Field.copyTokens?, Field.copy?, Field.property?, Field.role?_of_nameless nameless]
    rfl
  have defaults : d.namedFields.filterMap Field.defaultTokens? =
      (d.fields.filterMap Field.skipped?).map fun name => (name, defaultCall) := by
    rw [List.map_filterMap]
    refine filterMap_namedFields fun field nameless => ?_
    rw [Field.defaultTokens?, Field.skipped?, Field.role?_of_nameless nameless]
    rfl
  rw [copies, defaults, List.flatMap_append, List.flatMap_map, List.flatMap_map]
  rfl

section Accepted

variable (copyable : d.Copyable)

include copyable

theorem exists_accepted {field : Field} (member : field ∈ d.namedFields) :
    ∃ name strategy, field.name = some name ∧ Strategy.ofAttributes field.attributes = .ok strategy ∧
      (strategy = .skip ↔ field.marks.Has .skip) := by
  obtain ⟨inFields, isNamed⟩ := List.mem_filter.mp member
  obtain ⟨name, named⟩ := Option.isSome_iff_exists.mp isNamed
  obtain ⟨clear, single, _⟩ := copyable.fields field inFields name named
  obtain ⟨strategy, accepted⟩ := Strategy.exists_ofAttributes_iff.mpr ⟨clear, single⟩
  exact ⟨name, strategy, named, accepted, Strategy.eq_skip_iff accepted⟩

open scoped Classical in
theorem forall₂_copied :
    List.Forall₂ Field.Sets (d.namedFields.filter fun field => ¬ field.marks.Has .skip)
      (d.namedFields.filterMap Field.copyTokens?) := by
  refine forall₂_filter_filterMap ?_ ?_
  · intro field member carried
    obtain ⟨name, strategy, named, accepted, isSkip⟩ := exists_accepted copyable member
    exact Field.copyTokens?_of_carried named accepted (isSkip.not.mpr carried)
  · intro field member skipped
    obtain ⟨name, strategy, named, accepted, isSkip⟩ := exists_accepted copyable member
    obtain rfl := isSkip.mpr (not_not.mp skipped)
    rw [Field.copyTokens?, Field.copy?, Field.property?, Field.role?_of_skip named accepted]
    rfl

open scoped Classical in
theorem forall₂_skipped :
    List.Forall₂ Field.Sets (d.namedFields.filter fun field => field.marks.Has .skip)
      (d.namedFields.filterMap Field.defaultTokens?) := by
  refine forall₂_filter_filterMap ?_ ?_
  · intro field member skipped
    obtain ⟨name, strategy, named, accepted, isSkip⟩ := exists_accepted copyable member
    obtain rfl := isSkip.mpr skipped
    exact Field.defaultTokens?_of_skip named accepted
  · intro field member carried
    obtain ⟨name, strategy, named, accepted, isSkip⟩ := exists_accepted copyable member
    rw [Field.defaultTokens?, Field.skipped?, Field.role?_of_carried named accepted (isSkip.not.mpr carried)]
    rfl

end Accepted

open scoped Classical in
theorem names_perm {copied skipped : List (Name × List Token)}
    (copies : List.Forall₂ Field.Sets (d.namedFields.filter fun field => ¬ field.marks.Has .skip) copied)
    (skips : List.Forall₂ Field.Sets (d.namedFields.filter fun field => field.marks.Has .skip) skipped) :
    ((copied ++ skipped).map Prod.fst).Perm (d.fields.filterMap Field.name) := by
  have parted : ((d.namedFields.filter fun field => field.marks.Has .skip) ++
      d.namedFields.filter fun field => ¬ field.marks.Has .skip).Perm d.namedFields := by
    simpa using List.filter_append_perm (fun field => decide (field.marks.Has .skip)) d.namedFields
  -- The fields that are skipped stand behind the others in the literal, wherever they are declared.
  have names := (List.perm_append_comm.trans parted).filterMap Field.name
  rw [List.filterMap_append, names_of_forall₂_sets copies, names_of_forall₂_sets skips, ← List.map_append] at names
  rwa [filterMap_namedFields fun _ nameless => nameless] at names

open scoped Classical in
/-- The method of a derived copy answers `Self` for a struct without a body, and a literal otherwise. In the literal
each field that is not skipped is set to the copy that it asks for itself, in the order of the declaration, and behind
them each field that is skipped is set to a default value. No name is set that is not declared, and none is left out. -/
theorem literal_sets_each_field (derived : Expansion.derive d = .ok expansion) :
    (d.body = .struct .unit ∧ ∃ header, expansion.copyMethod = header ++ [braces (spell "Self")]) ∨
    (∃ fields span, d.body = .struct (.named fields span)) ∧ ∃ copied skipped : List (Name × List Token),
      (∃ header, expansion.copyMethod = header ++ [braces (spell "Self" ++ [braces
        ((copied ++ skipped).flatMap fun set => set.1.token :: spell ":" ++ set.2 ++ spell ",")])]) ∧
      List.Forall₂ Field.Sets (d.namedFields.filter fun field => ¬ field.marks.Has .skip) copied ∧
      List.Forall₂ Field.Sets (d.namedFields.filter fun field => field.marks.Has .skip) skipped ∧
      ((copied ++ skipped).map Prod.fst).Perm (d.fields.filterMap Field.name) := by
  obtain ⟨shape, scanned, rfl⟩ := Expansion.derive_eq_ok_iff.mp derived
  have copyable := Shape.exists_ofDeclaration_iff.mp ⟨shape, scanned⟩
  obtain unit | ⟨fields, span, isNamed⟩ := copyable.struct
  · refine .inl ⟨unit, ?_⟩
    rw [Expansion.copyMethod, Expansion.memberwise_body_of_unit scanned unit]
    exact ⟨_, rfl⟩
  · have body := Expansion.memberwise_body_of_kind scanned (Shape.kind_eq_named scanned isNamed)
    have copies := forall₂_copied copyable
    have skips := forall₂_skipped copyable
    refine .inr ⟨⟨fields, span, isNamed⟩, _, _, ?_, copies, skips, names_perm copies skips⟩
    rw [Expansion.copyMethod, body, tokens_literal]
    exact ⟨_, rfl⟩

section Ticket

def ticketStruct : Declaration where
  attributes := []
  head := [.word "struct" .origin]
  name := ⟨"Ticket", .origin⟩
  generics := Generics.empty
  body := .struct (.named
    [(ClassDefinition.plainField "seat" "Seat" (some "skip"), true),
      (ClassDefinition.plainField "price" "Price" (some "clone"), true),
      (ClassDefinition.plainField "holder" "String" none, false)] .origin)
  stop := []

open scoped Classical in
theorem literal_sets_ticket :
    ∃ expansion, Expansion.derive ticketStruct = .ok expansion ∧ ∃ copied skipped : List (Name × List Token),
      (∃ header, expansion.copyMethod = header ++ [braces (spell "Self" ++ [braces
        ((copied ++ skipped).flatMap fun set => set.1.token :: spell ":" ++ set.2 ++ spell ",")])]) ∧
      List.Forall₂ Field.Sets (ticketStruct.namedFields.filter fun field => ¬ field.marks.Has .skip) copied ∧
      List.Forall₂ Field.Sets (ticketStruct.namedFields.filter fun field => field.marks.Has .skip) skipped ∧
      ((copied ++ skipped).map Prod.fst).Perm
        [⟨"seat", .origin⟩, ⟨"price", .origin⟩, ⟨"holder", .origin⟩] := by
  obtain ⟨expansion, derived⟩ : ∃ expansion, Expansion.derive ticketStruct = .ok expansion := ⟨_, rfl⟩
  obtain ⟨unit, _⟩ | ⟨_, literal⟩ := literal_sets_each_field derived
  · cases unit
  · exact ⟨expansion, derived, literal⟩

example : (Expansion.derive ticketStruct).map Expansion.body = .ok (.literal
    [(⟨"price", .origin⟩, .clone ⟨"price", .origin⟩), (⟨"holder", .origin⟩, .deep ⟨"holder", .origin⟩)]
    [⟨"seat", .origin⟩]) := rfl

end Ticket

end Declaration

end Replica
