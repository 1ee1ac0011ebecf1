import Mathlib.Data.List.Forall2
import Replica.Class.Definition

/-!
What becomes of the items of a user. They are written as they were read, without helper attributes at a declaration,
at the fields of a struct and at the functions of blocks. At all other places helper attributes stay.
-/

namespace Replica

namespace Attribute

/-- The path of the attribute is one word, and it is the name of helper attributes. -/
def IsHelper (a : Attribute) : Prop :=
  a.path.rooted = false ∧ ∃ word, a.path.names = [word] ∧ word.text = "deep_copy"

/-- A list of attributes and what is left of it when the helper attributes are taken out. -/
inductive Relieved : List Attribute → List Attribute → Prop
  | nil : Relieved [] []
  | helper {a : Attribute} {before after : List Attribute} (isHelper : a.IsHelper) (rest : Relieved before after) :
      Relieved (a :: before) after
  | other {a : Attribute} {before after : List Attribute} (foreign : ¬ a.IsHelper) (rest : Relieved before after) :
      Relieved (a :: before) (a :: after)

variable {a : Attribute} {before after : List Attribute}

theorem isHelper_iff : Helper.isHelper a = true ↔ a.IsHelper := by
  have single : (∃ word, a.path.names = [word] ∧ word.text = "deep_copy") ↔
      a.path.names.map Name.text = ["deep_copy"] := by
    rw [List.map_eq_singleton_iff]
  rw [IsHelper, single, Helper.isHelper, isNamed, Bool.and_eq_true, Bool.not_eq_true', decide_eq_true_eq]
  rfl

theorem relieved_strip (attributes : List Attribute) : Relieved attributes (Helper.strip attributes) := by
  induction attributes with
  | nil => exact .nil
  | cons a attributes ih =>
      cases marked : Helper.isHelper a with
      | true =>
          rw [Helper.strip, List.filter_cons, marked]
          exact .helper (isHelper_iff.mp marked) ih
      | false =>
          rw [Helper.strip, List.filter_cons, marked]
          exact .other (isHelper_iff.not.mp (by simp [marked])) ih

theorem relieved_iff : Relieved before after ↔ after = Helper.strip before := by
  constructor
  · intro relieved
    induction relieved with
    | nil => rfl
    | helper isHelper _ ih => simp [Helper.strip, isHelper_iff.mpr isHelper, ih]
    | other foreign _ ih =>
        have unmarked := (Bool.not_eq_true _).mp (isHelper_iff.not.mpr foreign)
        simp [Helper.strip, unmarked, ih]
  · rintro rfl
    exact relieved_strip before

-- Raw words, longer paths and rooted paths are other paths.
example :
    let spelled (rooted : Bool) (words : List String) : Attribute :=
      ⟨false, ⟨rooted, words.map fun word => ⟨word, .origin⟩⟩, .absent, []⟩
    let attributes := [spelled false ["r#deep_copy"], spelled false ["a", "deep_copy"], spelled true ["deep_copy"]]
    Helper.strip (spelled false ["deep_copy"] :: attributes) = attributes := rfl

theorem Relieved.foreign (relieved : Relieved before after) : ∀ a ∈ after, ¬ a.IsHelper := by
  induction relieved with
  | nil => simp
  | helper _ _ ih => exact ih
  | other foreign _ ih => exact List.forall_mem_cons.mpr ⟨foreign, ih⟩

end Attribute

@[simp]
theorem Helper.strip_strip (attributes : List Attribute) : strip (strip attributes) = strip attributes := by
  simp [strip, List.filter_filter]

theorem forall₂_iff_eq_map {α : Type} {relation : α → α → Prop} {f : α → α}
    (each : ∀ before after, relation before after ↔ after = f before) {before after : List α} :
    List.Forall₂ relation before after ↔ after = before.map f := by
  have same : relation = fun before after => f before = after := by
    funext before after
    rw [eq_iff_iff, each, eq_comm]
  rw [same, ← List.forall₂_map_left_iff, List.forall₂_eq_eq_eq, eq_comm]

namespace Field

inductive Relieved : Field → Field → Prop
  | attributes {field : Field} {attributes : List Attribute}
      (relieved : Attribute.Relieved field.attributes attributes) : Relieved field { field with attributes := attributes }

theorem relieved_iff {before after : Field} : before.Relieved after ↔ after = before.stripped := by
  constructor
  · rintro ⟨relieved⟩
    rw [stripped, Attribute.relieved_iff.mp relieved]
  · rintro rfl
    exact .attributes (Attribute.relieved_strip _)

end Field

namespace Fields

inductive Relieved : Fields → Fields → Prop
  | named {fields others : Separated Field} {span : Span}
      (relieved : List.Forall₂ (fun before after => before.1.Relieved after.1 ∧ after.2 = before.2) fields others) :
      Relieved (.named fields span) (.named others span)
  | positional {fields others : Separated Field} {span : Span}
      (relieved : List.Forall₂ (fun before after => before.1.Relieved after.1 ∧ after.2 = before.2) fields others) :
      Relieved (.positional fields span) (.positional others span)
  | unit : Relieved .unit .unit

theorem forall₂_relieved_iff {fields others : Separated Field} :
    List.Forall₂ (fun before after => before.1.Relieved after.1 ∧ after.2 = before.2) fields others ↔
      others = fields.map fun (field, followed) => (field.stripped, followed) := by
  refine forall₂_iff_eq_map fun before after => ?_
  rw [Field.relieved_iff, Prod.ext_iff]

theorem relieved_iff {before after : Fields} : before.Relieved after ↔ after = before.stripped := by
  constructor
  · intro relieved
    cases relieved with
    | named relieved => rw [stripped, forall₂_relieved_iff.mp relieved]
    | positional relieved => rw [stripped, forall₂_relieved_iff.mp relieved]
    | unit => rfl
  · rintro rfl
    cases before with
    | named fields span => exact .named (forall₂_relieved_iff.mpr rfl)
    | positional fields span => exact .positional (forall₂_relieved_iff.mpr rfl)
    | unit => exact .unit

end Fields

/-- Of the bodies of declarations, only that of a struct is changed. -/
inductive Body.Relieved : Body → Body → Prop
  | struct {fields others : Fields} (relieved : fields.Relieved others) : Relieved (.struct fields) (.struct others)
  | enumeration {variants : Separated Variant} {span : Span} :
      Relieved (.enumeration variants span) (.enumeration variants span)
  | union {fields : Fields} : Relieved (.union fields) (.union fields)

namespace Declaration

inductive Relieved : Declaration → Declaration → Prop
  | parts {d : Declaration} {attributes : List Attribute} {body : Body}
      (relieved : Attribute.Relieved d.attributes attributes) (bodyRelieved : d.body.Relieved body) :
      Relieved d { d with attributes := attributes, body := body }

theorem relieved_iff {before after : Declaration} : before.Relieved after ↔ after = before.stripped := by
  unfold stripped
  constructor
  · rintro ⟨relieved, body⟩
    rw [Attribute.relieved_iff.mp relieved]
    generalize before.body = own at body
    cases body with
    | struct fields => rw [Fields.relieved_iff.mp fields]
    | enumeration => rfl
    | union => rfl
  · rintro rfl
    refine .parts (Attribute.relieved_strip _) ?_
    cases before.body with
    | struct fields => exact .struct (Fields.relieved_iff.mpr rfl)
    | enumeration variants span => exact .enumeration
    | union fields => exact .union

end Declaration

namespace Item

/-- An item that declares no type stays as it is. -/
inductive Relieved : Item → Item → Prop
  | declaration {d other : Declaration} (relieved : d.Relieved other) : Relieved (.declaration d) (.declaration other)
  | implementation {block : Implementation} : Relieved (.implementation block) (.implementation block)
  | other {kind : ItemKind} {name : Option Span} {tokens : List Token} :
      Relieved (.other kind name tokens) (.other kind name tokens)

theorem relieved_iff {before after : Item} : before.Relieved after ↔ after = before.stripped := by
  constructor
  · intro relieved
    cases relieved with
    | declaration relieved => rw [stripped, Declaration.relieved_iff.mp relieved]
    | implementation => rfl
    | other => rfl
  · rintro rfl
    cases before with
    | declaration d => exact .declaration (Declaration.relieved_iff.mpr rfl)
    | implementation block => exact .implementation
    | other kind name tokens => exact .other

end Item

namespace Associated

/-- Of the items in a block, only functions are without helper attributes. -/
inductive Relieved : Associated → Associated → Prop
  | function {f : Function} {attributes : List Attribute} (relieved : Attribute.Relieved f.attributes attributes) :
      Relieved (.function f) (.function { f with attributes := attributes })
  | other {attributes : List Attribute} {tokens : List Token} :
      Relieved (.other attributes tokens) (.other attributes tokens)

theorem relieved_iff {before after : Associated} : before.Relieved after ↔ after = before.stripped := by
  constructor
  · intro relieved
    cases relieved with
    | function relieved => rw [stripped, Attribute.relieved_iff.mp relieved]
    | other => rfl
  · rintro rfl
    cases before with
    | function f => exact .function (Attribute.relieved_strip _)
    | other attributes tokens => exact .other

theorem forall₂_relieved_iff {items others : List Associated} :
    List.Forall₂ Relieved items others ↔ others = items.map stripped :=
  forall₂_iff_eq_map @relieved_iff

end Associated

namespace Implementation

inductive Relieved : Implementation → Implementation → Prop
  | items {block : Implementation} {items : List Associated}
      (relieved : List.Forall₂ Associated.Relieved block.items items) : Relieved block { block with items := items }

theorem relieved_iff {before after : Implementation} : before.Relieved after ↔ after = before.stripped := by
  constructor
  · rintro ⟨relieved⟩
    rw [stripped, Associated.forall₂_relieved_iff.mp relieved]
  · rintro rfl
    exact .items (Associated.forall₂_relieved_iff.mpr rfl)

theorem forall₂_relieved_iff {blocks others : List Implementation} :
    List.Forall₂ Relieved blocks others ↔ others = blocks.map stripped :=
  forall₂_iff_eq_map @relieved_iff

end Implementation

namespace ClassDefinition

variable {definition : ClassDefinition}

inductive Relieved : ClassDefinition → ClassDefinition → Prop
  | items {declaration other : Item} {blocks others : List Implementation} (relieved : declaration.Relieved other)
      (blocksRelieved : List.Forall₂ Implementation.Relieved blocks others) :
      Relieved ⟨declaration, blocks⟩ ⟨other, others⟩

theorem relieved_iff {before after : ClassDefinition} : before.Relieved after ↔ after = before.stripped := by
  constructor
  · rintro ⟨relieved, blocks⟩
    rw [stripped, Item.relieved_iff.mp relieved,
      Implementation.forall₂_relieved_iff.mp blocks]
  · rintro rfl
    exact .items (Item.relieved_iff.mpr rfl) (Implementation.forall₂_relieved_iff.mpr rfl)

end ClassDefinition

section Overlooked

def Fields.attributes (fields : Fields) : List Attribute :=
  fields.toList.flatMap Field.attributes

def Variant.allAttributes (variant : Variant) : List Attribute :=
  variant.attributes ++ variant.fields.attributes

/-- The attributes of all fields, and of the variants that they belong to. -/
def Body.attributes : Body → List Attribute
  | .struct fields => fields.attributes
  | .enumeration variants _ => variants.items.flatMap Variant.allAttributes
  | .union fields => fields.attributes

/-- The attributes that are not looked at. -/
def Body.overlooked : Body → List Attribute
  | .struct _ => []
  | body => body.attributes

def Declaration.allAttributes (d : Declaration) : List Attribute :=
  d.attributes ++ d.body.attributes

def Associated.attributes : Associated → List Attribute
  | .function f => f.attributes
  | .other attributes _ => attributes

def Associated.overlooked : Associated → List Attribute
  | .function _ => []
  | .other attributes _ => attributes

def Implementation.allAttributes (block : Implementation) : List Attribute :=
  block.attributes ++ block.items.flatMap Associated.attributes

def Implementation.overlooked (block : Implementation) : List Attribute :=
  block.attributes ++ block.items.flatMap Associated.overlooked

variable {a : Attribute}

theorem Fields.not_isHelper_of_mem_stripped {fields : Fields} (member : a ∈ fields.stripped.attributes) :
    ¬ a.IsHelper := by
  obtain ⟨field, inFields, inField⟩ := List.mem_flatMap.mp member
  have isStripped : ∃ former : Field, field = former.stripped := by
    cases fields with
    | named fields span =>
        simp only [stripped, toList, Separated.items, List.map_map, List.mem_map] at inFields
        obtain ⟨former, _, rfl⟩ := inFields
        exact ⟨former.1, rfl⟩
    | positional fields span =>
        simp only [stripped, toList, Separated.items, List.map_map, List.mem_map] at inFields
        obtain ⟨former, _, rfl⟩ := inFields
        exact ⟨former.1, rfl⟩
    | unit => cases inFields
  obtain ⟨former, rfl⟩ := isStripped
  exact (Attribute.relieved_strip former.attributes).foreign a inField

theorem Declaration.left_iff (d : Declaration) :
    a ∈ d.stripped.allAttributes ∧ a.IsHelper ↔ a ∈ d.body.overlooked ∧ a.IsHelper := by
  refine and_congr_left fun isHelper => ?_
  have absent : a ∉ d.stripped.attributes := fun member =>
    (Attribute.relieved_strip d.attributes).foreign a member isHelper
  rw [allAttributes, List.mem_append, or_iff_right absent]
  unfold stripped
  cases d.body with
  | struct fields =>
      exact iff_of_false (fun member => Fields.not_isHelper_of_mem_stripped member isHelper) (by simp [Body.overlooked])
  | enumeration variants span => rfl
  | union fields => rfl

theorem Associated.left_iff (item : Associated) :
    a ∈ item.stripped.attributes ∧ a.IsHelper ↔ a ∈ item.overlooked ∧ a.IsHelper := by
  cases item with
  | function f =>
      refine iff_of_false ?_ (by simp [overlooked])
      rintro ⟨member, isHelper⟩
      exact (Attribute.relieved_strip f.attributes).foreign a member isHelper
  | other attributes tokens => rfl

theorem Attribute.left_flatMap_iff {α : Type} {parts : List α} {left all : α → List Attribute}
    (each : ∀ part, a ∈ left part ∧ a.IsHelper ↔ a ∈ all part ∧ a.IsHelper) :
    a ∈ parts.flatMap left ∧ a.IsHelper ↔ a ∈ parts.flatMap all ∧ a.IsHelper := by
  simp only [List.mem_flatMap, ← exists_and_right, and_assoc, each]

theorem Implementation.left_iff (block : Implementation) :
    a ∈ block.stripped.allAttributes ∧ a.IsHelper ↔ a ∈ block.overlooked ∧ a.IsHelper := by
  rw [allAttributes, overlooked, stripped, List.flatMap_map, List.mem_append, List.mem_append, or_and_right,
    or_and_right]
  exact or_congr_right (Attribute.left_flatMap_iff Associated.left_iff)

end Overlooked

namespace ClassDefinition

/-- Helper attributes that are left in the items of the user stand at variants and their fields, at the fields of a
union, at blocks, and at what is no function in a block. All that stand there are left. -/
theorem userItems_overlooked (d : Declaration) (blocks : List Implementation) :
    ∃ changed others, Relieved ⟨.declaration d, blocks⟩ ⟨.declaration changed, others⟩ ∧
      userItems ⟨.declaration d, blocks⟩ = changed.tokens ++ others.flatMap Implementation.tokens ∧
      ∀ a : Attribute, a ∈ changed.allAttributes ++ others.flatMap Implementation.allAttributes ∧ a.IsHelper ↔
        a ∈ d.body.overlooked ++ blocks.flatMap Implementation.overlooked ∧ a.IsHelper := by
  refine ⟨d.stripped, blocks.map Implementation.stripped, relieved_iff.mpr rfl, rfl, fun a => ?_⟩
  rw [List.flatMap_map, List.mem_append, List.mem_append, or_and_right, or_and_right]
  exact or_congr d.left_iff (Attribute.left_flatMap_iff Implementation.left_iff)

section Tokens

open Token

def mark : List Token :=
  [.mark '#' false .origin, brackets [.word "deep_copy" .origin, parentheses [.word "skip" .origin]]]

/-- The text of the user's items, if these are the tokens of a class. -/
def rewritten? (tokens : List Token) : Option String :=
  (ofTokens tokens).toOption.map fun definition => renderAll definition.userItems

/-- A variant keeps its helper attributes. -/
theorem userItems_enumerated :
    rewritten? (spellAll ["enum", "E"] ++ [braces (mark ++ spell "A")]) =
      some "enum E \x7b # [deep_copy (skip)] A \x7d" := by
  decide +kernel

end Tokens

end ClassDefinition

end Replica
