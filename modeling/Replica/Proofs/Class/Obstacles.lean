import Replica.Class.Support

/-!
Which types are refused. An obstacle counts where values of the type would hold it: behind parentheses, in elements and
in arguments, but not behind a reference. Of all obstacles that count, the first in the source is reported.
-/

namespace Replica

variable {α β : Type}

/-- The first place does not come behind the second. They are compared where they part, and a place comes in front of
all that are within it. -/
inductive Precedes : List Nat → List Nat → Prop
  | whole {place : List Nat} : Precedes [] place
  | earlier {n m : Nat} {place other : List Nat} (less : n < m) : Precedes (n :: place) (m :: other)
  | within {n : Nat} {place other : List Nat} (precedes : Precedes place other) : Precedes (n :: place) (n :: other)

theorem Precedes.antisymm {place other : List Nat} (precedes : Precedes place other) (follows : Precedes other place) :
    place = other := by
  induction precedes with
  | whole =>
      cases follows
      rfl
  | earlier less =>
      cases follows with
      | earlier more => exact absurd more (Nat.lt_asymm less)
      | within => exact absurd less (Nat.lt_irrefl _)
  | within _ ih =>
      cases follows with
      | earlier more => exact absurd more (Nat.lt_irrefl _)
      | within follows => rw [ih follows]

/-- The answer is what holds at the first of all places where something holds, and there is none without such places. -/
def Foremost (holds : List Nat → α → Prop) : Option α → Prop
  | some a => ∃ place, holds place a ∧ ∀ other another, holds other another → Precedes place other
  | none => ∀ place a, ¬ holds place a

/-- What holds inside one of the items, at places that begin with the number of the item. -/
def Within (holds : β → List Nat → α → Prop) (items : List β) (place : List Nat) (a : α) : Prop :=
  ∃ n inner item, place = n :: inner ∧ items[n]? = some item ∧ holds item inner a

/-- The place behind one more item in front. -/
def further : List Nat → List Nat
  | n :: inner => (n + 1) :: inner
  | [] => []

theorem Precedes.further {place other : List Nat} (precedes : Precedes place other) :
    Precedes (further place) (further other) := by
  cases precedes with
  | whole => exact .whole
  | earlier less => exact .earlier (Nat.succ_lt_succ less)
  | within inside => exact .within inside

namespace Foremost

variable {holds holds' first second : List Nat → α → Prop} {answer other : Option α}

theorem congr (foremost : Foremost holds answer) (same : ∀ place a, holds' place a ↔ holds place a) :
    Foremost holds' answer := by
  have equal : holds' = holds := by
    funext place a
    rw [same]
  rwa [equal]

theorem moved (move : List Nat → List Nat)
    (monotone : ∀ {place other}, Precedes place other → Precedes (move place) (move other))
    (foremost : Foremost holds answer) :
    Foremost (fun place a => ∃ inner, place = move inner ∧ holds inner a) answer := by
  cases answer with
  | none =>
      rintro place a ⟨inner, _, held⟩
      exact foremost inner a held
  | some a =>
      obtain ⟨place, held, least⟩ := foremost
      refine ⟨move place, ⟨place, rfl, held⟩, ?_⟩
      rintro other another ⟨inner, rfl, alsoHeld⟩
      exact monotone (least inner another alsoHeld)

theorem or (foremost : Foremost first answer) (behind : Foremost second other)
    (apart : ∀ place a later b, first place a → second later b → Precedes place later) :
    Foremost (fun place a => first place a ∨ second place a) (answer.or other) := by
  cases answer with
  | some a =>
      obtain ⟨place, held, least⟩ := foremost
      refine ⟨place, .inl held, ?_⟩
      rintro later b (inFirst | inSecond)
      · exact least later b inFirst
      · exact apart place a later b held inSecond
  | none =>
      refine behind.congr fun place a => ?_
      simp [foremost place a]

theorem within_nil {holds : β → List Nat → α → Prop} : Foremost (Within holds []) none := by
  rintro place a ⟨n, inner, item, _, isItem, _⟩
  simp at isItem

theorem within_cons {holds : β → List Nat → α → Prop} {item : β} {items : List β}
    (foremost : Foremost (holds item) answer) (behind : Foremost (Within holds items) other) :
    Foremost (Within holds (item :: items)) (answer.or other) := by
  have here := foremost.moved (0 :: ·) .within
  have there := behind.moved further .further
  refine (here.or there ?_).congr fun place a => ?_
  · rintro _ a _ b ⟨inner, rfl, _⟩ ⟨_, rfl, n, other, another, rfl, _⟩
    exact .earlier n.succ_pos
  · constructor
    · rintro ⟨_ | n, inner, found, rfl, isItem, held⟩
      · cases isItem
        exact .inl ⟨inner, rfl, held⟩
      · exact .inr ⟨n :: inner, rfl, n, inner, found, rfl, isItem, held⟩
    · rintro (⟨inner, rfl, held⟩ | ⟨_, rfl, n, inner, found, rfl, isItem, held⟩)
      · exact ⟨0, inner, item, rfl, rfl, held⟩
      · exact ⟨n + 1, inner, found, rfl, isItem, held⟩

theorem exists_iff (foremost : Foremost holds answer) : answer ≠ none ↔ ∃ place a, holds place a := by
  cases answer with
  | none => simpa using fun place a => foremost place a
  | some a =>
      obtain ⟨place, held, _⟩ := foremost
      simpa using ⟨place, a, held⟩

theorem eq_some_iff (foremost : Foremost holds answer)
    (unique : ∀ place a b, holds place a → holds place b → a = b) {a : α} :
    answer = some a ↔ ∃ place, holds place a ∧ ∀ other another, holds other another → Precedes place other := by
  constructor
  · rintro rfl
    exact foremost
  · rintro ⟨place, held, least⟩
    cases answer with
    | none => exact absurd held (foremost place a)
    | some b =>
        obtain ⟨other, alsoHeld, alsoLeast⟩ := foremost
        have same : place = other := (least other b alsoHeld).antisymm (alsoLeast place a held)
        rw [unique other b a alsoHeld (same ▸ held)]

end Foremost

def SegmentOutline.types : SegmentOutline → List TypeOutline
  | .generic _ _ types => types
  | _ => []

namespace TypeOutline

/-- Values of the outer type are values of the inner one, or have them as elements. -/
inductive Encloses : TypeOutline → TypeOutline → Prop
  | parenthesized {inner : TypeOutline} : Encloses (.parenthesized inner) inner
  | grouped {inner : TypeOutline} : Encloses (.grouped inner) inner
  | array {inner : TypeOutline} : Encloses (.array inner) inner
  | slice {inner : TypeOutline} : Encloses (.slice inner) inner

/-- From the outer type the inner one is reached at this place without passing a reference. A place is told by the
numbers of the steps to it: components and arguments are counted, and the type that qualifies a path comes first. The
arguments of a path that ends in `PhantomData` are not reached. -/
inductive Exposes : TypeOutline → List Nat → TypeOutline → Prop
  | here {type : TypeOutline} : Exposes type [] type
  | enclosed {outer middle inner : TypeOutline} {place : List Nat} (encloses : outer.Encloses middle)
      (inside : Exposes middle place inner) : Exposes outer (0 :: place) inner
  | component {components : List TypeOutline} {n : Nat} {outer inner : TypeOutline} {place : List Nat}
      (isComponent : components[n]? = some outer) (inside : Exposes outer place inner) :
      Exposes (.tuple components) (n :: place) inner
  | qualifier {outer inner : TypeOutline} {rooted : Bool} {segments : List SegmentOutline} {place : List Nat}
      (inside : Exposes outer place inner) : Exposes (.path (some outer) rooted segments) (0 :: place) inner
  | argument {qualifier : Option TypeOutline} {rooted : Bool} {segments : List SegmentOutline}
      {segment : SegmentOutline} {n m : Nat} {outer inner : TypeOutline} {place : List Nat}
      (holds : segments.getLast?.map SegmentOutline.name ≠ some "PhantomData") (isSegment : segments[n]? = some segment)
      (isArgument : segment.types[m]? = some outer) (inside : Exposes outer place inner) :
      Exposes (.path qualifier rooted segments) ((n + 1) :: m :: place) inner

/-- The type itself cannot be copied, for this reason. -/
inductive Hinders : TypeOutline → String → Prop
  | mutableReference {lifetime : Option String} {element : TypeOutline} :
      Hinders (.reference lifetime true element) "a mutable reference cannot be duplicated"
  | borrowedReference {lifetime : Option String} {element : TypeOutline} (borrowed : lifetime ≠ some "static") :
      Hinders (.reference lifetime false element) "a borrowed reference would alias the original"
  | pointer {element : TypeOutline} : Hinders (.pointer element) "a raw pointer would alias the original"
  | traitObject {single bare : Bool} : Hinders (.traitObject single bare) "a trait object has no known copy"
  | opaqueType {bare : Bool} : Hinders (.opaqueType bare) "an opaque type has no known copy"

def Hindered (type : TypeOutline) (place : List Nat) (reason : String) : Prop :=
  ∃ inner, type.Exposes place inner ∧ inner.Hinders reason

end TypeOutline

def SegmentOutline.Hindered (segment : SegmentOutline) : List Nat → String → Prop :=
  Within TypeOutline.Hindered segment.types

namespace TypeOutline

variable {type inner sibling : TypeOutline} {place : List Nat} {reason another : String}

theorem Encloses.unique (encloses : type.Encloses inner) (alsoEncloses : type.Encloses sibling) : inner = sibling := by
  cases encloses <;> cases alsoEncloses <;> rfl

theorem Exposes.unique (exposes : type.Exposes place inner) (alsoExposes : type.Exposes place sibling) :
    inner = sibling := by
  induction exposes generalizing sibling with
  | here =>
      cases alsoExposes
      rfl
  | enclosed encloses _ ih =>
      cases alsoExposes with
      | enclosed alsoEncloses inside =>
          cases encloses.unique alsoEncloses
          exact ih inside
      | component => cases encloses
      | qualifier => cases encloses
  | component isComponent _ ih =>
      cases alsoExposes with
      | enclosed encloses => cases encloses
      | component isOther inside =>
          cases isComponent.symm.trans isOther
          exact ih inside
  | qualifier _ ih =>
      cases alsoExposes with
      | enclosed encloses => cases encloses
      | qualifier inside => exact ih inside
  | argument _ isSegment isArgument _ ih =>
      cases alsoExposes with
      | argument _ isOther isOtherArgument inside =>
          cases isSegment.symm.trans isOther
          cases isArgument.symm.trans isOtherArgument
          exact ih inside

theorem Hinders.unique (hinders : type.Hinders reason) (alsoHinders : type.Hinders another) : reason = another := by
  cases hinders <;> cases alsoHinders <;> rfl

theorem Hindered.unique (hindered : type.Hindered place reason) (alsoHindered : type.Hindered place another) :
    reason = another := by
  obtain ⟨inner, exposes, hinders⟩ := hindered
  obtain ⟨sibling, alsoExposes, alsoHinders⟩ := alsoHindered
  cases exposes.unique alsoExposes
  exact hinders.unique alsoHinders

theorem hindered_of_hinders (hinders : type.Hinders reason) : type.Hindered [] reason :=
  ⟨type, .here, hinders⟩

theorem hindered_iff_of_encloses (encloses : type.Encloses inner) :
    type.Hindered place reason ↔ ∃ below, place = 0 :: below ∧ inner.Hindered below reason := by
  constructor
  · rintro ⟨core, exposes, hinders⟩
    cases exposes with
    | here => cases encloses <;> cases hinders
    | enclosed alsoEncloses inside =>
        cases encloses.unique alsoEncloses
        exact ⟨_, rfl, core, inside, hinders⟩
    | component => cases encloses
    | qualifier => cases encloses
    | argument => cases encloses
  · rintro ⟨below, rfl, core, inside, hinders⟩
    exact ⟨core, .enclosed encloses inside, hinders⟩

theorem hindered_tuple_iff {components : List TypeOutline} :
    (tuple components).Hindered place reason ↔ Within Hindered components place reason := by
  constructor
  · rintro ⟨core, exposes, hinders⟩
    cases exposes with
    | here => cases hinders
    | enclosed encloses => cases encloses
    | component isComponent inside => exact ⟨_, _, _, rfl, isComponent, core, inside, hinders⟩
  · rintro ⟨n, below, component, rfl, isComponent, core, inside, hinders⟩
    exact ⟨core, .component isComponent inside, hinders⟩

theorem hindered_path_iff {qualifier : Option TypeOutline} {rooted : Bool} {segments : List SegmentOutline} :
    (path qualifier rooted segments).Hindered place reason ↔
      (∃ below, place = 0 :: below ∧ ∃ type, qualifier = some type ∧ type.Hindered below reason) ∨
      ∃ below, place = further below ∧ segments.getLast?.map SegmentOutline.name ≠ some "PhantomData" ∧
        Within SegmentOutline.Hindered segments below reason := by
  constructor
  · rintro ⟨core, exposes, hinders⟩
    cases exposes with
    | here => cases hinders
    | enclosed encloses => cases encloses
    | qualifier inside => exact .inl ⟨_, rfl, _, rfl, core, inside, hinders⟩
    | @argument _ _ _ segment n m type _ below holds isSegment isArgument inside =>
        exact .inr ⟨n :: m :: below, rfl, holds, n, m :: below, segment, rfl, isSegment, m, below, type, rfl,
          isArgument, core, inside, hinders⟩
  · rintro (⟨below, rfl, type, rfl, core, inside, hinders⟩ |
      ⟨_, rfl, holds, n, _, segment, rfl, isSegment, m, below, type, rfl, isArgument, core, inside, hinders⟩)
    · exact ⟨core, .qualifier inside, hinders⟩
    · exact ⟨core, .argument holds isSegment isArgument inside, hinders⟩

theorem foremost_of_hinders (hinders : type.Hinders reason) : Foremost type.Hindered (some reason) :=
  ⟨[], hindered_of_hinders hinders, fun _ _ _ => .whole⟩

theorem foremost_of_encloses (encloses : type.Encloses inner) {answer : Option String}
    (foremost : Foremost inner.Hindered answer) : Foremost type.Hindered answer :=
  (foremost.moved (0 :: ·) .within).congr fun _ _ => hindered_iff_of_encloses encloses

theorem foremost_path {qualifier : Option TypeOutline} {rooted : Bool} {segments : List SegmentOutline}
    {answer other : Option String}
    (front : Foremost (fun place reason => ∃ type, qualifier = some type ∧ type.Hindered place reason) answer)
    (behind : Foremost (Within SegmentOutline.Hindered segments) other) :
    Foremost (path qualifier rooted segments).Hindered
      (answer.or (if segments.getLast?.map SegmentOutline.name = some "PhantomData" then none else other)) := by
  have arguments : Foremost (fun place reason => ∃ below, place = further below ∧
      segments.getLast?.map SegmentOutline.name ≠ some "PhantomData" ∧
        Within SegmentOutline.Hindered segments below reason)
      (if segments.getLast?.map SegmentOutline.name = some "PhantomData" then none else other) := by
    by_cases marker : segments.getLast?.map SegmentOutline.name = some "PhantomData"
    · rw [if_pos marker]
      rintro _ _ ⟨_, _, holds, _⟩
      exact holds marker
    · rw [if_neg marker]
      refine (behind.moved further .further).congr fun place reason => ?_
      simp [marker]
  refine ((front.moved (0 :: ·) .within).or arguments ?_).congr fun _ _ => hindered_path_iff
  rintro _ _ _ _ ⟨below, rfl, _⟩ ⟨_, rfl, _, n, inner, _, rfl, _⟩
  exact .earlier n.succ_pos

end TypeOutline

section Foremost

open TypeOutline (Hindered foremost_of_hinders foremost_of_encloses foremost_path hindered_tuple_iff)

mutual

theorem TypeOutline.foremost_obstacle? (type : TypeOutline) :
    Foremost type.Hindered (type.obstacle?.map Obstacle.message) := by
  cases type with
  | reference lifetime mutable element =>
      cases mutable with
      | true => exact foremost_of_hinders .mutableReference
      | false =>
          by_cases static : lifetime = some staticLifetime
          · rw [TypeOutline.obstacle?, if_pos static]
            rintro place reason ⟨inner, _ | ⟨⟨⟩⟩, _ | borrowed⟩
            exact borrowed static
          · rw [TypeOutline.obstacle?, if_neg static]
            exact foremost_of_hinders (.borrowedReference static)
  | pointer element => exact foremost_of_hinders .pointer
  | function result =>
      rintro place reason ⟨inner, _ | ⟨⟨⟩⟩, ⟨⟩⟩
  | traitObject single bare => exact foremost_of_hinders .traitObject
  | opaqueType bare => exact foremost_of_hinders .opaqueType
  | parenthesized inner => exact foremost_of_encloses .parenthesized (TypeOutline.foremost_obstacle? inner)
  | grouped inner => exact foremost_of_encloses .grouped (TypeOutline.foremost_obstacle? inner)
  | array element => exact foremost_of_encloses .array (TypeOutline.foremost_obstacle? element)
  | slice element => exact foremost_of_encloses .slice (TypeOutline.foremost_obstacle? element)
  | tuple components =>
      exact (TypeOutline.foremost_firstObstacle? components).congr fun _ _ => hindered_tuple_iff
  | path qualifier rooted segments =>
      have arguments := SegmentOutline.foremost_firstObstacle? segments
      cases qualifier with
      | none =>
          have unqualified :
              Foremost (fun place reason => ∃ type, none = some type ∧ Hindered type place reason) none := by
            simp [Foremost]
          have whole := @foremost_path none rooted segments none _ unqualified arguments
          rw [TypeOutline.obstacle?, apply_ite (Option.map Obstacle.message)]
          exact whole
      | some type =>
          have qualified : Foremost (fun place reason => ∃ same, some type = some same ∧ Hindered same place reason)
              (type.obstacle?.map Obstacle.message) :=
            (TypeOutline.foremost_obstacle? type).congr (by simp)
          have whole := @foremost_path (some type) rooted segments _ _ qualified arguments
          rw [TypeOutline.obstacle?, Option.orElse_eq_orElse, Option.orElse_eq_or, Option.map_or,
            apply_ite (Option.map Obstacle.message)]
          exact whole
  | other =>
      rintro place reason ⟨inner, _ | ⟨⟨⟩⟩, ⟨⟩⟩

theorem TypeOutline.foremost_firstObstacle? (types : List TypeOutline) :
    Foremost (Within Hindered types) ((TypeOutline.firstObstacle? types).map Obstacle.message) := by
  cases types with
  | nil => exact Foremost.within_nil
  | cons type types =>
      rw [TypeOutline.firstObstacle?, Option.orElse_eq_orElse, Option.orElse_eq_or, Option.map_or]
      exact (TypeOutline.foremost_obstacle? type).within_cons (TypeOutline.foremost_firstObstacle? types)

theorem SegmentOutline.foremost_obstacle? (segment : SegmentOutline) :
    Foremost segment.Hindered (segment.obstacle?.map Obstacle.message) := by
  cases segment with
  | bare name => exact Foremost.within_nil
  | generic name turbofish types => exact TypeOutline.foremost_firstObstacle? types
  | hollow name turbofish => exact Foremost.within_nil

theorem SegmentOutline.foremost_firstObstacle? (segments : List SegmentOutline) :
    Foremost (Within SegmentOutline.Hindered segments)
      ((SegmentOutline.firstObstacle? segments).map Obstacle.message) := by
  cases segments with
  | nil => exact Foremost.within_nil
  | cons segment segments =>
      rw [SegmentOutline.firstObstacle?, Option.orElse_eq_orElse, Option.orElse_eq_or, Option.map_or]
      exact (SegmentOutline.foremost_obstacle? segment).within_cons (SegmentOutline.foremost_firstObstacle? segments)

end

end Foremost

/-- A type is refused if and only if something in it that is exposed cannot be copied, and what is reported is the first
such thing in the order of the source: what qualifies a path, then its arguments from left to right. -/
theorem TypeOutline.first_exposed_obstacle (type : TypeOutline) :
    (type.obstacle? ≠ none ↔ ∃ place inner reason, type.Exposes place inner ∧ inner.Hinders reason) ∧
      ∀ reason, type.obstacle?.map Obstacle.message = some reason ↔
        ∃ place inner, type.Exposes place inner ∧ inner.Hinders reason ∧
          ∀ other exposed another, type.Exposes other exposed → exposed.Hinders another → Precedes place other := by
  have foremost := type.foremost_obstacle?
  constructor
  · have answered : type.obstacle? ≠ none ↔ type.obstacle?.map Obstacle.message ≠ none := by simp
    rw [answered, foremost.exists_iff]
    constructor
    · rintro ⟨place, reason, inner, exposes, hinders⟩
      exact ⟨place, inner, reason, exposes, hinders⟩
    · rintro ⟨place, inner, reason, exposes, hinders⟩
      exact ⟨place, reason, inner, exposes, hinders⟩
  · intro reason
    rw [foremost.eq_some_iff fun _ _ _ => Hindered.unique]
    constructor
    · rintro ⟨place, ⟨inner, exposes, hinders⟩, least⟩
      refine ⟨place, inner, exposes, hinders, ?_⟩
      intro other exposed another alsoExposes alsoHinders
      exact least other another ⟨exposed, alsoExposes, alsoHinders⟩
    · rintro ⟨place, inner, exposes, hinders, least⟩
      refine ⟨place, ⟨inner, exposes, hinders⟩, ?_⟩
      rintro other another ⟨exposed, alsoExposes, alsoHinders⟩
      exact least other exposed another alsoExposes alsoHinders

-- A marker holds nothing of its argument, and a vector does.
example :
    let borrowed : TypeOutline := .reference (some "a") false .other
    let vector : TypeOutline := .path none false [.generic "Vec" false [.tuple [.other, .pointer borrowed], borrowed]]
    TypeOutline.obstacle? (.tuple [.path none false [.generic "PhantomData" false [borrowed]], vector]) =
      some .pointer := rfl

end Replica
