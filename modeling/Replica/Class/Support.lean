import Replica.Grammar.Outline

/-!
Types whose values cannot be copied deeply, whatever else is known of them.
-/

namespace Replica

inductive Obstacle where
  | mutableReference
  | borrowedReference
  | pointer
  | traitObject
  | opaqueType
deriving DecidableEq, Repr

namespace Obstacle

def message : Obstacle → String
  | .mutableReference => "a mutable reference cannot be duplicated"
  | .borrowedReference => "a borrowed reference would alias the original"
  | .pointer => "a raw pointer would alias the original"
  | .traitObject => "a trait object has no known copy"
  | .opaqueType => "an opaque type has no known copy"

end Obstacle

/-- The type that stands for a value without holding it. -/
def markerType : String := "PhantomData"

/-- The lifetime of what is never released. -/
def staticLifetime : String := "static"

mutual

/-- The first obstacle to a copy of the type's values. Arguments of a path count unless the
path ends in the marker type. -/
def TypeOutline.obstacle? : TypeOutline → Option Obstacle
  | .reference _ true _ => some .mutableReference
  | .reference lifetime false _ =>
    if lifetime = some staticLifetime then none else some .borrowedReference
  | .pointer _ => some .pointer
  | .traitObject _ _ => some .traitObject
  | .opaqueType _ => some .opaqueType
  | .parenthesized inner => inner.obstacle?
  | .grouped inner => inner.obstacle?
  | .array element => element.obstacle?
  | .slice element => element.obstacle?
  | .tuple elements => TypeOutline.firstObstacle? elements
  | .path none _ segments =>
    if (segments.getLast?.map SegmentOutline.name) = some markerType then none
    else SegmentOutline.firstObstacle? segments
  | .path (some type) _ segments =>
    type.obstacle? <|>
      if (segments.getLast?.map SegmentOutline.name) = some markerType then none
      else SegmentOutline.firstObstacle? segments
  | .function _ => none
  | .other => none

def TypeOutline.firstObstacle? : List TypeOutline → Option Obstacle
  | [] => none
  | type :: types => type.obstacle? <|> TypeOutline.firstObstacle? types

def SegmentOutline.obstacle? : SegmentOutline → Option Obstacle
  | .bare _ => none
  | .generic _ _ types => TypeOutline.firstObstacle? types
  | .hollow _ _ => none

def SegmentOutline.firstObstacle? : List SegmentOutline → Option Obstacle
  | [] => none
  | segment :: segments => segment.obstacle? <|> SegmentOutline.firstObstacle? segments

end

end Replica
