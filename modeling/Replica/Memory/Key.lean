import Replica.Memory.Store

/-!
Keys: what keyed collections see of a value. Numbers, texts and sequences of keys are ordered,
and boxes, counted handles and cells count as what they hold.
-/

namespace Replica

inductive Key where
  | number (value : Int)
  | text (value : String)
  | sequence (items : List Key)
  /-- The key of all values without an order. They count as alike, and come before all others. -/
  | other
deriving Inhabited

namespace Key

def rank : Key → Nat
  | .other => 0
  | .number _ => 1
  | .text _ => 2
  | .sequence _ => 3

mutual

/-- Numbers come first, then texts and then sequences. -/
def compare : Key → Key → Ordering
  | .number a, .number b => Ord.compare a b
  | .text a, .text b => Ord.compare a b
  | .sequence a, .sequence b => compareAll a b
  | a, b => Ord.compare a.rank b.rank

def compareAll : List Key → List Key → Ordering
  | [], [] => .eq
  | [], _ :: _ => .lt
  | _ :: _, [] => .gt
  | a :: rest, b :: others => (a.compare b).then (compareAll rest others)

end

def le (a b : Key) : Bool :=
  (a.compare b).isLE

def isOrdered : Key → Bool
  | .other => false
  | _ => true

/-- The key of a sequence. It has no order if one of its parts has none. -/
def ofParts (parts : List Key) : Key :=
  if parts.all isOrdered then .sequence parts else .other

/-- The types of the integers that may be keys. -/
def integerTypes : List IntegerType :=
  [.u8, .u64, .i8, .i32, .i64, .i128]

def ofAtom : Atom → Key
  | .flag value => .number (if value then 1 else 0)
  | .integer type value => if integerTypes.contains type then .number value else .other
  | .text value => .text value
  | _ => .other

mutual

/-- The key of a value. `follow` is the key of what a counted handle leads to, and `cells` says
whether cells are seen into. -/
def ofValue (cells : Bool) (follow : Address → Key) : Value → Key
  | .atom content => ofAtom content
  | .handle .rc address => follow address
  | .node .tuple [first, second] =>
    ofParts [ofValue cells follow first, ofValue cells follow second]
  | .node .vector parts => ofParts (ofValues cells follow parts)
  | .node .box [content] => ofValue cells follow content
  | .node (.refCell _) [content] => if cells then ofValue cells follow content else .other
  | _ => .other

def ofValues (cells : Bool) (follow : Address → Key) : List Value → List Key
  | [] => []
  | value :: values => ofValue cells follow value :: ofValues cells follow values

end

/-- The key of what a counted handle leads to, through at the most `depth` handles. -/
def ofAddress (cells : Bool) (store : Store) : (depth : Nat) → Address → Key
  | 0, _ => .other
  | depth + 1, address =>
    match store.contents? address with
    | some [content] => ofValue cells (ofAddress cells store depth) content
    | _ => .other

end Key

namespace Store

/-- No way through handles is longer than the store has slots, unless it leads in a circle. -/
def depth (store : Store) : Nat :=
  store.slots.size + 1

def key (store : Store) (value : Value) : Key :=
  Key.ofValue true (Key.ofAddress true store store.depth) value

/-- The key of a value as long as no cell is needed for it. -/
def fixedKey (store : Store) (value : Value) : Key :=
  Key.ofValue false (Key.ofAddress false store store.depth) value

/-- What a part of a collection is found by: of an entry its key. -/
def partKey (store : Store) : Value → Key
  | .node .entry (key :: _) => store.key key
  | value => store.key value

end Store

end Replica
