import Replica.Atom.Basic

/-!
Values: atoms, texts that live as long as the program, handles to shared allocations, and nodes.
A node owns its parts, and its form says what it is to them.
-/

namespace Replica

abbrev Address := Nat

/-- What a handle shares with the other handles to its allocation. -/
inductive Sharing where
  | rc
  | arc
  | rcText
  | arcText
  | rcSlice
  | arcSlice
deriving DecidableEq, Repr

/-- The constructor that made an account. -/
inductive AccountMaker where
  | new
  | withBonus
  | closed
  | audited
deriving DecidableEq, Repr

/-- The forms of nodes, with the data of theirs that is no value. -/
inductive Form where
  | absent
  | present
  | success
  | failure
  | array
  | vector
  | deque
  | linked
  | tuple
  | boxedSlice
  | box
  | wrapping
  /-- A queue whose greatest part comes first. -/
  | priorityQueue
  | hashSet
  | treeSet
  | hashMap
  | treeMap
  /-- A key and its value, in a map. -/
  | entry
  | cell (value : Int)
  /-- A cell that hands out its content, and whether somebody changes it right now. -/
  | refCell (held : Bool)
  | onceCell
  | onceLock
  | mutex (poisoned : Bool)
  | rwLock (poisoned : Bool)
  | simple (name : String) (value : Int)
  | pair
  | marker
  /-- The parts are a shared handle, a cache and an owned handle. -/
  | strategies (counter : UInt32)
  | account (maker : AccountMaker) (owner : String) (balance : Int64)
  /-- The only part is the handle to the shelf. -/
  | library (name : String)
  | sorted
deriving DecidableEq, Repr

inductive Value where
  | atom (atom : Atom)
  /-- A reference to a text that is never freed. References with one label are the same. -/
  | static (label : Nat) (text : String)
  | handle (sharing : Sharing) (address : Address)
  | node (form : Form) (parts : List Value)

/-- Which part of a value to enter at each step: of a node one of its parts, and through a handle
one of the values in its allocation. -/
abbrev Trail := List Nat

namespace Value

mutual

/-- The addresses that the handles in a value lead to, each as often as there are handles. The
content of an allocation is no part of the value. -/
def addresses : Value → List Address
  | .atom _ => []
  | .static _ _ => []
  | .handle _ address => [address]
  | .node _ parts => addressesOfAll parts

def addressesOfAll : List Value → List Address
  | [] => []
  | value :: values => value.addresses ++ addressesOfAll values

end

theorem addressesOfAll_eq_flatMap (values : List Value) :
    addressesOfAll values = values.flatMap addresses := by
  induction values with
  | nil => rfl
  | cons value values ih => simp [addressesOfAll, ih]

def text (text : String) : Value :=
  .atom (.text text)

end Value

namespace Sharing

def word : Sharing → String
  | .rc => "rc"
  | .arc => "arc"
  | .rcText => "rc_str"
  | .arcText => "arc_str"
  | .rcSlice => "rc_slice"
  | .arcSlice => "arc_slice"

end Sharing

namespace AccountMaker

def word : AccountMaker → String
  | .new => "new"
  | .withBonus => "with_bonus"
  | .closed => "closed"
  | .audited => "audited"

end AccountMaker

namespace Form

/-- The word that a form is read from and shown with. Entries have none. -/
def word : Form → String
  | .absent => "none"
  | .present => "some"
  | .success => "ok"
  | .failure => "err"
  | .array => "array"
  | .vector => "vec"
  | .deque => "deque"
  | .linked => "list"
  | .tuple => "tuple"
  | .boxedSlice => "box_slice"
  | .box => "box"
  | .wrapping => "wrapping"
  | .priorityQueue => "heap"
  | .hashSet => "hash_set"
  | .treeSet => "btree_set"
  | .hashMap => "hash_map"
  | .treeMap => "btree_map"
  | .entry => ""
  | .cell _ => "cell"
  | .refCell _ => "ref_cell"
  | .onceCell => "once_cell"
  | .onceLock => "once_lock"
  | .mutex _ => "mutex"
  | .rwLock _ => "rw_lock"
  | .simple _ _ => "simple"
  | .pair => "pair"
  | .marker => "marker"
  | .strategies _ => "strategies"
  | .account _ _ _ => "account"
  | .library _ => "library"
  | .sorted => "sorted"

/-- Forms that words alone tell apart, as they are when they are new. -/
def plain : List Form :=
  [.absent, .present, .success, .failure, .array, .vector, .deque, .linked, .tuple, .boxedSlice,
    .box, .wrapping, .priorityQueue, .hashSet, .treeSet, .refCell false, .onceCell, .onceLock,
    .mutex false, .rwLock false, .pair, .marker, .sorted]

def ofWord? (word : String) : Option Form :=
  plain.find? (·.word = word)

/-- How many parts a node of the form may have. -/
def admitsCount (form : Form) (count : Nat) : Bool :=
  match form with
  | .absent | .marker => count = 0
  | .present | .success | .failure | .box | .wrapping | .refCell _ | .mutex _ | .rwLock _ =>
    count = 1
  | .onceCell | .onceLock => count ≤ 1
  | .pair => count = 2
  | .array => count ≤ 3 || count = 5
  | .tuple => 1 ≤ count && count ≤ 8
  | _ => true

end Form

end Replica
