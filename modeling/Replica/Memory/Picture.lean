import Replica.Memory.Collection

/-!
Pictures: values as data. What is shared gets a number where it is met first, with all that it
holds, and only its number after that.
-/

namespace Replica

/-- What pictures number. -/
inductive Identity where
  | allocation (address : Address)
  | static (label : Nat)
deriving DecidableEq, Repr

/-- A picture in the making knows what has been met, the first thing first. -/
abbrev Drawing := StateM (List Identity)

namespace Drawing

/-- The number of a thing, and whether it is met for the first time. -/
def meet (identity : Identity) : Drawing (Int × Bool) := do
  let met ← get
  match met.idxOf? identity with
  | some number => return (number, false)
  | none => do
    set (met ++ [identity])
    return (met.length, true)

def sequence : List (Drawing Datum) → Drawing (List Datum)
  | [] => pure []
  | drawing :: drawings => do
    let datum ← drawing
    return datum :: (← sequence drawings)

end Drawing

namespace Form

/-- The data of a form that stand in front of its parts. -/
def front : Form → List Datum
  | .mutex poisoned | .rwLock poisoned => [.flag poisoned]
  | .cell value => [Atom.number value]
  | .simple name value => [.text name, Atom.number value]
  | .account maker owner balance => [.text maker.word, .text owner, Atom.number balance.toInt]
  | .library name => [.text name]
  | _ => []

def datum (form : Form) (parts : List Datum) : Datum :=
  match form, parts with
  | .entry, parts => .list parts
  | .strategies counter, shared :: rest =>
    Datum.tagged form.word (shared :: Atom.number counter.toNat :: rest)
  | form, parts => Datum.tagged form.word (form.front ++ parts)

/-- Forms whose parts are shown by their keys. -/
def hidesOrder : Form → Bool
  | .priorityQueue | .hashSet | .hashMap => true
  | _ => false

end Form

namespace Value

mutual

/-- Draws a value in a store. `follow` draws what handles lead to. -/
def draw (store : Store) (follow : Sharing → Address → Drawing Datum) : Value → Drawing Datum
  | .atom content => pure content.datum
  | .static label content => do
    let (number, first) ← Drawing.meet (.static label)
    return Datum.tagged "static"
      (if first then [.number number, .number 0, .text content] else [.number number])
  | .handle sharing address => follow sharing address
  | .node form parts => do
    let drawings := drawAll store follow parts
    let ordered :=
      if form.hidesOrder then
        ((parts.map store.partKey).zip drawings).mergeSort (fun a b => a.1.le b.1) |>.map (·.2)
      else drawings
    return form.datum (← Drawing.sequence ordered)

def drawAll (store : Store) (follow : Sharing → Address → Drawing Datum) :
    List Value → List (Drawing Datum)
  | [] => []
  | value :: values => value.draw store follow :: drawAll store follow values

end

/-- Draws what a handle leads to, through at the most `depth` handles. A shared text is shown
bare. -/
def drawAddress (store : Store) : (depth : Nat) → Sharing → Address → Drawing Datum
  | 0, _, _ => pure .other
  | depth + 1, sharing, address => do
    let (number, first) ← Drawing.meet (.allocation address)
    if !first then return Datum.tagged sharing.word [.number number]
    let contents := (store.contents? address).getD []
    let data ← match sharing, contents with
      | .rcText, [.atom (.text content)] | .arcText, [.atom (.text content)] =>
        pure [Datum.text content]
      | _, contents => Drawing.sequence (drawAll store (drawAddress store depth) contents)
    return Datum.tagged sharing.word (.number number :: .number (store.count address) :: data)

end Value

end Replica
