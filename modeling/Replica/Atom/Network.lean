import Replica.Atom.Decimal
import Replica.Atom.Hexadecimal

/-!
Addresses of the network: how they are read, and the one way in which each is written.
-/

namespace Replica

structure Ipv4 where
  octets : UInt8 × UInt8 × UInt8 × UInt8
deriving DecidableEq

structure Ipv6 where
  groups : List UInt16
deriving DecidableEq

inductive IpAddress where
  | v4 (address : Ipv4)
  | v6 (address : Ipv6)
deriving DecidableEq

/-- An address with the number of a service there, and for the longer addresses a flow and a
scope. -/
inductive SocketAddress where
  | v4 (address : Ipv4) (service : Nat)
  | v6 (address : Ipv6) (service flow scope : Nat)
deriving DecidableEq

/-- A reader answers what it has read and what is left of the text. -/
abbrev AddressReader (α : Type) := List Char → Option (α × List Char)

namespace AddressReader

def char (c : Char) : AddressReader Unit
  | [] => none
  | d :: cs => if c = d then some ((), cs) else none

/-- All digits that stand at the front, as a number below `limit`. -/
def number (base limit : Nat) : AddressReader (Nat × Nat) := fun cs =>
  let value? (c : Char) := (Quoted.hexValue? c).filter (· < base)
  let digits := cs.takeWhile fun c => (value? c).isSome
  let value := (digits.filterMap value?).foldl (base * · + ·) 0
  if digits.isEmpty || limit ≤ value then none
  else some ((value, digits.length), cs.dropWhile fun c => (value? c).isSome)

/-- A number between 0 and 255 that no zero precedes. -/
def octet : AddressReader UInt8 := fun cs => do
  let ((value, length), rest) ← number 10 256 cs
  if 3 < length || (cs.head? = some '0' && 1 < length) then none
  else some (UInt8.ofNat value, rest)

def group : AddressReader UInt16 := fun cs => do
  let ((value, length), rest) ← number 16 65536 cs
  if 4 < length then none else some (UInt16.ofNat value, rest)

def ipv4 : AddressReader Ipv4 := fun cs => do
  let (a, cs) ← octet cs
  let ((), cs) ← char '.' cs
  let (b, cs) ← octet cs
  let ((), cs) ← char '.' cs
  let (c, cs) ← octet cs
  let ((), cs) ← char '.' cs
  let (d, cs) ← octet cs
  some (⟨a, b, c, d⟩, cs)

/-- The groups of an address: at the most `room` of them, with colons in between. The last two
may be spelled as the shorter kind of address; the answer says whether they are. -/
def groups : (room : Nat) → (first : Bool) → List Char → (List UInt16 × Bool) × List Char
  | 0, _, cs => (([], false), cs)
  | room + 1, first, cs =>
    let here := if first then some cs else (char ':' cs).map (·.2)
    match here.bind fun cs => if room = 0 then none else ipv4 cs with
    | some (⟨a, b, c, d⟩, rest) =>
      (([a.toUInt16 * 256 + b.toUInt16, c.toUInt16 * 256 + d.toUInt16], true), rest)
    | none =>
      match here.bind group with
      | none => (([], false), cs)
      | some (value, rest) =>
        let ((values, short), rest) := groups room false rest
        ((value :: values, short), rest)

/-- Two colons stand for at least one group of zero. -/
def ipv6 : AddressReader Ipv6 := fun cs => do
  let ((head, short), cs) := groups 8 true cs
  if head.length = 8 then some (⟨head⟩, cs)
  else if short then none
  else do
    let ((), cs) ← char ':' cs
    let ((), cs) ← char ':' cs
    let ((tail, _), cs) := groups (7 - head.length) true cs
    some (⟨head ++ List.replicate (8 - head.length - tail.length) 0 ++ tail⟩, cs)

def service : AddressReader Nat := fun cs => do
  let ((), cs) ← char ':' cs
  let ((value, _), cs) ← number 10 65536 cs
  some (value, cs)

def socketV4 : AddressReader SocketAddress := fun cs => do
  let (address, cs) ← ipv4 cs
  let (service, cs) ← service cs
  some (.v4 address service, cs)

def scope : AddressReader Nat := fun cs =>
  match char '%' cs with
  | none => some (0, cs)
  | some ((), cs) => (number 10 (Nat.pow 2 32) cs).map fun ((value, _), cs) => (value, cs)

def socketV6 : AddressReader SocketAddress := fun cs => do
  let ((), cs) ← char '[' cs
  let (address, cs) ← ipv6 cs
  let (scope, cs) ← scope cs
  let ((), cs) ← char ']' cs
  let (service, cs) ← service cs
  some (.v6 address service 0 scope, cs)

def whole {α : Type} (reader : AddressReader α) (text : String) : Option α :=
  match reader text.toList with
  | some (value, []) => some value
  | _ => none

end AddressReader

namespace Ipv4

def read? (text : String) : Option Ipv4 := AddressReader.ipv4.whole text

def render (address : Ipv4) : String :=
  let (a, b, c, d) := address.octets
  ".".intercalate ([a, b, c, d].map fun octet => octet.toNat.repr)

end Ipv4

namespace Ipv6

def read? (text : String) : Option Ipv6 := AddressReader.ipv6.whole text

def zeros (groups : List UInt16) : Nat :=
  (groups.takeWhile (· = 0)).length

/-- Where the first of the longest runs of zeros begins, and how long it is. -/
def longestRun : (start : Nat) → List UInt16 → Nat × Nat
  | _, [] => (0, 0)
  | start, group :: groups =>
    let later := longestRun (start + 1) groups
    let here := zeros (group :: groups)
    if later.2 ≤ here then (start, here) else later

def renderGroups (groups : List UInt16) : String :=
  ":".intercalate (groups.map fun group => String.ofList (Nat.toDigits 16 group.toNat))

/-- Two colons replace the first longest run of at least two zeros. An address that holds a
shorter one shows it. -/
def render (address : Ipv6) : String :=
  match address.groups with
  | [0, 0, 0, 0, 0, 0xFFFF, high, low] =>
    "::ffff:" ++ Ipv4.render ⟨(high / 256).toUInt8, high.toUInt8, (low / 256).toUInt8, low.toUInt8⟩
  | groups =>
    let (start, length) := longestRun 0 groups
    if length ≤ 1 then renderGroups groups
    else renderGroups (groups.take start) ++ "::" ++ renderGroups (groups.drop (start + length))

end Ipv6

namespace IpAddress

def read? (text : String) : Option IpAddress :=
  (Ipv4.read? text).map .v4 <|> (Ipv6.read? text).map .v6

def render : IpAddress → String
  | .v4 address => address.render
  | .v6 address => address.render

end IpAddress

namespace SocketAddress

def readV4? (text : String) : Option SocketAddress :=
  AddressReader.socketV4.whole text

def read? (text : String) : Option SocketAddress :=
  readV4? text <|> AddressReader.socketV6.whole text

/-- A scope is shown unless it is zero, and a flow never. -/
def render : SocketAddress → String
  | .v4 address service => address.render ++ ":" ++ service.repr
  | .v6 address service _ scope =>
    let zone := if scope = 0 then "" else "%" ++ scope.repr
    "[" ++ address.render ++ zone ++ "]:" ++ service.repr

end SocketAddress

end Replica
