import Replica.Text.Quoted

/-!
Numbers and bytes in hexadecimal notation.
-/

namespace Replica

namespace Hexadecimal

open Quoted (hexValue?)

def digit (value : Nat) : Char :=
  Nat.digitChar (value % 16)

/-- The `count` lowest digits of a number, the highest first. -/
def padded : (count value : Nat) → List Char
  | 0, _ => []
  | count + 1, value => padded count (value / 16) ++ [digit value]

def digits? (cs : List Char) : Option Nat :=
  cs.foldl (fun n c => do return 16 * (← n) + (← hexValue? c)) (some 0)

/-- A number of at the most `count` significant digits. A plus may stand in front. -/
def number? (count : Nat) (text : String) : Option Nat := do
  let cs := match text.toList with
    | '+' :: cs => cs
    | cs => cs
  if cs.isEmpty then none
  let value ← digits? cs
  if value < Nat.pow 16 count then some value else none

def bytes? : List Char → Option (List UInt8)
  | [] => some []
  | high :: low :: cs => do
    let value := 16 * (← hexValue? high) + (← hexValue? low)
    return UInt8.ofNat value :: (← bytes? cs)
  | [_] => none

def renderBytes (bytes : List UInt8) : String :=
  String.ofList (bytes.flatMap fun byte => padded 2 byte.toNat)

end Hexadecimal

end Replica
