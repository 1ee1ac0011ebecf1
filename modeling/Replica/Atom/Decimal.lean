/-!
Integers in decimal notation, and the ranges of the machine integers.
-/

namespace Replica

namespace Decimal

def digits? : List Char → Option Nat
  | [] => none
  | cs => cs.foldl (fun n c => if c.isDigit then n.map (10 * · + (c.toNat - '0'.toNat)) else none)
      (some 0)

/-- A number between `low` and `high`, at the most one sign in front of its digits. Where no
negative number is admitted, no minus is. -/
def read? (low high : Int) (text : String) : Option Int := do
  let value : Int ← match text.toList with
    | '+' :: cs => (digits? cs).map Int.ofNat
    | '-' :: cs => if low < 0 then (digits? cs).map fun n => -Int.ofNat n else none
    | cs => (digits? cs).map Int.ofNat
  if low ≤ value && value ≤ high then some value else none

def render (value : Int) : String :=
  if value < 0 then "-" ++ value.natAbs.repr else value.natAbs.repr

end Decimal

/-- The machine integers, by their width in bits. The size of an address is 64 bits. -/
inductive IntegerType where
  | u8 | u16 | u32 | u64 | u128 | usize
  | i8 | i16 | i32 | i64 | i128 | isize
deriving DecidableEq, Repr

namespace IntegerType

def all : List IntegerType :=
  [.u8, .u16, .u32, .u64, .u128, .usize, .i8, .i16, .i32, .i64, .i128, .isize]

def word : IntegerType → String
  | .u8 => "u8" | .u16 => "u16" | .u32 => "u32" | .u64 => "u64" | .u128 => "u128"
  | .usize => "usize"
  | .i8 => "i8" | .i16 => "i16" | .i32 => "i32" | .i64 => "i64" | .i128 => "i128"
  | .isize => "isize"

def ofWord? (word : String) : Option IntegerType :=
  all.find? (·.word = word)

def bits : IntegerType → Nat
  | .u8 | .i8 => 8
  | .u16 | .i16 => 16
  | .u32 | .i32 => 32
  | .u64 | .i64 | .usize | .isize => 64
  | .u128 | .i128 => 128

def signed : IntegerType → Bool
  | .i8 | .i16 | .i32 | .i64 | .i128 | .isize => true
  | _ => false

def low (type : IntegerType) : Int :=
  if type.signed then -Int.ofNat (Nat.pow 2 (type.bits - 1)) else 0

def high (type : IntegerType) : Int :=
  Int.ofNat (Nat.pow 2 (if type.signed then type.bits - 1 else type.bits)) - 1

def read? (type : IntegerType) (text : String) : Option Int :=
  Decimal.read? type.low type.high text

def readNat? (type : IntegerType) (text : String) : Option Nat :=
  (type.read? text).map Int.toNat

end IntegerType

end Replica
