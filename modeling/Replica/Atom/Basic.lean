import Replica.Atom.Calendar
import Replica.Atom.Datum
import Replica.Atom.Identifier
import Replica.Atom.Network

/-!
Atoms: values whose content is the whole of them. They hold nothing that can be shared or
changed, so that a copy of an atom is the atom itself.
-/

namespace Replica

inductive Mark where
  | unit
  | phantom
  | instant
  | utc
deriving DecidableEq, Repr

inductive FloatWidth where
  | single
  | double
deriving DecidableEq, Repr

/-- What a sequence of bytes is for. -/
inductive BytesRole where
  | path
  | systemText
  /-- The zero byte ends such a text and so is no part of it. -/
  | terminatedText
deriving DecidableEq, Repr

/-- What a number of seconds and nanoseconds measures. -/
inductive Interval where
  | duration
  /-- Since the beginning of 1970. -/
  | systemTime
deriving DecidableEq, Repr

/-- Which addresses a type admits. -/
inductive Family where
  | any
  | v4
  | v6
deriving DecidableEq, Repr

inductive Atom where
  | bare (mark : Mark)
  | flag (value : Bool)
  | char (value : Char)
  | integer (type : IntegerType) (value : Int)
  | nonZero (type : IntegerType) (value : Int)
  | wrappingByte (value : Int)
  /-- A floating point number by its bits, which no copy touches. -/
  | float (width : FloatWidth) (bits : Nat)
  | ordering (value : Ordering)
  | text (value : String)
  | boxedText (value : String)
  | bytes (role : BytesRole) (content : List UInt8)
  | interval (kind : Interval) (seconds nanoseconds : Nat)
  | ip (family : Family) (address : IpAddress)
  | socket (family : Family) (address : SocketAddress)
  | dateTime (seconds : Int) (nanoseconds : Nat)
  | offsetDateTime (seconds : Int) (nanoseconds : Nat) (offset : Int)
  | calendarDate (year : Int) (month day : Nat)
  | timeOfDay (seconds nanoseconds : Nat)
  | localDateTime (year : Int) (month day seconds nanoseconds : Nat)
  /-- A span of time in nanoseconds. -/
  | span (nanoseconds : Int)
  | zone (seconds : Int)
  | monthOfYear (number : Nat)
  | dayOfWeek (number : Nat)
  | uuid (value : Nat)
  | url (text : String)

namespace Mark

def word : Mark → String
  | .unit => "unit"
  | .phantom => "phantom"
  | .instant => "instant"
  | .utc => "utc"

def ofWord? (word : String) : Option Mark :=
  [Mark.unit, .phantom, .instant, .utc].find? (·.word = word)

end Mark

namespace FloatWidth

def digits : FloatWidth → Nat
  | .single => 8
  | .double => 16

def word : FloatWidth → String
  | .single => "f32"
  | .double => "f64"

end FloatWidth

namespace BytesRole

def word : BytesRole → String
  | .path => "path"
  | .systemText => "os_string"
  | .terminatedText => "c_string"

def admits (role : BytesRole) (content : List UInt8) : Bool :=
  role ≠ .terminatedText || !content.contains 0

end BytesRole

namespace Interval

def word : Interval → String
  | .duration => "duration"
  | .systemTime => "system_time"

/-- The seconds that each kind counts to. -/
def limit : Interval → Nat
  | .duration => Nat.pow 2 64
  | .systemTime => Nat.pow 2 63

end Interval

namespace Family

def addressWord : Family → String
  | .any => "ip"
  | .v4 => "ipv4"
  | .v6 => "ipv6"

def socketWord : Family → String
  | .any => "sock"
  | .v4 => "sockv4"
  | .v6 => "sockv6"

end Family

namespace Atom

open Datum

def u32? (text : String) : Option Nat := IntegerType.u32.readNat? text

def char? (text : String) : Option Char :=
  match text.toList with
  | [c] => some c
  | _ => none

def ordering? : Int → Option Ordering
  | -1 => some .lt
  | 0 => some .eq
  | 1 => some .gt
  | _ => none

def orderingNumber : Ordering → Int
  | .lt => -1
  | .eq => 0
  | .gt => 1

def bytes? (role : BytesRole) (text : String) : Option Atom := do
  let content ← Hexadecimal.bytes? text.toList
  if role.admits content then some (.bytes role content) else none

/-- Seconds and nanoseconds. Nanoseconds beyond a billion count as seconds. -/
def elapsed? (seconds nanoseconds : String) : Option (Nat × Nat) := do
  let nanoseconds ← u32? nanoseconds
  let seconds ← IntegerType.u64.readNat? seconds
  return (seconds + nanoseconds / 1000000000, nanoseconds % 1000000000)

def interval? (kind : Interval) (seconds nanoseconds : String) : Option Atom := do
  let (seconds, nanoseconds) ← elapsed? seconds nanoseconds
  if seconds < kind.limit then some (.interval kind seconds nanoseconds) else none

/-- What follows the word stands for more seconds than an interval of any kind counts to. -/
def overflows (word : String) (items : List Datum) : Bool :=
  match items with
  | [.text seconds, .text nanoseconds] =>
    [Interval.duration, .systemTime].any (·.word = word) &&
      (elapsed? seconds nanoseconds).any fun (seconds, _) => Interval.duration.limit ≤ seconds
  | _ => false

def integerOfWord? (word : String) (value : String) : Option Atom := do
  let type ← IntegerType.ofWord? word
  return .integer type (← type.read? value)

def nonZeroOfWord? (word : String) (value : String) : Option Atom := do
  if !word.startsWith "nz_" then none
  let type ← IntegerType.ofWord? (word.drop 3).toString
  let value ← type.read? value
  if value = 0 then none else some (.nonZero type value)

def date? (year month day : String) : Option (Int × Nat × Nat) := do
  let year ← IntegerType.i32.read? year
  let month ← u32? month
  let day ← u32? day
  if Calendar.isDate year month day then some (year, month, day) else none

def time? (seconds nanoseconds : String) : Option (Nat × Nat) := do
  let seconds ← u32? seconds
  let nanoseconds ← u32? nanoseconds
  if Calendar.isTime seconds nanoseconds then some (seconds, nanoseconds) else none

def moment? (seconds : Int) (nanoseconds : String) : Option (Int × Nat) := do
  let nanoseconds ← u32? nanoseconds
  if Calendar.isMoment seconds nanoseconds then some (seconds, nanoseconds) else none

def offset? (seconds : String) : Option Int := do
  let seconds ← IntegerType.i32.read? seconds
  if Calendar.isOffset seconds then some seconds else none

/-- A span reads as whole seconds and what has to be added to them. -/
def span? (seconds : Int) (nanoseconds : String) : Option Atom := do
  let nanoseconds ← u32? nanoseconds
  let total := seconds * 1000000000 + nanoseconds
  if nanoseconds < 1000000000 && Calendar.isSpan total then some (.span total) else none

def numbered? (low high : Int) (value : Int) : Option Nat :=
  if low ≤ value && value ≤ high then some value.toNat else none

/-- The atom that a word and what follows it stand for. -/
def read? (word : String) (items : List Datum) : Option Atom :=
  match word, items with
  | "bool", [.text "true"] => some (.flag true)
  | "bool", [.text "false"] => some (.flag false)
  | "char", [.text value] => (char? value).map .char
  | "wrapping_u8", [.text value] => (IntegerType.u8.read? value).map .wrappingByte
  | "f32", [.text value] => (Hexadecimal.number? 8 value).map (.float .single)
  | "f64", [.text value] => (Hexadecimal.number? 16 value).map (.float .double)
  | "ordering", [.number value] => (ordering? value).map .ordering
  | "str", [.text value] => some (.text value)
  | "box_str", [.text value] => some (.boxedText value)
  | "path", [.text value] => bytes? .path value
  | "os_string", [.text value] => bytes? .systemText value
  | "c_string", [.text value] => bytes? .terminatedText value
  | "duration", [.text seconds, .text nanoseconds] => interval? .duration seconds nanoseconds
  | "system_time", [.text seconds, .text nanoseconds] => interval? .systemTime seconds nanoseconds
  | "ip", [.text value] => (IpAddress.read? value).map (.ip .any)
  | "ipv4", [.text value] => (Ipv4.read? value).map (.ip .v4 ∘ .v4)
  | "ipv6", [.text value] => (Ipv6.read? value).map (.ip .v6 ∘ .v6)
  | "sock", [.text value] => (SocketAddress.read? value).map (.socket .any)
  | "sockv4", [.text value] => (SocketAddress.readV4? value).map (.socket .v4)
  | "sockv6", [.text address, .text service, .text flow, .text scope] => do
    let address ← Ipv6.read? address
    let service ← IntegerType.u16.readNat? service
    return .socket .v6 (.v6 address service (← u32? flow) (← u32? scope))
  | "date_time", [.number seconds, .text nanoseconds] => do
    let (seconds, nanoseconds) ← moment? seconds nanoseconds
    return .dateTime seconds nanoseconds
  | "date_time_offset", [.number seconds, .text nanoseconds, .text east] => do
    let (seconds, nanoseconds) ← moment? seconds nanoseconds
    return .offsetDateTime seconds nanoseconds (← offset? east)
  | "naive_date", [.text year, .text month, .text day] => do
    let (year, month, day) ← date? year month day
    return .calendarDate year month day
  | "naive_time", [.text seconds, .text nanoseconds] => do
    let (seconds, nanoseconds) ← time? seconds nanoseconds
    return .timeOfDay seconds nanoseconds
  | "naive_date_time", [.text year, .text month, .text day, .text seconds, .text nanoseconds] => do
    let (year, month, day) ← date? year month day
    let (seconds, nanoseconds) ← time? seconds nanoseconds
    return .localDateTime year month day seconds nanoseconds
  | "time_delta", [.number seconds, .text nanoseconds] => span? seconds nanoseconds
  | "fixed_offset", [.text seconds] => (offset? seconds).map .zone
  | "month", [.number value] => (numbered? 1 12 value).map .monthOfYear
  | "weekday", [.number value] => (numbered? 0 6 value).map .dayOfWeek
  | "uuid", [.text value] => (Uuid.read? value).map .uuid
  | "url", [.text value] => if Url.isAbsolute value then some (.url value) else none
  | word, [] => (Mark.ofWord? word).map .bare
  | word, [.text value] => integerOfWord? word value <|> nonZeroOfWord? word value
  | _, _ => none

def number (value : Int) : Datum := .text (Decimal.render value)

/-- How an atom is shown: its word, and its content. The two parts of a span of time have the
same sign. -/
def datum : Atom → Datum
  | .bare mark => tagged mark.word []
  | .flag value => tagged "bool" [.text (if value then "true" else "false")]
  | .char value => tagged "char" [.text value.toString]
  | .integer type value => tagged type.word [number value]
  | .nonZero type value => tagged ("nz_" ++ type.word) [number value]
  | .wrappingByte value => tagged "wrapping_u8" [number value]
  | .float width bits =>
    tagged width.word [.text (String.ofList (Hexadecimal.padded width.digits bits))]
  | .ordering value => tagged "ordering" [.number (orderingNumber value)]
  | .text value => tagged "str" [.text value]
  | .boxedText value => tagged "box_str" [.text value]
  | .bytes role content => tagged role.word [.text (Hexadecimal.renderBytes content)]
  | .interval kind seconds nanoseconds => tagged kind.word [number seconds, number nanoseconds]
  | .ip family address => tagged family.addressWord [.text address.render]
  | .socket .v6 (.v6 address service flow scope) =>
    tagged Family.v6.socketWord [.text address.render, number service, number flow, number scope]
  | .socket family address => tagged family.socketWord [.text address.render]
  | .dateTime seconds nanoseconds => tagged "date_time" [.number seconds, number nanoseconds]
  | .offsetDateTime seconds nanoseconds east =>
    tagged "date_time_offset" [.number seconds, number nanoseconds, number east]
  | .calendarDate year month day => tagged "naive_date" [number year, number month, number day]
  | .timeOfDay seconds nanoseconds => tagged "naive_time" [number seconds, number nanoseconds]
  | .localDateTime year month day seconds nanoseconds =>
    tagged "naive_date_time"
      [number year, number month, number day, number seconds, number nanoseconds]
  | .span nanoseconds =>
    tagged "time_delta"
      [.number (nanoseconds.tdiv 1000000000), number (nanoseconds.tmod 1000000000)]
  | .zone seconds => tagged "fixed_offset" [number seconds]
  | .monthOfYear value => tagged "month" [.number value]
  | .dayOfWeek value => tagged "weekday" [.number value]
  | .uuid value => tagged "uuid" [.text (Uuid.render value)]
  | .url location => tagged "url" [.text location]

end Atom

end Replica
