import Replica.Atom.Hexadecimal

/-!
Identifiers of 128 bits, and which texts locate a resource.
-/

namespace Replica

namespace Uuid

/-- The lengths of the groups of digits that hyphens separate. -/
def groups : List Nat := [8, 4, 4, 4, 12]

/-- The digits of a text that is hyphenated after each of its groups. -/
def hyphenated? : (groups : List Nat) → List Char → Option (List Char)
  | [], [] => some []
  | [], _ => none
  | [length], cs => if cs.length = length then some cs else none
  | length :: groups, cs =>
    match cs.drop length with
    | '-' :: rest => (hyphenated? groups rest).map (cs.take length ++ ·)
    | _ => none

/-- The digits of an identifier, which may stand in braces, behind the name of its kind, or
without hyphens. -/
def digits? (cs : List Char) : Option (List Char) :=
  match cs.length, cs with
  | 45, cs => if "urn:uuid:".toList.isPrefixOf cs then hyphenated? groups (cs.drop 9) else none
  | 38, '\x7b' :: rest =>
    if rest.getLast? = some '\x7d' then hyphenated? groups rest.dropLast else none
  | 36, cs => hyphenated? groups cs
  | 32, cs => some cs
  | _, _ => none

def read? (text : String) : Option Nat :=
  (digits? text.toList).bind Hexadecimal.digits?

def hyphenate : (groups : List Nat) → List Char → List Char
  | [], cs => cs
  | [_], cs => cs
  | length :: groups, cs => cs.take length ++ '-' :: hyphenate groups (cs.drop length)

def render (value : Nat) : String :=
  String.ofList (hyphenate groups (Hexadecimal.padded 32 value))

end Uuid

namespace Url

/-- Schemes whose locations name a host. -/
def hostSchemes : List String := ["http", "https", "ws", "wss", "ftp"]

def isSchemeCharacter (c : Char) : Bool :=
  c.isAlphanum || c = '+' || c = '-' || c = '.'

/-- A host, and behind a colon a number below 65536. -/
def isHostWithService (cs : List Char) : Bool :=
  let (host, rest) :=
    if cs.head? = some '[' then
      let inside := cs.takeWhile (· ≠ ']')
      (inside, cs.drop (inside.length + 1))
    else (cs.takeWhile (· ≠ ':'), cs.dropWhile (· ≠ ':'))
  let service := rest.drop 1
  !host.isEmpty && (rest.isEmpty || rest.head? = some ':') && service.all Char.isDigit &&
    service.foldl (fun n c => 10 * n + (c.toNat - '0'.toNat)) 0 < 65536

/-- What stands behind the last `@` of an authority. -/
def withoutUser (cs : List Char) : List Char :=
  (cs.reverse.takeWhile (· ≠ '@')).reverse

/-- A location has a scheme, and a host where its scheme asks for one. -/
def isAbsolute (text : String) : Bool :=
  let cs := text.toList
  let scheme := cs.takeWhile isSchemeCharacter
  let rest := cs.drop scheme.length
  if !(scheme.head?.any Char.isAlpha && rest.head? = some ':') then false
  else if hostSchemes.contains (String.ofList scheme) then
    let authority := (rest.drop 3).takeWhile fun c => !"/?#".contains c
    "://".toList.isPrefixOf rest && isHostWithService (withoutUser authority)
  else true

end Url

end Replica
