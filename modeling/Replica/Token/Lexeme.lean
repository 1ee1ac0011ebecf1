import Replica.Text.NameAlphabet
import Replica.Text.Quoted
import Replica.Token.Basic

/-!
The pieces that a source text falls into: blanks, comments, delimiters and the
smallest tokens. A recogniser looks at the beginning of a text and says how many
characters belong to its piece.
-/

namespace Replica

namespace Lexeme

def opens (front : String) (cs : List Char) : Bool :=
  front.toList.isPrefixOf cs

/-- Blanks of the standard property White_Space, and the two directional marks. -/
def isBlank (c : Char) : Bool :=
  let code := c.toNat
  (9 ≤ code && code ≤ 13) || code = 32 || code = 0x85 || code = 0xA0 || code = 0x1680 ||
    (0x2000 ≤ code && code ≤ 0x200A) || code = 0x200E || code = 0x200F || code = 0x2028 ||
    code = 0x2029 || code = 0x202F || code = 0x205F || code = 0x3000

def nameLength : List Char → Option Nat
  | [] => none
  | c :: cs => if beginsName c then some (1 + (cs.takeWhile continuesName).length) else none

/-- A raw word is written behind `r#`. The path words are never raw. -/
def wordLength (cs : List Char) : Option Nat :=
  if opens "r#" cs then do
    let rest := cs.drop 2
    let length ← nameLength rest
    let name := String.ofList (rest.take length)
    if ["_", "super", "self", "Self", "crate"].contains name then none else some (2 + length)
  else nameLength cs

def quotedFronts : List String :=
  ["r\"", "r#\"", "r##", "b\"", "b'", "br\"", "br#", "c\"", "cr\"", "cr#"]

def plainWordLength (cs : List Char) : Option Nat :=
  if quotedFronts.any (opens · cs) then none else wordLength cs

def suffixLength (cs : List Char) : Nat :=
  (nameLength cs).getD 0

def quotedLength (style : Quoted.Style) (cs : List Char) : Option Nat := do
  let (_, length) ← Quoted.scan style .plain cs
  some (length + suffixLength (cs.drop length))

/-- A raw text up to its end: a quote and as many hashes as stood in front of it.
A carriage return has to be followed by a line feed. -/
def rawLength (admits : Char → Bool) (hashes : Nat) : List Char → Option Nat
  | [] => none
  | c :: cs =>
    if c = '"' && (List.replicate hashes '#').isPrefixOf cs then some (1 + hashes)
    else if c = '\r' && cs.head? ≠ some '\n' then none
    else if admits c then (rawLength admits hashes cs).map (· + 1)
    else none

/-- A raw text behind the letters that announce it. -/
def hashedLength (admits : Char → Bool) (cs : List Char) : Option Nat := do
  let hashes := (cs.takeWhile (· = '#')).length
  if hashes ≤ 255 && (cs.drop hashes).head? = some '"' then
    let length ← rawLength admits hashes (cs.drop (hashes + 1))
    let total := hashes + 1 + length
    some (total + suffixLength (cs.drop total))
  else none

def characterLength (style : Quoted.Style) (cs : List Char) : Option Nat := do
  let length ← match cs with
    | [] => none
    | '\\' :: rest => (Quoted.escapeLength style .escaped rest).map (· + 1)
    | c :: _ => if style.ascii && 128 ≤ c.toNat then none else some 1
  if (cs.drop length).head? = some '\'' then
    some (length + 1 + suffixLength (cs.drop (length + 1)))
  else none

/-- What a number shows before its exponent: whether it has a point, and whether the
letter of an exponent ends it. -/
structure Mantissa where
  length : Nat
  point : Bool
  exponent : Bool

/-- A second point ends the number, and a point in front of a name or another point is
no part of any number. -/
def mantissa (point : Bool) : List Char → Option Mantissa
  | [] => some ⟨0, point, false⟩
  | c :: cs =>
    let longer (m : Mantissa) : Mantissa := ⟨m.length + 1, m.point, m.exponent⟩
    if c.isDigit || c = '_' then (mantissa point cs).map longer
    else if c = '.' then
      if point then some ⟨0, point, false⟩
      else if cs.head?.any fun d => d = '.' || beginsName d then none
      else (mantissa true cs).map longer
    else if c = 'e' || c = 'E' then some ⟨1, point, true⟩
    else some ⟨0, point, false⟩

/-- An exponent behind its letter: at most one sign, and at least one digit. -/
def exponentLength (sign digit : Bool) : List Char → Option Nat
  | [] => if digit then some 0 else none
  | c :: cs =>
    if c = '+' || c = '-' then
      if digit then some 0
      else if sign then none
      else (exponentLength true digit cs).map (· + 1)
    else if c.isDigit then (exponentLength sign true cs).map (· + 1)
    else if c = '_' then (exponentLength sign digit cs).map (· + 1)
    else if digit then some 0
    else none

/-- A number with a point or an exponent. A letter that begins no exponent belongs to the
suffix when a point came before it. -/
def decimalLength (cs : List Char) : Option Nat := do
  if !cs.head?.any Char.isDigit then none
  let m ← mantissa false cs
  if m.exponent then
    match exponentLength false false (cs.drop m.length) with
    | some length => some (m.length + length)
    | none => if m.point then some (m.length - 1) else none
  else if m.point then some m.length
  else none

def digitsLength (base : Nat) (empty : Bool) : List Char → Option Nat
  | [] => if empty then none else some 0
  | c :: cs =>
    if c.isDigit then
      if base ≤ c.toNat - '0'.toNat then none else (digitsLength base false cs).map (· + 1)
    else if c = '_' then
      if empty && base = 10 then none else (digitsLength base empty cs).map (· + 1)
    else if (Quoted.hexValue? c).any (· < base) then (digitsLength base false cs).map (· + 1)
    else if empty then none
    else some 0

def integerLength (cs : List Char) : Option Nat :=
  let based (base : Nat) := (digitsLength base true (cs.drop 2)).map (· + 2)
  if opens "0x" cs then based 16
  else if opens "0o" cs then based 8
  else if opens "0b" cs then based 2
  else digitsLength 10 true cs

/-- A number with its suffix. No further character of a name may follow. -/
def numberLength (digits : Nat) (cs : List Char) : Option Nat :=
  let length := digits + suffixLength (cs.drop digits)
  if (cs.drop length).head?.any continuesName then none else some length

/-- The text that stands for a faulty literal. -/
def faulty : String := "(/*ERROR*/)"

def behind (front : String) (recognise : List Char → Option Nat) (cs : List Char) : Option Nat :=
  if opens front cs then (recognise (cs.drop front.length)).map (· + front.length) else none

def literalLength (cs : List Char) : Option Nat :=
  behind "\"" (quotedLength .text) cs
  <|> behind "r" (hashedLength fun _ => true) cs
  <|> behind "b\"" (quotedLength .bytes) cs
  <|> behind "br" (hashedLength fun c => c.toNat < 128) cs
  <|> behind "c\"" (quotedLength .terminated) cs
  <|> behind "cr" (hashedLength (· ≠ '\x00')) cs
  <|> behind "b'" (characterLength .bytes) cs
  <|> behind "'" (characterLength .text) cs
  <|> ((decimalLength cs).bind (numberLength · cs))
  <|> ((integerLength cs).bind (numberLength · cs))

/-- The punctuation character at the front, which is not the slash of a comment. -/
def mark? (cs : List Char) : Option Char :=
  if opens "//" cs || opens "/*" cs then none
  else cs.head?.filter fun c => "~!@#$%^&*-=+|;:,<.>/?'".contains c

/-- The quote of a lifetime stands in front of a word that no other quote or hash ends. -/
def lifetimeOpens (cs : List Char) : Bool :=
  match wordLength cs with
  | none => false
  | some length =>
    match (cs.drop length).head? with
    | some '\'' => false
    | some '#' => opens "r#" cs
    | _ => true

def line (cs : List Char) : List Char :=
  cs.takeWhile (· ≠ '\n')

/-- What a line comment says: a carriage return in front of the line feed is left out. -/
def lineContent (cs : List Char) : List Char :=
  let content := line cs
  if content.length < cs.length && content.getLast? = some '\r' then content.dropLast else content

/-- A block comment with the comments nested in it, `depth` of which are open. -/
def blockLength : (depth : Nat) → List Char → Option Nat
  | depth, '/' :: '*' :: cs => (blockLength (depth + 1) cs).map (· + 2)
  | depth, '*' :: '/' :: cs =>
    if depth = 1 then some 2 else (blockLength (depth - 1) cs).map (· + 2)
  | depth, _ :: cs => (blockLength depth cs).map (· + 1)
  | _, [] => none

def hasBareReturn : List Char → Bool
  | [] => false
  | c :: cs => (c = '\r' && cs.head? ≠ some '\n') || hasBareReturn cs

end Lexeme

/-- A piece of a text. Lengths count characters. -/
inductive Lexeme where
  | blank (length : Nat)
  | remark (inner : Bool) (content : List Char) (length : Nat)
  | opening (delimiter : Delimiter)
  | closing (delimiter : Delimiter)
  | literal (length : Nat)
  | mark (char : Char) (joint : Bool)
  | word (length : Nat)

namespace Lexeme

def length : Lexeme → Nat
  | .blank length => length
  | .remark _ _ length => length
  | .opening _ => 1
  | .closing _ => 1
  | .literal length => length
  | .mark _ _ => 1
  | .word length => length

def blank? (cs : List Char) : Option Lexeme :=
  if cs.head?.any isBlank then some (.blank 1)
  else if opens "//" cs then
    if (opens "///" cs && !opens "////" cs) || opens "//!" cs then none
    else some (.blank (line cs).length)
  else if opens "/**/" cs then some (.blank 4)
  else if opens "/*" cs then
    if (opens "/**" cs && !opens "/***" cs) || opens "/*!" cs then none
    else (blockLength 0 cs).map .blank
  else none

/-- Comments that document what follows them, or what they stand in. -/
def remark? (cs : List Char) : Option Lexeme := do
  let inner := opens "//!" cs || opens "/*!" cs
  let (content, length) ←
    if opens "//!" cs || (opens "///" cs && !opens "////" cs) then
      some (lineContent (cs.drop 3), (line cs).length)
    else if opens "/*!" cs || (opens "/**" cs && !opens "/***" cs) then do
      let length ← blockLength 0 cs
      some ((cs.take (length - 2)).drop 3, length)
    else none
  if hasBareReturn content then none else some (.remark inner content length)

def delimiter? : List Char → Option Lexeme
  | '(' :: _ => some (.opening .parenthesis)
  | '[' :: _ => some (.opening .bracket)
  | '\x7b' :: _ => some (.opening .brace)
  | ')' :: _ => some (.closing .parenthesis)
  | ']' :: _ => some (.closing .bracket)
  | '\x7d' :: _ => some (.closing .brace)
  | _ => none

def punctuation? (cs : List Char) : Option Lexeme := do
  let c ← mark? cs
  if c = '\'' then
    if lifetimeOpens cs.tail then some (.mark c true) else none
  else some (.mark c (mark? cs.tail).isSome)

def read? (cs : List Char) : Option Lexeme :=
  if opens faulty cs then some (.literal faulty.length)
  else
    blank? cs
    <|> remark? cs
    <|> delimiter? cs
    <|> (literalLength cs).map .literal
    <|> punctuation? cs
    <|> (plainWordLength cs).map .word

end Lexeme

end Replica
