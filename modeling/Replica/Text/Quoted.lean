import Replica.Text.PrintableAlphabet

/-!
Quoted text: how generated text is written between double quotes, and an
automaton that reads what stands between quotes, escapes included.
-/

namespace Replica

namespace Quoted

def hexadecimal (n : Nat) : String :=
  String.ofList (Nat.toDigits 16 n)

/-- The written form of `c` in front of `next`. A null before an octal digit is spelled
in hexadecimal, so that the two are not read as one escape. -/
def escape (c : Char) (next : Option Char) : String :=
  match c with
  | '\x00' => if next.any fun d => '0' ≤ d && d ≤ '7' then "\\x00" else "\\0"
  | '\t' => "\\t"
  | '\r' => "\\r"
  | '\n' => "\\n"
  | '"' => "\\\""
  | '\\' => "\\\\"
  | c => if isPrintable c then c.toString else "\\u\x7b" ++ hexadecimal c.toNat ++ "\x7d"

def escapeAll : List Char → String
  | [] => ""
  | c :: cs => escape c cs.head? ++ escapeAll cs

def encode (text : String) : String :=
  "\"" ++ escapeAll text.toList ++ "\""

structure Style where
  /-- Only ASCII characters stand for themselves. -/
  ascii : Bool
  /-- Code points may be written in braces. -/
  codePoints : Bool
  /-- The null character is admitted. -/
  null : Bool
  /-- Hexadecimal escapes reach beyond ASCII. -/
  highBytes : Bool
deriving DecidableEq

namespace Style

def text : Style := ⟨false, true, true, false⟩
def bytes : Style := ⟨true, false, true, true⟩
def terminated : Style := ⟨false, true, false, true⟩

end Style

/-- Where a reader stands between two quotes. -/
inductive Mode where
  | plain
  | carriage
  | escaped
  | hexHigh
  | hexLow (high : Nat)
  | codeOpening
  | codeDigits (count value : Nat)
  | blank
  | blankCarriage
deriving DecidableEq

inductive Step where
  | reject
  | close
  | advance (mode : Mode) (content : Option Char)

def hexValue? (c : Char) : Option Nat :=
  if '0' ≤ c && c ≤ '9' then some (c.toNat - '0'.toNat)
  else if 'a' ≤ c && c ≤ 'f' then some (c.toNat - 'a'.toNat + 10)
  else if 'A' ≤ c && c ≤ 'F' then some (c.toNat - 'A'.toNat + 10)
  else none

def codePoint? (value : Nat) : Option Char :=
  if value.isValidChar then some (Char.ofNat value) else none

/-- A produced character ends its escape, unless it is a null that `style` refuses. -/
def produce (style : Style) (c : Char) : Step :=
  if c = '\x00' && !style.null then .reject else .advance .plain (some c)

def plainStep (style : Style) (c : Char) : Step :=
  match c with
  | '"' => .close
  | '\\' => .advance .escaped none
  | '\r' => .advance .carriage none
  | c => if style.ascii && 128 ≤ c.toNat then .reject else produce style c

def escapedStep (style : Style) (c : Char) : Step :=
  match c with
  | 'x' => .advance .hexHigh none
  | 'n' => produce style '\n'
  | 'r' => produce style '\r'
  | 't' => produce style '\t'
  | '\\' => produce style '\\'
  | '0' => produce style '\x00'
  | '\'' => produce style '\''
  | '"' => produce style '"'
  | 'u' => if style.codePoints then .advance .codeOpening none else .reject
  | '\n' => .advance .blank none
  | '\r' => .advance .blankCarriage none
  | _ => .reject

/-- One character of the text between quotes. A backslash before a line end drops the
blanks that follow. -/
def step (style : Style) : Mode → Char → Step
  | .plain, c => plainStep style c
  | .carriage, c => if c = '\n' then .advance .plain (some '\n') else .reject
  | .escaped, c => escapedStep style c
  | .hexHigh, c =>
    match hexValue? c with
    | some high => if high < 8 || style.highBytes then .advance (.hexLow high) none else .reject
    | none => .reject
  | .hexLow high, c =>
    match hexValue? c with
    | some low => produce style (Char.ofNat (high * 16 + low))
    | none => .reject
  | .codeOpening, c => if c = '\x7b' then .advance (.codeDigits 0 0) none else .reject
  | .codeDigits count value, c =>
    match hexValue? c with
    | some digit =>
      if count < 6 then .advance (.codeDigits (count + 1) (value * 16 + digit)) none else .reject
    | none =>
      if count = 0 then .reject
      else if c = '_' then .advance (.codeDigits count value) none
      else if c = '\x7d' then
        match codePoint? value with
        | some c => produce style c
        | none => .reject
      else .reject
  | .blank, c =>
    if c = ' ' || c = '\t' || c = '\n' then .advance .blank none
    else if c = '\r' then .advance .blankCarriage none
    else plainStep style c
  | .blankCarriage, c => if c = '\n' then .advance .blank none else .reject

/-- The text up to the closing quote and the number of characters read with it. -/
def scan (style : Style) : Mode → List Char → Option (List Char × Nat)
  | _, [] => none
  | mode, c :: cs =>
    match step style mode c with
    | .reject => none
    | .close => some ([], 1)
    | .advance mode content =>
      (scan style mode cs).map fun (rest, count) => (content.toList ++ rest, count + 1)

/-- The number of characters of one escape, its backslash excluded. -/
def escapeLength (style : Style) : Mode → List Char → Option Nat
  | _, [] => none
  | mode, c :: cs =>
    match step style mode c with
    | .advance _ (some _) => some 1
    | .advance .blank none => none
    | .advance .blankCarriage none => none
    | .advance mode none => (escapeLength style mode cs).map (· + 1)
    | _ => none

/-- The text behind the hashes and the quote of a raw literal, up to the quote that is
followed by as many hashes. -/
def rawContent (hashes : Nat) : List Char → List Char
  | [] => []
  | c :: cs =>
    if c = '"' && (cs.take hashes).length = hashes && (cs.take hashes).all (· = '#') then []
    else c :: rawContent hashes cs

def decode? (literal : String) : Option String :=
  match literal.toList with
  | '"' :: cs => (scan .text .plain cs).map fun (content, _) => String.ofList content
  | 'r' :: cs =>
    let hashes := (cs.takeWhile (· = '#')).length
    match cs.drop hashes with
    | '"' :: cs => some (String.ofList (rawContent hashes cs))
    | _ => none
  | _ => none

end Quoted

end Replica
