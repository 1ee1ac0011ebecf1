import Replica.Text.NameAlphabet
import Replica.Text.Quoted
import Replica.Text.Span

/-!
What a literal stands for. Numbers are told apart by their text: an integer has
neither a point nor, in base ten, an exponent.
-/

namespace Replica

/-- The words `true` and `false` are literals too, and so is a number behind a minus sign,
which is part of its text. -/
structure Literal where
  text : String
  span : Span
deriving Repr

namespace Literal

structure Integer where
  negative : Bool
  value : Nat
  suffix : String

/-- The value of the digits at the front, on top of `value`, and what follows them. -/
def digits (base : Nat) : (value : Nat) → List Char → Nat × List Char
  | value, [] => (value, [])
  | value, c :: cs =>
    if c = '_' then digits base value cs
    else
      match Quoted.hexValue? c with
      | some digit =>
        if digit < base then digits base (value * base + digit) cs else (value, c :: cs)
      | none => (value, c :: cs)

/-- What follows the letter of an exponent: a sign or a digit, perhaps behind underscores. -/
def isExponent (cs : List Char) : Bool :=
  match cs.dropWhile (· = '_') with
  | c :: _ => c = '+' || c = '-' || c.isDigit
  | [] => false

/-- Digits in base ten make no integer if a point or an exponent follows them. -/
def isFraction : (rest : List Char) → Bool
  | '.' :: _ => true
  | 'e' :: cs => isExponent cs
  | 'E' :: cs => isExponent cs
  | _ => false

def unsigned? (negative : Bool) (cs : List Char) : Option Integer :=
  let read (base : Nat) (cs : List Char) : Option Integer :=
    let (value, rest) := digits base 0 cs
    if base = 10 && isFraction rest then none
    else some ⟨negative, value, String.ofList rest⟩
  match cs with
  | '0' :: 'x' :: cs => read 16 cs
  | '0' :: 'o' :: cs => read 8 cs
  | '0' :: 'b' :: cs => read 2 cs
  | c :: _ => if c.isDigit then read 10 cs else none
  | [] => none

def integer? (literal : Literal) : Option Integer :=
  match literal.text.toList with
  | '-' :: cs => unsigned? true cs
  | cs => unsigned? false cs

def isNumber (literal : Literal) : Bool :=
  match literal.text.toList with
  | '-' :: c :: _ => c.isDigit
  | c :: _ => c.isDigit
  | [] => false

def isFloat (literal : Literal) : Bool :=
  literal.isNumber && literal.integer?.isNone

def string? (literal : Literal) : Option String :=
  Quoted.decode? literal.text

end Literal

end Replica
