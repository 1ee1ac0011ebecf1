import Replica.Text.NameAlphabet
import Replica.Token.Basic

/-!
Tokens of generated text. They have no place in a source.
-/

namespace Replica

namespace Token

def marks : List Char → List Token
  | [] => []
  | c :: cs => .mark c (!cs.isEmpty) .origin :: marks cs

/-- A word, or the characters of a symbol joined to one another. -/
def spell (text : String) : List Token :=
  match text.toList with
  | [] => []
  | c :: cs => if beginsName c then [.word text .origin] else marks (c :: cs)

def spellAll (texts : List String) : List Token :=
  texts.flatMap spell

def braces (content : List Token) : Token := .group .brace content .origin

def brackets (content : List Token) : Token := .group .bracket content .origin

def parentheses (content : List Token) : Token := .group .parenthesis content .origin

end Token

end Replica
