import Replica.Text.Span

/-!
Tokens of a source text and the text that shows them: one blank between two
tokens, none behind a punctuation character that is joined to what follows.
-/

namespace Replica

inductive Delimiter where
  | parenthesis
  | brace
  | bracket
  | invisible
deriving DecidableEq, Repr, Inhabited

namespace Delimiter

def opening : Delimiter → String
  | .parenthesis => "("
  | .brace => "\x7b "
  | .bracket => "["
  | .invisible => ""

def closing : Delimiter → String
  | .parenthesis => ")"
  | .brace => "\x7d"
  | .bracket => "]"
  | .invisible => ""

end Delimiter

inductive Token where
  | word (text : String) (span : Span)
  | mark (char : Char) (joint : Bool) (span : Span)
  | literal (text : String) (span : Span)
  | group (delimiter : Delimiter) (content : List Token) (span : Span)
deriving Repr, Inhabited

namespace Token

def span : Token → Span
  | .word _ span => span
  | .mark _ _ span => span
  | .literal _ span => span
  | .group _ _ span => span

/-- Where an error at this token points: a group is met at its opening delimiter. -/
def frontSpan : Token → Span
  | .group _ _ span => span.opening
  | token => token.span

/-- Whether the next token follows without a blank. -/
def joinsNext : Token → Bool
  | .mark _ joint _ => joint
  | _ => false

mutual

def render : Token → String
  | .word text _ => text
  | .mark char _ _ => char.toString
  | .literal text _ => text
  | .group delimiter content _ =>
    let inside := renderAll content
    let padding := if delimiter = .brace && !content.isEmpty then " " else ""
    delimiter.opening ++ inside ++ padding ++ delimiter.closing

def renderAll : List Token → String
  | [] => ""
  | [token] => token.render
  | token :: next :: rest =>
    token.render ++ (if token.joinsNext then "" else " ") ++ renderAll (next :: rest)

end

mutual

/-- How many tokens there are, those inside groups included. -/
def weight : Token → Nat
  | .group _ content _ => weightAll content + 1
  | _ => 1

def weightAll : List Token → Nat
  | [] => 0
  | token :: rest => token.weight + weightAll rest

end

def spanAll (tokens : List Token) : Span :=
  match tokens.head?, tokens.getLast? with
  | some first, some last => first.span.join last.span
  | _, _ => .origin

end Token

end Replica
