import Replica.Token.Lexeme

/-!
Source texts as tokens. Blanks and plain comments are dropped, and a documenting
comment becomes the attribute that it abbreviates.
-/

namespace Replica

namespace Token

/-- A group whose closing delimiter is still to come, and the tokens in front of it,
the last one first. -/
structure Frame where
  delimiter : Delimiter
  start : Position
  before : List Token

/-- The attribute that stands for a documenting comment. All of it has the comment's span. -/
def documentation (inner : Bool) (content : List Char) (span : Span) : List Token :=
  let text := Quoted.encode (String.ofList content)
  let body := [.word "doc" span, .mark '=' false span, .literal text span]
  .mark '#' false span ::
    (if inner then [.mark '!' false span] else []) ++ [.group .bracket body span]

/-- Reads at most `fuel` pieces from the text that begins at `place`. The tokens of the
innermost open group are held with the last one first. -/
def readFrom (fuel : Nat) (cs : List Char) (place : Position) (tokens : List Token)
    (frames : List Frame) : Option (List Token) :=
  match fuel with
  | 0 => none
  | fuel + 1 =>
    if cs.isEmpty then
      if frames.isEmpty then some tokens.reverse else none
    else do
      let lexeme ← Lexeme.read? cs
      let text := cs.take lexeme.length
      let rest := cs.drop lexeme.length
      let next := place.afterAll text
      let span : Span := ⟨place, next⟩
      match lexeme with
      | .blank _ => readFrom fuel rest next tokens frames
      | .remark inner content _ =>
        readFrom fuel rest next ((documentation inner content span).reverse ++ tokens) frames
      | .opening delimiter => readFrom fuel rest next [] (⟨delimiter, place, tokens⟩ :: frames)
      | .closing delimiter =>
        match frames with
        | [] => none
        | frame :: frames =>
          if frame.delimiter = delimiter then
            let group := .group delimiter tokens.reverse ⟨frame.start, next⟩
            readFrom fuel rest next (group :: frame.before) frames
          else none
      | .literal _ => readFrom fuel rest next (.literal (String.ofList text) span :: tokens) frames
      | .mark char joint => readFrom fuel rest next (.mark char joint span :: tokens) frames
      | .word _ => readFrom fuel rest next (.word (String.ofList text) span :: tokens) frames

/-- The tokens of a source text, or nothing when it has none. A byte order mark at the
beginning is skipped, and counts as a character. -/
def ofText? (text : String) : Option (List Token) :=
  match text.toList with
  | '\uFEFF' :: cs => readFrom (cs.length + 1) cs ⟨1, 1⟩ [] []
  | cs => readFrom (cs.length + 1) cs .origin [] []

end Token

end Replica
