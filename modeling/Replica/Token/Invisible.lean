import Replica.Token.Basic

/-!
Groups without visible delimiters. In a source text such a group is written as
braces behind the word that `Token.invisibleWord` names. A reader passes into such
groups without noticing.
-/

namespace Replica

namespace Token

def invisibleWord : String := "__none"

mutual

/-- The same token with every marked group inside it made invisible. -/
def hide : Token → Token
  | .group delimiter content span => .group delimiter (hideAll content) span
  | token => token

def hideAll : List Token → List Token
  | [] => []
  | .word text span :: .group .brace content braces :: rest =>
    if text = invisibleWord then .group .invisible (hideAll content) braces :: hideAll rest
    else .word text span :: .group .brace (hideAll content) braces :: hideAll rest
  | token :: rest => token.hide :: hideAll rest

end

/-- Where an invisible group ends: as many tokens are still to come, and the span is the
group's. -/
structure Ending where
  remaining : Nat
  span : Span

/-- Tokens with none of the groups at their front invisible, and the endings of the
groups that were opened, the innermost first. -/
structure Front where
  tokens : List Token
  endings : List Ending

mutual

/-- The tokens of `token` in front of `rest`, unless there are none. -/
def enter (token : Token) (rest : List Token) (endings : List Ending) : Option Front :=
  match token with
  | .group .invisible content span => enterAll content rest (⟨rest.length, span⟩ :: endings)
  | token => some ⟨token :: rest, endings⟩

def enterAll (tokens rest : List Token) (endings : List Ending) : Option Front :=
  match tokens with
  | [] => none
  | token :: more => enter token (more ++ rest) endings <|> enterAll more rest endings

end

/-- The front of a list of tokens: its invisible groups are opened until a visible token
comes first. -/
def front (tokens : List Token) (endings : List Ending) : Front :=
  match tokens with
  | .group .invisible _ _ :: _ => (enterAll tokens [] endings).getD ⟨[], []⟩
  | _ => ⟨tokens, endings⟩

/-- The endings that are still to come when `rest` is left, and the span of what was
passed last: a token with the span `span`, or a group that ended behind it. -/
def settle (span : Span) (rest : List Token) : List Ending → Span × List Ending
  | [] => (span, [])
  | ending :: endings =>
    if rest.length ≤ ending.remaining then settle ending.span rest endings
    else (span, ending :: endings)

/-- The tokens from `start` up to `stop`, which are what is left of them. An invisible group
in which `stop` begins is opened. -/
def upTo (stop : Nat) : (fuel : Nat) → (start : List Token) → List Token
  | 0, _ => []
  | _, [] => []
  | fuel + 1, token :: rest =>
    if weightAll (token :: rest) ≤ stop then []
    else if stop ≤ weightAll rest then token :: upTo stop fuel rest
    else
      match token with
      | .group .invisible content _ => upTo stop fuel (content ++ rest)
      | _ => []

def between (start stop : List Token) : List Token :=
  upTo (weightAll stop) (weightAll start) start

end Token

end Replica
