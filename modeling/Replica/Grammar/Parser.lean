import Replica.Grammar.Fault
import Replica.Token.Invisible
import Replica.Token.Literal

/-!
Readers of token lists. A reader takes tokens from the front, or fails. It also keeps
the printed form of what it took: symbols are printed joint inside and open at their
end, whatever the spacing of the source was.
-/

namespace Replica

structure Name where
  text : String
  span : Span
deriving DecidableEq, Repr

namespace Name

def token (name : Name) : Token := .word name.text name.span

end Name

/-- A token that a group holds in excess. -/
structure Leftover where
  span : Span
  enclosing : Delimiter
deriving Repr

mutual

/-- The first visible token, and the delimiter of the group that it stands in. -/
def Leftover.ofToken (token : Token) (enclosing : Delimiter) : Option Leftover :=
  match token with
  | .group .invisible content _ => Leftover.ofTokens content .invisible
  | token => some ⟨token.span, enclosing⟩

def Leftover.ofTokens (tokens : List Token) (enclosing : Delimiter) : Option Leftover :=
  match tokens with
  | [] => none
  | token :: rest => Leftover.ofToken token enclosing <|> Leftover.ofTokens rest enclosing

end

/-- What a reader has in front of it, and what it left behind. -/
structure State where
  tokens : List Token
  /-- Where an error at the end of the tokens points. -/
  scope : Span
  enclosing : Delimiter
  /-- The span of what was passed last. -/
  last : Span
  endings : List Token.Ending
  /-- The first excess token of the groups that were read. -/
  leftover : Option Leftover
  /-- The printed form of what was read, the last token first. -/
  printed : List Token

namespace State

def ofTokens (tokens : List Token) (scope : Span) : State :=
  ⟨tokens, scope, .invisible, scope, [], none, []⟩

/-- Passes the first visible token and prints `shown` for it. -/
def pass (s : State) (shown : List Token) : State :=
  let front := Token.front s.tokens s.endings
  match front.tokens with
  | [] => s
  | token :: rest =>
    let (last, endings) := Token.settle token.span rest front.endings
    { s with tokens := rest, last, endings, printed := shown.reverse ++ s.printed }

end State

abbrev Ahead := List Token → Bool

namespace Ahead

def visible (tokens : List Token) : List Token :=
  (Token.front tokens []).tokens

def word? (tokens : List Token) : Option Name :=
  match visible tokens with
  | .word text span :: _ => some ⟨text, span⟩
  | _ => none

def word (text : String) : Ahead := fun tokens =>
  (word? tokens).any (·.text = text)

def anyWord : Ahead := fun tokens => (word? tokens).isSome

/-- Words that are no names unless they are written raw. -/
def reserved : List String :=
  ["_", "abstract", "as", "async", "await", "become", "box", "break", "const", "continue",
    "crate", "do", "dyn", "else", "enum", "extern", "false", "final", "fn", "for", "if", "impl",
    "in", "let", "loop", "macro", "match", "mod", "move", "mut", "override", "priv", "pub", "ref",
    "return", "Self", "self", "static", "struct", "super", "trait", "true", "try", "type",
    "typeof", "unsafe", "unsized", "use", "virtual", "where", "while", "yield"]

def name : Ahead := fun tokens =>
  (word? tokens).any fun word => !reserved.contains word.text

/-- The characters of a symbol follow one another without a blank. What follows the
symbol may be joined to it. -/
def marks : List Char → Ahead
  | [], _ => true
  | c :: cs, tokens =>
    match visible tokens with
    | .mark d joint _ :: rest => c = d && (cs.isEmpty || (joint && marks cs rest))
    | _ => false

def symbol (text : String) : Ahead := marks text.toList

def group (delimiter : Delimiter) : Ahead := fun tokens =>
  match visible tokens with
  | .group d _ _ :: _ => d = delimiter
  | _ => false

def invisibleGroup : Ahead
  | .group .invisible _ _ :: _ => true
  | _ => false

/-- A lifetime: its name, with a span that begins at the quote. -/
def lifetime? (tokens : List Token) : Option Name :=
  match visible tokens with
  | .mark '\'' true quote :: rest =>
    (word? rest).map fun name => ⟨name.text, quote.join name.span⟩
  | _ => none

def lifetime : Ahead := fun tokens => (lifetime? tokens).isSome

def literal? (tokens : List Token) : Option (Literal × List Token) :=
  match visible tokens with
  | .literal text span :: _ => some (⟨text, span⟩, [.literal text span])
  | .word text span :: _ =>
    if text = "true" || text = "false" then some (⟨text, span⟩, [.word text span]) else none
  | .mark '-' _ minus :: rest =>
    match visible rest with
    | .literal text span :: _ =>
      let whole := minus.join span
      if (Literal.mk text span).isNumber then
        some (⟨"-" ++ text, whole⟩, [.mark '-' false whole, .literal text whole])
      else none
    | _ => none
  | _ => none

def literal : Ahead := fun tokens => (literal? tokens).isSome

def literalIs (p : Literal → Bool) : Ahead := fun tokens =>
  (literal? tokens).any fun (literal, _) => p literal

/-- What follows the next token. A lifetime counts as one token. -/
def skip (tokens : List Token) : Option (List Token) :=
  match visible tokens with
  | [] => none
  | .mark '\'' true _ :: .word _ _ :: rest => some rest
  | _ :: rest => some rest

def second (ahead : Ahead) : Ahead := fun tokens => (skip tokens).any ahead

def third (ahead : Ahead) : Ahead := fun tokens => ((skip tokens).bind skip).any ahead

def ended : Ahead := List.isEmpty

/-- Something comes first in the invisible group ahead. -/
def within (ahead : Ahead) : Ahead
  | .group .invisible content _ :: _ => ahead content
  | _ => false

def any (aheads : List Ahead) : Ahead := fun tokens => aheads.any (· tokens)

def anyWordOf (texts : List String) : Ahead := fun tokens =>
  (word? tokens).any fun word => texts.contains word.text

end Ahead

abbrev Parser := StateT State (Except Fault)

namespace Parser

variable {α : Type}

def peek (ahead : Ahead) : Parser Bool := return ahead (← get).tokens

def atEnd : Parser Bool := return (← get).tokens.isEmpty

/-- Where an error about what comes next points. -/
def here : Parser Span := do
  let s ← get
  return (s.tokens.head?.map Token.frontSpan).getD s.scope

/-- The span of the next token, whose invisible groups are entered. -/
def spanAhead : Parser Span := do
  let s ← get
  return ((Ahead.visible s.tokens).head?.map Token.span).getD s.scope

def failAt (span : Span) (cause : Cause) : Parser α :=
  throw ⟨cause, false, span⟩

def refuse (cause : Cause) : Parser α := do
  throw ⟨cause, ← atEnd, ← here⟩

def expect (alternatives : List Expectation) : Parser α :=
  refuse (.expected alternatives)

def expectKind (text : String) : Parser α :=
  expect [.described text]

def symbols (texts : List String) : List Expectation :=
  texts.map .symbol

def keep (token : Token) : Parser Unit :=
  modify fun s => s.pass [token]

def keyword (text : String) : Parser Name := do
  match Ahead.word? (← get).tokens with
  | some word =>
    if word.text = text then
      keep word.token
      return word
    else expect [.symbol text]
  | none => expect [.symbol text]

def keyword? (text : String) : Parser Bool := do
  if ← peek (.word text) then
    let _ ← keyword text
    return true
  else return false

/-- A name that is no reserved word. -/
def name : Parser Name := do
  match Ahead.word? (← get).tokens with
  | some word =>
    if Ahead.reserved.contains word.text then refuse (.keyword word.text)
    else
      keep word.token
      return word
  | none => expectKind "identifier"

def anyWord : Parser Name := do
  match Ahead.word? (← get).tokens with
  | some word =>
    keep word.token
    return word
  | none => expectKind "ident"

def passMarks : List Char → Parser Unit
  | [] => return
  | c :: cs => do
    match Ahead.visible (← get).tokens with
    | token :: _ => modify fun s => s.pass [.mark c (!cs.isEmpty) token.span]
    | [] => return
    passMarks cs

/-- A symbol. The answer is the span of its first character, where an error points too. -/
def symbol (text : String) : Parser Span := do
  let tokens := (← get).tokens
  let span ← match Ahead.visible tokens with
    | .mark c _ span :: _ => if c = '\'' then here else pure span
    | _ => here
  if Ahead.symbol text tokens then
    passMarks text.toList
    return span
  else failAt span (.expected [.symbol text])

def symbol? (text : String) : Parser Bool := do
  if ← peek (.symbol text) then
    let _ ← symbol text
    return true
  else return false

def lifetime : Parser Name := do
  match Ahead.lifetime? (← get).tokens with
  | some name =>
    match Ahead.visible (← get).tokens with
    | quote :: _ => modify fun s => s.pass [.mark '\'' true quote.span]
    | [] => pure ()
    match Ahead.word? (← get).tokens with
    | some word => keep word.token
    | none => pure ()
    return name
  | none => expectKind "lifetime"

def lifetime? : Parser (Option Name) := do
  if ← peek .lifetime then return some (← lifetime) else return none

def literal : Parser Literal := do
  match Ahead.literal? (← get).tokens with
  | some (literal, [shown]) =>
    keep shown
    return literal
  | some (literal, shown) =>
    modify fun s => (s.pass shown).pass []
    return literal
  | none => expectKind "literal"

/-- Runs `p` inside the group that comes next, and `q` behind the group. What `p` leaves in the
group is remembered as an excess, but not before any that `q` meets. -/
def insideThen {β : Type} (delimiter : Delimiter) (p : Parser α) (q : α → Parser β) :
    Parser β := do
  let s ← get
  let front := Token.front s.tokens s.endings
  match front.tokens with
  | .group d content span :: rest =>
    if d = delimiter then
      set { s with
        tokens := content, scope := span.closing, enclosing := delimiter, last := span,
        endings := [], printed := [] }
      let a ← p
      let t ← get
      let (last, endings) := Token.settle span rest front.endings
      set { s with
        tokens := rest, last, endings, leftover := t.leftover,
        printed := .group delimiter t.printed.reverse span :: s.printed }
      let b ← q a
      modify fun u =>
        { u with leftover := u.leftover <|> Leftover.ofTokens t.tokens delimiter }
      return b
    else expectKind (description delimiter)
  | _ => expectKind (description delimiter)
where
  description : Delimiter → String
    | .parenthesis => "parentheses"
    | .brace => "curly braces"
    | .bracket => "square brackets"
    | .invisible => "invisible group"

def inside (delimiter : Delimiter) (p : Parser α) : Parser α :=
  insideThen delimiter p pure

/-- Runs `p` inside the invisible group that comes next, and `q` behind the group. Of the group
nothing is printed: `q` is given its content and the group as they would be. -/
def insideInvisible {β : Type} (p : Parser α)
    (q : α → (inner whole : List Token) → Parser β) : Parser β := do
  let s ← get
  match s.tokens with
  | .group .invisible content span :: rest =>
    set { s with
      tokens := content, scope := span.closing, enclosing := .invisible, last := span,
      endings := [], printed := [] }
    let a ← p
    let t ← get
    let inner := t.printed.reverse
    let (last, endings) := Token.settle span rest s.endings
    set { s with tokens := rest, last, endings, leftover := t.leftover }
    let b ← q a inner [.group .invisible inner span]
    modify fun u =>
      { u with leftover := u.leftover <|> Leftover.ofTokens t.tokens .invisible }
    return b
  | _ => expectKind "invisible group"

/-- The tokens of the next group as they are in the source. -/
def rawGroup : Parser (Delimiter × List Token × Span) := do
  match (← get).tokens with
  | .group delimiter content span :: _ =>
    if delimiter = .invisible then expectKind "delimiter"
    else
      keep (.group delimiter content span)
      return (delimiter, content, span)
  | _ => expectKind "delimiter"

def print (tokens : List Token) : Parser Unit :=
  modify fun s => { s with printed := tokens.reverse ++ s.printed }

/-- Parentheses that are printed though the source has none. -/
def enclosed (tokens : List Token) : List Token :=
  [.group .parenthesis tokens .origin]

/-- Puts all that was printed behind the first `mark` tokens into parentheses. -/
def enclose (mark : Nat) : Parser Unit :=
  modify fun s =>
    let recent := s.printed.length - mark
    { s with printed := enclosed (s.printed.take recent).reverse ++ s.printed.drop recent }

/-- Runs `p` and prints nothing: what `p` would have printed is answered with its result. -/
def withhold (p : Parser α) : Parser (α × List Token) := do
  let before := (← get).printed
  modify fun s => { s with printed := [] }
  let a ← p
  let shown := (← get).printed
  modify fun s => { s with printed := before }
  return (a, shown.reverse)

def capture (p : Parser α) : Parser (α × List Token) := do
  let (a, shown) ← withhold p
  print shown
  return (a, shown)

/-- Runs `p`, and prints `shown` of its answer in place of what `p` printed. -/
def retold (p : Parser α) (shown : α → List Token) : Parser α := do
  let (a, _) ← withhold p
  print (shown a)
  return a

def unprinted (p : Parser α) : Parser α :=
  retold p fun _ => []

/-- Runs `p`. If `raw` holds of its answer, the tokens of the source are printed in place of
what `p` printed. -/
def verbatimIf (p : Parser α) (raw : α → Bool) : Parser α := do
  let start := (← get).tokens
  let (a, shown) ← withhold p
  let stop := (← get).tokens
  print (if raw a then Token.between start stop else shown)
  return a

/-- Runs `p`, and prints the tokens of the source in place of what `p` printed. -/
def verbatim (p : Parser α) : Parser α :=
  verbatimIf p fun _ => true

def attempt (p : Parser α) : Parser (Option α) := fun s =>
  match p s with
  | .ok (a, s) => .ok (some a, s)
  | .error _ => .ok (none, s)

def lookahead (p : Parser α) : Parser α := fun s =>
  match p s with
  | .ok (a, _) => .ok (a, s)
  | .error fault => .error fault

def consuming (p : Parser α) : Parser α := fun s =>
  match p s with
  | .ok (a, t) =>
    if Token.weightAll t.tokens < Token.weightAll s.tokens then .ok (a, t)
    else .error ⟨.exhausted, false, s.scope⟩
  | .error fault => .error fault

/-- Runs `round` until it answers nothing, and collects its answers. -/
def rounds : (fuel : Nat) → (round : Parser (Option α)) → Parser (List α)
  | 0, _ => refuse .exhausted
  | fuel + 1, round => do
    match ← round with
    | none => return []
    | some a => return a :: (← rounds fuel round)

/-- Every round but the last has to read something. -/
def many (round : Parser (Option α)) : Parser (List α) := do
  rounds (Token.weightAll (← get).tokens + 1) round

def manyWhile (ahead : Ahead) (p : Parser α) : Parser (List α) :=
  many do
    if ← peek ahead then return some (← p) else return none

/-- Runs `p` again and again with `separator` between, to the end of the group. A last
separator is allowed. Each answer comes with whether a separator follows it. -/
def separated (separator : String) (p : Parser α) : Parser (List (α × Bool)) :=
  many do
    if ← atEnd then return none
    let a ← p
    if ← atEnd then return some (a, false)
    let _ ← symbol separator
    return some (a, true)

/-- Runs `p` until the symbol `close` comes next, with commas between. -/
def upTo (close : String) (p : Parser α) : Parser (List (α × Bool)) :=
  many do
    if ← peek (.symbol close) then return none
    let a ← p
    if ← peek (.symbol close) then return some (a, false)
    let _ ← symbol ","
    return some (a, true)

/-- Runs `p` as long as a `separator` follows it and `stop` does not hold in front of it. -/
def chainFrom (separator : String) (stop : Ahead) (p : Parser α) :
    (fuel : Nat) → Parser (List (α × Bool))
  | 0 => refuse .exhausted
  | fuel + 1 => do
    if ← peek stop then return []
    let a ← p
    if ← symbol? separator then
      return (a, true) :: (← chainFrom separator stop p fuel)
    else return [(a, false)]

def chain (separator : String) (stop : Ahead) (p : Parser α) : Parser (List (α × Bool)) := do
  chainFrom separator stop p (Token.weightAll (← get).tokens + 1)

def run (p : Parser α) (scope : Span) (tokens : List Token) : Except Fault α := do
  let (a, s) ← StateT.run p (.ofTokens tokens scope)
  match s.leftover <|> Leftover.ofTokens s.tokens .invisible with
  | some excess => .error ⟨.leftover excess.enclosing, false, excess.span⟩
  | none => .ok a

end Parser

end Replica
