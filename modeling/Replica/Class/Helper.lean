import Replica.Grammar.Source

/-!
Helper attributes: they say how the copy of a type, of a field or by a constructor is
made. Their arguments are entries. All entries of a list of attributes are read first, up
to the first fault; what they mean is decided afterwards, in order. So how entries are
grouped into attributes does not matter.
-/

namespace Replica

namespace Helper

open Replica.Parser

/-- The path of helper attributes. -/
def name : String := "deep_copy"

/-- What a helper attribute describes. -/
inductive Owner where
  | container
  | field
  | constructor
deriving DecidableEq, Repr

inductive Fault where
  | grammar (fault : Replica.Fault)
  /-- The attribute has no arguments, or has a value. -/
  | absent (inner : Bool) (span : Span)
  | value (inner : Bool) (span : Span)
  | unknown (owner : Owner) (span : Span)
  | conflict (span : Span)
  | notText (span : Span)
  /-- The text of a bound is no list of predicates. -/
  | bound (fault : Replica.Fault) (span : Span)
deriving Repr

namespace Fault

def span : Fault → Span
  | .grammar fault => fault.span
  | .absent _ span => span
  | .value _ span => span
  | .unknown _ span => span
  | .conflict span => span
  | .notText span => span
  | .bound _ span => span

def usage (inner : Bool) : String :=
  (if inner then "#!" else "#") ++ "[" ++ name ++ "(...)]"

def message : Fault → String
  | .grammar fault => fault.message
  | .absent inner _ => "expected attribute arguments in parentheses: " ++ usage inner
  | .value inner _ => "expected parentheses: " ++ usage inner
  | .unknown .container _ => "Unknown container attribute"
  | .unknown .field _ => "Unknown field attribute"
  | .unknown .constructor _ => "Unknown constructor attribute"
  | .conflict _ => "`clone`, `with` and `skip` are mutually exclusive"
  | .notText _ => "Expected string literal"
  | .bound fault _ => "Invalid bound: " ++ fault.message

end Fault

/-- The keys of entries, each with the reader of the value behind it. -/
abbrev Vocabulary (α : Type) := String → Option (Parser α)

/-- An entry. A key outside the vocabulary has no meaning. -/
structure Entry (α : Type) where
  meaning : Option α
  span : Span

variable {α : Type}

/-- The path of an entry, in which all words are allowed. -/
def readKey : Parser AttributePath := do
  let rooted ← symbol? "::"
  if !(← peek .anyWord) then
    if ← atEnd then expectKind "nested attribute"
    else if ← peek .literal then refuse .literalEntry
    else refuse .symbolicEntry
  let first ← anyWord
  let rest ← manyWhile (.symbol "::") do
    let _ ← symbol "::"
    anyWord
  return ⟨rooted, first :: rest⟩

def keyReader (vocabulary : Vocabulary α) (key : AttributePath) : Option (Parser α) :=
  match key with
  | ⟨false, [word]⟩ => vocabulary word.text
  | _ => none

def readEntry (vocabulary : Vocabulary α) : Parser (Entry α) := do
  let key ← readKey
  let meaning ← match keyReader vocabulary key with
    | some value => some <$> value
    | none => pure none
  let start := (key.names.head?.map Name.span).getD .origin
  return ⟨meaning, start.join (← get).last⟩

/-- Entries, and the fault that stands behind them. -/
structure Reading (α : Type) where
  entries : List (Entry α)
  fault : Option Fault

namespace Reading

def nothing : Reading α := ⟨[], none⟩

def cons (entry : Entry α) (reading : Reading α) : Reading α :=
  ⟨entry :: reading.entries, reading.fault⟩

/-- What stands behind a fault is not read. -/
def append (first second : Reading α) : Reading α :=
  match first.fault with
  | some _ => first
  | none => ⟨first.entries ++ second.entries, second.fault⟩

end Reading

/-- The excess of the groups that were read with the entries. -/
def closing (s : State) : Reading α :=
  ⟨[], s.leftover.map fun excess =>
    .grammar ⟨.leftover excess.enclosing, false, excess.span⟩⟩

/-- Entries with commas between them and perhaps one behind them. -/
def readEntries (vocabulary : Vocabulary α) : (fuel : Nat) → State → Reading α
  | 0, s => ⟨[], some (.grammar ⟨.exhausted, false, s.scope⟩)⟩
  | fuel + 1, s =>
    if s.tokens.isEmpty then closing s
    else
      match readEntry vocabulary s with
      | .error fault => ⟨[], some (.grammar fault)⟩
      | .ok (entry, s) =>
        if s.tokens.isEmpty then Reading.cons entry (closing s)
        else
          match symbol "," s with
          | .error fault => ⟨[entry], some (.grammar fault)⟩
          | .ok (_, s) => Reading.cons entry (readEntries vocabulary fuel s)

def ofAttribute (vocabulary : Vocabulary α) (a : Attribute) : Reading α :=
  match a.arguments with
  | .absent =>
    let words := a.path.names.map Name.span
    ⟨[], some (.absent a.inner ((words.head?.getD .origin).join (words.getLast?.getD .origin)))⟩
  | .value equals => ⟨[], some (.value a.inner equals)⟩
  | .list tokens span =>
    readEntries vocabulary (Token.weightAll tokens + 1) (.ofTokens tokens span.closing)

def isHelper (a : Attribute) : Bool :=
  a.isNamed name

def ofAttributes (vocabulary : Vocabulary α) : List Attribute → Reading α
  | [] => .nothing
  | a :: rest =>
    if isHelper a then (ofAttribute vocabulary a).append (ofAttributes vocabulary rest)
    else ofAttributes vocabulary rest

/-- Gives the entries their meaning, one after the other. The first entry that has none
decides before the fault of the reading does. -/
def interpret {β : Type} (owner : Owner) (step : β → α → Span → Except Fault β) (start : β)
    (reading : Reading α) : Except Fault β := do
  let result ← reading.entries.foldlM (fun b entry =>
    match entry.meaning with
    | some a => step b a entry.span
    | none => throw (.unknown owner entry.span)) start
  match reading.fault with
  | some fault => throw fault
  | none => return result

def strip (attributes : List Attribute) : List Attribute :=
  attributes.filter fun a => !isHelper a

end Helper

end Replica
