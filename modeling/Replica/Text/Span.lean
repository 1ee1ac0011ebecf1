/-!
Places in a text. Lines count from one and columns from zero, both in
characters, and a span stops before the character at its `stop`.
-/

namespace Replica

structure Position where
  line : Nat
  column : Nat
deriving DecidableEq, Repr, Inhabited

namespace Position

def origin : Position := ⟨1, 0⟩

/-- The place behind the character `c` that stands at `position`. -/
def after (position : Position) (c : Char) : Position :=
  if c = '\n' then ⟨position.line + 1, 0⟩ else ⟨position.line, position.column + 1⟩

def afterAll (position : Position) (cs : List Char) : Position :=
  cs.foldl after position

end Position

structure Span where
  start : Position
  stop : Position
deriving DecidableEq, Repr, Inhabited

namespace Span

/-- The span of generated text and of the end of a whole input. -/
def origin : Span := ⟨.origin, .origin⟩

/-- From the start of the first span to the stop of the last. -/
def join (first last : Span) : Span := ⟨first.start, last.stop⟩

/-- The first character of a span, such as an opening delimiter. -/
def opening (span : Span) : Span :=
  ⟨span.start, ⟨span.start.line, span.start.column + 1⟩⟩

/-- The last character of a span, such as a closing delimiter. -/
def closing (span : Span) : Span :=
  ⟨⟨span.stop.line, span.stop.column - 1⟩, span.stop⟩

end Span

end Replica
