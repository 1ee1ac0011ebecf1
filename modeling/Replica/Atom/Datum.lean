/-!
Plain data: what a value is written as, in what is read and in what is shown.
-/

namespace Replica

inductive Datum where
  | text (text : String)
  | number (value : Int)
  | flag (value : Bool)
  | list (items : List Datum)
  /-- Data that no value is written with. -/
  | other
deriving Inhabited

namespace Datum

/-- A datum of one kind: its word, and what it consists of. -/
def tagged (word : String) (items : List Datum) : Datum :=
  .list (.text word :: items)

end Datum

end Replica
