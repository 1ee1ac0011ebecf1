import Replica.Proofs.Grammar.Shrinking

/-!
Items. Each reader that is chosen for an item takes at least one token, so that no item is empty. Main statements: this
holds for all items at every level, and the reader of items need not be asked whether it took anything.
-/

set_option synthInstance.maxSize 2000

namespace Replica

open Replica.Parser

variable {level : Level} [level.Shrinks]

namespace Visibility

instance shrinks_dropFirst : Shrinks (modify fun s => { s with tokens := s.tokens.tail } : Parser Unit) :=
  shrinks_modify fun _ => Token.weightAll_tail_le

instance shrinks_read : Shrinks read := by
  unfold read
  infer_instance

end Visibility

namespace Signature

variable {safe : Bool}

instance consumes_read : Consumes (read level safe) := by
  unfold read
  infer_instance

end Signature

namespace Field

variable {fuel : Nat}

instance consumes_readNamedGroup : Consumes (readNamedGroup level fuel) := by
  cases fuel with
  | zero => exact consumes_refuse
  | succ fuel => exact Consumes.inside

end Field

namespace Fields

instance shrinks_readNamed : Shrinks (readNamed level) := by
  unfold readNamed
  infer_instance

instance shrinks_readPositional : Shrinks (readPositional level) := by
  unfold readPositional
  infer_instance

end Fields

namespace Declaration

variable {kind : String} {attributes : List Attribute}

instance shrinks_readStop : Shrinks readStop := by
  unfold readStop
  infer_instance

instance shrinks_readStruct : Shrinks (readStruct level) := by
  unfold readStruct
  infer_instance

instance shrinks_readBody : Shrinks (readBody level kind) := by
  unfold readBody
  infer_instance

instance consumes_readBehind : Consumes (readBehind level attributes) := by
  unfold readBehind
  infer_instance

instance consumes_read : Consumes (read level) := by
  unfold read
  infer_instance

end Declaration

namespace Alias

variable {mayDefault : Bool} {place : ClausePlace}

instance consumes_read : Consumes (read level mayDefault place) := by
  unfold read
  infer_instance

end Alias

namespace Constant

instance shrinks_readBehind : Shrinks (readBehind level) := by
  unfold readBehind
  infer_instance

end Constant

namespace Implementation

variable {lenient : Bool} {attributes : List Attribute}

instance shrinks_readSubject : Shrinks (readSubject level lenient) := by
  unfold readSubject
  infer_instance

instance consumes_readBehind : Consumes (readBehind level lenient attributes) := by
  unfold readBehind
  infer_instance

end Implementation

namespace Item

variable {mayAlias : Bool}

instance consumes_readFunction : Consumes (readFunction level) := by
  unfold readFunction
  infer_instance

instance shrinks_readUseTree {root : Bool} {fuel : Nat} : Shrinks (readUseTree root fuel) := by
  induction fuel generalizing root with
  | zero => exact shrinks_refuse
  | succ fuel ih =>
      unfold readUseTree
      infer_instance

instance consumes_readUse : Consumes readUse := by
  unfold readUse
  infer_instance

instance consumes_readExternCrate : Consumes readExternCrate := by
  unfold readExternCrate
  infer_instance

instance consumes_readStatic : Consumes (readStatic level) := by
  unfold readStatic
  infer_instance

instance consumes_readConstant : Consumes (readConstant level) := by
  unfold readConstant
  infer_instance

instance consumes_readModule : Consumes (readModule level) := by
  unfold readModule
  infer_instance

instance consumes_readTypeAlias : Consumes (readTypeAlias level) := by
  unfold readTypeAlias
  infer_instance

instance shrinks_readTraitAlias : Shrinks (readTraitAlias level) := by
  unfold readTraitAlias
  infer_instance

instance shrinks_readTraitBody : Shrinks (readTraitBody level) := by
  unfold readTraitBody
  infer_instance

instance consumes_readTrait : Consumes (readTrait level mayAlias) := by
  unfold readTrait
  infer_instance

instance consumes_readExternBlock : Consumes (readExternBlock level) := by
  unfold readExternBlock
  infer_instance

instance consumes_readCall : Consumes readCall := by
  unfold readCall
  infer_instance

instance consumes_skipGroup {delimiter : Delimiter} : Consumes (skipGroup delimiter) :=
  Consumes.inside

instance consumes_readMacroDefinition : Consumes readMacroDefinition := by
  unfold readMacroDefinition
  infer_instance

/-- A reader that is handed on takes at least one token. -/
def Choice.Takes : Choice → Prop
  | .summary reader => Consumes reader
  | _ => True

/-- Whatever is chosen takes at least one token. -/
class Offers (p : Parser Choice) : Prop where
  takes : Ensures p Choice.Takes

section Choices

variable {α : Type} {p p' : Parser Choice} {q : α → Parser Choice}

instance offers_summary {reader : Parser Summary} [consumes : Consumes reader] :
    Offers (pure (.summary reader)) where
  takes := ensures_pure consumes

instance offers_declaration : Offers (pure .declaration) where
  takes := ensures_pure trivial

instance offers_implementation : Offers (pure .implementation) where
  takes := ensures_pure trivial

instance offers_expect {alternatives : List Expectation} : Offers (expect alternatives) where
  takes := ensures_refuse

instance offers_expectKind {text : String} : Offers (expectKind text) where
  takes := ensures_refuse

instance offers_bind {first : Parser α} [offers : ∀ a, Offers (q a)] : Offers (first >>= q) where
  takes := ensures_bind fun a => (offers a).takes

instance offers_ite {c : Prop} [Decidable c] [Offers p] [Offers p'] : Offers (if c then p else p') := by
  split <;> assumption

instance offers_choice {first : Parser Bool} [Offers p] [Offers p'] :
    Offers (first >>= fun seen => if seen = true then p else p') :=
  offers_bind

instance offers_lookahead [offers : Offers p] : Offers (lookahead p) where
  takes := by
    intro s choice last read
    unfold lookahead at read
    split at read
    next here =>
      cases read
      exact offers.takes s choice _ here
    next => cases read

end Choices

instance offers_externChoice {behind : List Token} : Offers (externChoice level behind) := by
  unfold externChoice
  infer_instance

instance offers_unsafeChoice {behind : List Token} : Offers (unsafeChoice level behind) := by
  unfold unsafeChoice
  infer_instance

instance offers_choose : Offers (choose level) := by
  unfold choose
  infer_instance

omit [level.Shrinks] in
theorem consumes_readSummary {reader : Parser Summary} (consumes : Consumes reader) :
    Consumes (readSummary level reader) := by
  unfold readSummary
  infer_instance

instance consumes_readImplementation : Consumes (readImplementation level) := by
  unfold readImplementation
  infer_instance

instance consumes_readAny : Consumes (readAny level) where
  lt := by
    intro s last item read
    obtain ⟨choice, middle, chosen, read⟩ := bind_eq_ok_iff.mp read
    have offers : Offers (lookahead do
        let _ ← Attribute.readOuter level
        choose level) := inferInstance
    have taking := offers.takes s choice middle chosen
    refine Nat.lt_of_lt_of_le ?_ (shrinks_lookahead.le chosen)
    cases choice with
    | summary reader => exact (consumes_readSummary taking).lt read
    | declaration =>
        have consumes : Consumes (do return Item.declaration (← Declaration.read level)) := inferInstance
        exact consumes.lt read
    | implementation => exact consumes_readImplementation.lt read

/-- Every item has a token, so that nothing has to be checked behind it. -/
theorem read_eq_readAny : read level = readAny level :=
  consumes_readAny.consuming_eq

end Item

namespace Level

instance shrinks_next : level.next.Shrinks where
  type _ _ := inferInstanceAs (Parser.Shrinks (TypeOutline.read level _ _))
  arguments _ := inferInstanceAs (Parser.Shrinks (Argument.readAll level _))
  binder := inferInstanceAs (Parser.Shrinks (Generics.readBinder level))
  expression _ := inferInstanceAs (Parser.Shrinks (ExpressionOutline.read level _))
  operand _ := inferInstanceAs (Parser.Shrinks (ExpressionOutline.readOperand level _))
  operators _ _ _ _ := inferInstanceAs (Parser.Shrinks (ExpressionOutline.readOperators level _ _ _ _))
  pattern _ := inferInstanceAs (Parser.Shrinks (PatternOutline.read level _))

instance shrinks_height {n : Nat} : (height n).Shrinks := by
  induction n with
  | zero => constructor <;> intros <;> exact shrinks_refuse
  | succ n ih => exact shrinks_next

instance shrinks_forWeight {weight : Nat} : (forWeight weight).Shrinks :=
  shrinks_height

end Level

end Replica
