import Replica.Class.Definition
import Replica.Proofs.Class.Attributes

/-!
Lists with separators. In all that is read from a source, each element of such a list with another behind it is
followed by its separator.
-/

namespace Replica

namespace Separated

variable {α : Type} {list : Separated α} {a : α} {more : List α}

/-- Each element with another behind it is followed by a separator. -/
def Proper (list : Separated α) : Prop :=
  list.Pairwise fun earlier _ => earlier.2 = true

theorem proper_nil : Proper ([] : Separated α) := List.Pairwise.nil

theorem proper_single {element : α × Bool} : Proper [element] := List.pairwise_singleton _ _

theorem Proper.cons (proper : list.Proper) : Proper ((a, true) :: list) :=
  List.pairwise_cons.mpr ⟨fun _ _ => rfl, proper⟩

theorem items_extend : (list.extend more).items = list.items ++ more := by
  unfold extend
  induction more generalizing list with
  | nil => exact (List.append_nil _).symm
  | cons a more ih =>
      have pushed : (list.push a).items = list.items ++ [a] := by simp [push, items]
      rw [List.foldl_cons, ih, pushed, List.append_assoc, List.singleton_append]

theorem proper_push : (list.push a).Proper := by
  unfold push Proper
  rw [List.pairwise_append, List.pairwise_map]
  refine ⟨List.pairwise_of_forall fun _ _ => rfl, List.pairwise_singleton _ _, ?_⟩
  intro element member _ _
  obtain ⟨_, _, rfl⟩ := List.mem_map.mp member
  rfl

theorem Proper.extend (proper : list.Proper) : (list.extend more).Proper := by
  unfold Separated.extend
  induction more generalizing list with
  | nil => exact proper
  | cons a more ih => exact ih proper_push

end Separated

structure Generics.Proper (generics : Generics) : Prop where
  parameters : generics.parameters.Proper
  clause : (generics.clause.getD []).Proper

namespace Parser

variable {α β : Type}

/-- Whatever the reader answers, `holds` is true of it. -/
def Ensures (p : Parser α) (holds : α → Prop) : Prop :=
  ∀ s a last, p s = .ok (a, last) → holds a

variable {p : Parser α} {q : α → Parser β} {holds : α → Prop} {holdsNext : β → Prop} {a : α}

theorem ensures_pure (answered : holds a) : Ensures (pure a) holds := by
  rintro s _ _ ⟨⟩
  exact answered

theorem Ensures.bind (first : Ensures p holds) (next : ∀ a, holds a → Ensures (q a) holdsNext) :
    Ensures (p >>= q) holdsNext := by
  intro s b last read
  obtain ⟨a, middle, readFirst, readNext⟩ := bind_eq_ok_iff.mp read
  exact next a (first s a middle readFirst) middle b last readNext

/-- What is read first does not matter. -/
theorem ensures_bind (next : ∀ a, Ensures (q a) holdsNext) : Ensures (p >>= q) holdsNext := by
  have anything : Ensures p fun _ => True := fun _ _ _ _ => trivial
  exact anything.bind fun a _ => next a

theorem ensures_throw {fault : Fault} : Ensures (throw fault) holds := by
  rintro s a last ⟨⟩

theorem ensures_refuse {cause : Cause} : Ensures (refuse cause) holds :=
  ensures_bind fun _ => ensures_bind fun _ => ensures_throw

theorem Ensures.withhold (ensures : Ensures p holds) : Ensures (withhold p) fun answer => holds answer.1 :=
  ensures_bind fun _ => ensures_bind fun _ => ensures.bind fun _ answered =>
    ensures_bind fun _ => ensures_bind fun _ => ensures_pure answered

theorem Ensures.capture (ensures : Ensures p holds) : Ensures (capture p) fun answer => holds answer.1 :=
  ensures.withhold.bind fun _ answered => ensures_bind fun _ => ensures_pure answered

theorem Ensures.retold (ensures : Ensures p holds) {shown : α → List Token} : Ensures (retold p shown) holds :=
  ensures.withhold.bind fun _ answered => ensures_bind fun _ => ensures_pure answered

theorem Ensures.verbatimIf (ensures : Ensures p holds) {raw : α → Bool} : Ensures (verbatimIf p raw) holds :=
  ensures_bind fun _ => ensures.withhold.bind fun _ answered =>
    ensures_bind fun _ => ensures_bind fun _ => ensures_pure answered

theorem Ensures.consuming (ensures : Ensures p holds) : Ensures (consuming p) holds := by
  intro s a last read
  unfold Parser.consuming at read
  cases here : p s with
  | error fault =>
      rw [here] at read
      cases read
  | ok answer =>
      obtain ⟨b, t⟩ := answer
      rw [here] at read
      simp only at read
      split at read
      · cases read
        exact ensures s a last here
      · cases read

section Lists

variable {round : Parser (Option (α × Bool))} {separator : String} {ahead : Ahead} {fuel : Nat}

theorem proper_rounds
    (stops : ∀ s a t, round s = .ok (some (a, false), t) → ∃ u, round t = .ok (none, u)) :
    Ensures (rounds fuel round) Separated.Proper := by
  induction fuel with
  | zero => exact ensures_refuse
  | succ fuel ih =>
      intro s list last read
      obtain ⟨answer, t, here, others⟩ := bind_eq_ok_iff.mp read
      cases answer with
      | none =>
          cases others
          exact Separated.proper_nil
      | some element =>
          obtain ⟨rest, u, readRest, final⟩ := bind_eq_ok_iff.mp others
          cases final
          obtain ⟨a, followed⟩ := element
          cases followed with
          | true => exact (ih t rest last readRest).cons
          | false =>
              -- Without a separator the next round finds the end.
              obtain ⟨v, ends⟩ := stops s a t here
              have nothing : rest = [] := by
                cases fuel with
                | zero => cases readRest
                | succ fuel =>
                    obtain ⟨answer, w, again, others⟩ := bind_eq_ok_iff.mp readRest
                    rw [ends] at again
                    cases again
                    cases others
                    rfl
              rw [nothing]
              exact Separated.proper_single

/-- One element, and a comma behind it unless the end comes next. -/
def element (ahead : Ahead) (p : Parser α) : Parser (Option (α × Bool)) := do
  if ← peek ahead then return none
  let a ← p
  if ← peek ahead then return some (a, false)
  let _ ← symbol ","
  return some (a, true)

theorem element_stops {s t : State} (read : element ahead p s = .ok (some (a, false), t)) :
    element ahead p t = .ok (none, t) := by
  have seen (s : State) : peek ahead s = .ok (ahead s.tokens, s) := rfl
  unfold element at read
  obtain ⟨isEnd, s', look, behind⟩ := bind_eq_ok_iff.mp read
  rw [seen] at look
  cases look
  cases present : ahead s.tokens with
  | true =>
      rw [present] at behind
      cases behind
  | false =>
      rw [present] at behind
      obtain ⟨b, u, _, behind⟩ := bind_eq_ok_iff.mp behind
      obtain ⟨isEnd, u', look, behind⟩ := bind_eq_ok_iff.mp behind
      rw [seen] at look
      cases look
      -- No separator was taken, so the end was seen behind the element, and there it is seen again.
      cases ends : ahead u.tokens with
      | true =>
          rw [ends] at behind
          cases behind
          refine bind_eq_ok_iff.mpr ⟨_, _, seen t, ?_⟩
          rw [ends]
          rfl
      | false =>
          rw [ends] at behind
          obtain ⟨_, _, _, final⟩ := bind_eq_ok_iff.mp behind
          cases final

theorem proper_upTo {close : String} : Ensures (upTo close p) Separated.Proper := by
  have elements : Ensures (many (element (.symbol close) p)) Separated.Proper :=
    ensures_bind fun _ => proper_rounds fun _ _ t read => ⟨t, element_stops read⟩
  exact elements

theorem proper_chain : Ensures (chain separator ahead p) Separated.Proper := by
  have from_ (fuel : Nat) : Ensures (chainFrom separator ahead p fuel) Separated.Proper := by
    induction fuel with
    | zero => exact ensures_refuse
    | succ fuel ih =>
        refine ensures_bind fun isEnd => ?_
        cases isEnd with
        | true => exact ensures_pure Separated.proper_nil
        | false =>
            refine ensures_bind fun a => ensures_bind fun followed => ?_
            cases followed with
            | true => exact ih.bind fun _ proper => ensures_pure proper.cons
            | false => exact ensures_pure Separated.proper_single
  exact ensures_bind fun _ => from_ _

end Lists

end Parser

open Replica.Parser

variable {level : Level}

namespace Generics

theorem proper_read : Ensures (read level) fun generics => generics.parameters.Proper := by
  refine ensures_bind fun opened => ?_
  cases opened with
  | false => exact ensures_pure Separated.proper_nil
  | true =>
      refine Ensures.retold (ensures_bind fun _ => proper_upTo.bind fun parameters proper => ?_)
      exact ensures_bind fun _ => ensures_pure proper

theorem proper_readClause : Ensures (readClause level) fun clause => (clause.getD []).Proper := by
  refine ensures_bind fun present => ?_
  cases present with
  | false => exact ensures_pure Separated.proper_nil
  | true =>
      refine Ensures.retold (ensures_bind fun _ => ensures_bind fun opened => ?_)
      cases opened with
      | true => exact ensures_bind fun _ => proper_chain.bind fun _ proper => ensures_pure proper
      | false => exact proper_chain.bind fun _ proper => ensures_pure proper

end Generics

namespace Declaration

theorem proper_readStruct : Ensures (readStruct level) fun parts => (parts.1.getD []).Proper := by
  refine Generics.proper_readClause.bind fun clause proper => ensures_bind fun parenthesized => ?_
  split
  next =>
    refine ensures_bind fun _ => Generics.proper_readClause.bind fun later properLater => ensures_bind fun stopped => ?_
    split
    next => exact ensures_bind fun _ => ensures_pure properLater
    next =>
      split
      next => exact ensures_refuse
      next => exact ensures_refuse
  next =>
    refine ensures_bind fun braced => ?_
    split
    next => exact ensures_bind fun _ => ensures_pure proper
    next =>
      refine ensures_bind fun stopped => ?_
      split
      next => exact ensures_bind fun _ => ensures_pure proper
      next =>
        split
        next => exact ensures_refuse
        next => exact ensures_refuse

theorem proper_readBody {kind : String} : Ensures (readBody level kind) fun parts => (parts.1.getD []).Proper := by
  unfold readBody
  split
  next => exact proper_readStruct.bind fun _ proper => ensures_pure proper
  next =>
    refine Generics.proper_readClause.bind fun clause proper => ?_
    split
    next => exact ensures_bind fun _ => ensures_bind fun _ => ensures_pure proper
    next => exact ensures_bind fun _ => ensures_pure proper

theorem proper_readBehind {attributes : List Attribute} :
    Ensures (readBehind level attributes) fun d => d.generics.Proper := by
  refine ensures_bind fun _ => ensures_bind fun _ => Generics.proper_read.bind fun _ parameters => ?_
  exact proper_readBody.bind fun _ clause => ensures_pure ⟨parameters, clause⟩

theorem proper_read : Ensures (read level) fun d => d.generics.Proper :=
  ensures_bind fun _ => proper_readBehind

end Declaration

namespace Implementation

theorem proper_readBehind {lenient : Bool} {attributes : List Attribute} :
    Ensures (readBehind level lenient attributes) fun answer => answer.1.generics.Proper := by
  unfold readBehind
  extract_lets behindVisibility
  have proper (visible : Bool) : Ensures (behindVisibility visible) fun answer => answer.1.generics.Proper := by
    refine ensures_bind ?_
    rintro ⟨_, head⟩
    refine ensures_bind fun opened => ?_
    extract_lets behindGenerics
    have properBehind (generics : Generics) (parameters : generics.parameters.Proper) :
        Ensures (behindGenerics generics) fun answer => answer.1.generics.Proper := by
      refine ensures_bind fun _ => ensures_bind fun _ => ensures_bind fun _ => ?_
      extract_lets constant behindConstant
      have rest : Ensures (behindConstant ()) fun answer => answer.1.generics.Proper :=
        ensures_bind fun _ => Generics.proper_readClause.bind fun _ clause =>
          ensures_bind fun _ => ensures_bind fun _ => ensures_pure ⟨parameters, clause⟩
      split
      next => exact ensures_bind fun _ => ensures_bind fun _ => rest
      next => exact rest
    split
    next => exact Generics.proper_read.bind properBehind
    next => exact properBehind Generics.empty Separated.proper_nil
  split
  next => exact ensures_bind proper
  next => exact proper false

end Implementation

namespace Item

/-- The generics of the item are separated, if it is kept in parts. -/
def Proper : Item → Prop
  | .declaration d => d.generics.Proper
  | .implementation block => block.generics.Proper
  | .other _ _ _ => True

theorem proper_read : Ensures (read level) Item.Proper := by
  refine Ensures.consuming (ensures_bind fun choice => ?_)
  cases choice with
  | summary p => exact ensures_bind fun _ => ensures_pure trivial
  | declaration => exact Declaration.proper_read.bind fun _ proper => ensures_pure proper
  | implementation =>
      refine Ensures.bind (Ensures.capture (Ensures.verbatimIf
        (ensures_bind fun _ => Implementation.proper_readBehind))) fun answer proper => ?_
      refine ensures_pure ?_
      split
      next => trivial
      next => exact proper

end Item

namespace ClassDefinition

structure Proper (definition : ClassDefinition) : Prop where
  declaration : definition.declaration.Proper
  blocks : ∀ block ∈ definition.blocks, block.generics.Proper

theorem proper_readBlocks {fuel : Nat} :
    Ensures (readBlocks level fuel) fun blocks => ∀ block ∈ blocks, block.generics.Proper := by
  induction fuel with
  | zero => exact ensures_refuse
  | succ fuel ih =>
      refine ensures_bind fun ended => ?_
      cases ended with
      | true => exact ensures_pure fun _ member => absurd member List.not_mem_nil
      | false =>
          refine Item.proper_read.bind fun item proper => ?_
          cases item with
          | implementation block =>
              exact ih.bind fun blocks others => ensures_pure (List.forall_mem_cons.mpr ⟨proper, others⟩)
          | declaration d => exact ensures_throw
          | other kind name tokens => exact ensures_throw

theorem proper_read : Ensures (read level) ClassDefinition.Proper := by
  refine ensures_bind fun ended => ?_
  have behind : Ensures (do
      let declaration ← Item.read level
      return ⟨declaration, ← readBlocks level (Token.weightAll (← get).tokens + 1)⟩) ClassDefinition.Proper :=
    Item.proper_read.bind fun _ declaration => ensures_bind fun _ =>
      proper_readBlocks.bind fun _ blocks => ensures_pure ⟨declaration, blocks⟩
  cases ended with
  | true => exact ensures_bind fun _ => behind
  | false => exact behind

end ClassDefinition

theorem Source.proper_read {α : Type} {p : Level → Parser α} {holds : α → Prop} {scope : Span} {tokens : List Token}
    {a : α} (ensures : ∀ level, Ensures (p level) holds) (accepted : read p scope tokens = .ok a) : holds a := by
  obtain ⟨⟨b, s⟩, ran, final⟩ := Except.bind_eq_ok_iff.mp accepted
  have read : holds b := (ensures_bind fun _ => ensures _ : Ensures (leveled p) holds) _ b s ran
  simp only at final
  split at final
  next => cases final
  next =>
    cases final
    exact read

end Replica
