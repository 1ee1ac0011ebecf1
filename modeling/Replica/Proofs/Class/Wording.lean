import Mathlib.Data.List.Basic
import Replica.Class.Printer

/-!
What generated code says, apart from the places in a source that its tokens were taken from.
-/

namespace Replica

namespace Token

mutual

/-- The token without its place in a source. -/
def unplaced : Token → Token
  | .word text _ => .word text .origin
  | .mark char joint _ => .mark char joint .origin
  | .literal text _ => .literal text .origin
  | .group delimiter content _ => .group delimiter (unplacedAll content) .origin

def unplacedAll : List Token → List Token
  | [] => []
  | token :: rest => token.unplaced :: unplacedAll rest

end

/-- The same tokens, wherever they were taken from. -/
def Alike (first second : List Token) : Prop :=
  unplacedAll first = unplacedAll second

variable {first second third front back : List Token}

@[refl] theorem Alike.refl (tokens : List Token) : Alike tokens tokens := rfl

@[symm] theorem Alike.symm (alike : Alike first second) : Alike second first := Eq.symm alike

theorem Alike.trans (alike : Alike first second) (next : Alike second third) : Alike first third :=
  Eq.trans alike next

@[simp] theorem unplacedAll_append : unplacedAll (front ++ back) = unplacedAll front ++ unplacedAll back := by
  induction front with
  | nil => rfl
  | cons token front ih => simp only [List.cons_append, unplacedAll, ih]

@[simp] theorem unplacedAll_eq_nil_iff {tokens : List Token} : unplacedAll tokens = [] ↔ tokens = [] := by
  cases tokens <;> simp [unplacedAll]

@[simp] theorem unplacedAll_flatMap {α : Type} {items : List α} {shown : α → List Token} :
    unplacedAll (items.flatMap shown) = items.flatMap fun item => unplacedAll (shown item) := by
  induction items with
  | nil => rfl
  | cons item items ih => simp only [List.flatMap_cons, unplacedAll_append, ih]

@[simp] theorem unplacedAll_marks (cs : List Char) : unplacedAll (marks cs) = marks cs := by
  induction cs with
  | nil => rfl
  | cons c cs ih => simp only [marks, unplacedAll, unplaced, ih]

@[simp] theorem unplacedAll_spell (text : String) : unplacedAll (spell text) = spell text := by
  unfold spell
  split
  next => rfl
  next =>
    split
    next => rfl
    next => exact unplacedAll_marks _

@[simp] theorem unplacedAll_spellAll (texts : List String) : unplacedAll (spellAll texts) = spellAll texts := by
  simp [spellAll]

@[simp] theorem unplaced_braces (content : List Token) : (braces content).unplaced = braces (unplacedAll content) := by
  simp [braces, unplaced]

@[simp] theorem unplaced_parentheses (content : List Token) :
    (parentheses content).unplaced = parentheses (unplacedAll content) := by
  simp [parentheses, unplaced]

mutual

@[simp] theorem render_unplaced (token : Token) : token.unplaced.render = token.render := by
  cases token with
  | word => rfl
  | mark => rfl
  | literal => rfl
  | group delimiter content span =>
      have empty : (unplacedAll content).isEmpty = content.isEmpty := by cases content <;> rfl
      simp only [unplaced, render, renderAll_unplacedAll content, empty]

@[simp] theorem renderAll_unplacedAll (tokens : List Token) : renderAll (unplacedAll tokens) = renderAll tokens := by
  match tokens with
  | [] => rfl
  | [token] => simp only [unplacedAll, renderAll, render_unplaced token]
  | token :: next :: rest =>
      have joins : token.unplaced.joinsNext = token.joinsNext := by cases token <;> rfl
      have behind := renderAll_unplacedAll (next :: rest)
      simp only [unplacedAll] at behind
      simp only [unplacedAll, renderAll, render_unplaced token, joins, behind]

end

/-- The text of tokens does not tell where they were taken from. -/
theorem Alike.renderAll_eq (alike : Alike first second) : renderAll first = renderAll second := by
  rw [← renderAll_unplacedAll first, alike, renderAll_unplacedAll]

end Token

open Token

namespace Separated

variable {α β : Type} {f : α → β} {list : Separated α}

/-- Other elements with the same separators. -/
def mapItems (f : α → β) (list : Separated α) : Separated β :=
  list.map fun (a, followed) => (f a, followed)

theorem items_mapItems : (list.mapItems f).items = list.items.map f := by
  simp [mapItems, items, Function.comp_def]

theorem isEmpty_mapItems : (list.mapItems f).isEmpty = list.isEmpty := by
  simp [mapItems]

theorem getLast?_mapItems : (list.mapItems f).getLast?.all Prod.snd = list.getLast?.all Prod.snd := by
  rw [mapItems, List.getLast?_map]
  cases list.getLast? <;> rfl

theorem mapItems_push (a : α) : (list.push a).mapItems f = (list.mapItems f).push (f a) := by
  simp [mapItems, push, Function.comp_def]

theorem mapItems_extend (more : List α) : (list.extend more).mapItems f = (list.mapItems f).extend (more.map f) := by
  simp only [extend]
  induction more generalizing list with
  | nil => rfl
  | cons a more ih => rw [List.foldl_cons, ih, mapItems_push, List.map_cons, List.foldl_cons]

theorem unplacedAll_tokens {separator : Char} {shown : α → List Token} {shown' : β → List Token}
    (alike : ∀ a, unplacedAll (shown a) = shown' (f a)) :
    unplacedAll (list.tokens separator shown) = (list.mapItems f).tokens separator shown' := by
  induction list with
  | nil => rfl
  | cons pair list ih =>
      obtain ⟨a, followed⟩ := pair
      have split : Separated.tokens separator shown ((a, followed) :: list) =
          (shown a ++ if followed then [.mark separator false .origin] else []) ++
            Separated.tokens separator shown list := rfl
      rw [split, unplacedAll_append, unplacedAll_append, alike, ih]
      cases followed <;> rfl

end Separated

namespace Bound

variable {α β : Type} {f : α → β} {list : Separated α} {isLifetime : α → Bool} {isLifetime' : β → Bool}
  {shown : α → List Token} {shown' : β → List Token}

theorem mapItems_filter (same : ∀ a, isLifetime' (f a) = isLifetime a) :
    (Separated.mapItems f list).filter (fun (b, _) => isLifetime' b) =
      Separated.mapItems f (list.filter fun (a, _) => isLifetime a) := by
  simp only [Separated.mapItems, List.filter_map, Function.comp_def, same]

theorem unplacedAll_lifetimesFirst (alike : ∀ a, unplacedAll (shown a) = shown' (f a))
    (same : ∀ a, isLifetime' (f a) = isLifetime a) :
    unplacedAll (lifetimesFirst isLifetime shown list) = lifetimesFirst isLifetime' shown' (list.mapItems f) := by
  have others (a : α) : (!isLifetime' (f a)) = !isLifetime a := by rw [same]
  simp only [lifetimesFirst, commaTokens, mapItems_filter same,
    @mapItems_filter α β f list (!isLifetime ·) (!isLifetime' ·) others,
    unplacedAll_append, Separated.unplacedAll_tokens alike, Separated.isEmpty_mapItems, Separated.getLast?_mapItems]
  split
  next => rfl
  next => rfl

end Bound

/-- The parameter as another declaration repeats it, without its default and without its place in a source. -/
def GenericParameter.repeated (parameter : GenericParameter) : GenericParameter where
  kind := parameter.kind
  attributes := unplacedAll parameter.attributes
  head := unplacedAll parameter.head
  name := unplacedAll parameter.name
  bounds := unplacedAll parameter.bounds
  default := []

namespace Generics

/-- Both have the same parameters, but for their defaults, and the same predicates. -/
structure Repeats (first second : Generics) : Prop where
  parameters : first.parameters.mapItems GenericParameter.repeated =
    second.parameters.mapItems GenericParameter.repeated
  clause : (first.clause.getD []).mapItems unplacedAll = (second.clause.getD []).mapItems unplacedAll

variable {first second generics : Generics}

theorem unplacedAll_angled {shown shown' : GenericParameter → List Token}
    (alike : ∀ p, unplacedAll (shown p) = shown' p.repeated) :
    unplacedAll (generics.angled shown) =
      angled shown' ⟨generics.parameters.mapItems GenericParameter.repeated, none⟩ := by
  have same (p : GenericParameter) : isLifetime p.repeated = isLifetime p := rfl
  unfold angled
  rw [Separated.isEmpty_mapItems, ← Bound.unplacedAll_lifetimesFirst alike same]
  split
  next => rfl
  next => simp only [List.cons_append, unplacedAll, unplaced, unplacedAll_append]

theorem unplacedAll_header :
    unplacedAll generics.header = header ⟨generics.parameters.mapItems GenericParameter.repeated, none⟩ := by
  refine unplacedAll_angled fun p => ?_
  simp only [unplacedAll_append, GenericParameter.repeated]

theorem Repeats.alike_header (repeats : Repeats first second) : Token.Alike first.header second.header := by
  rw [Token.Alike, unplacedAll_header, unplacedAll_header, repeats.parameters]

theorem typeParameters_unplaced :
    generics.typeParameters.map unplacedAll =
      typeParameters ⟨generics.parameters.mapItems GenericParameter.repeated, none⟩ := by
  unfold typeParameters
  rw [Separated.items_mapItems, List.filter_map, List.map_map, List.map_map]
  rfl

theorem Repeats.typeParameters_unplaced_eq (repeats : Repeats first second) :
    first.typeParameters.map unplacedAll = second.typeParameters.map unplacedAll := by
  rw [typeParameters_unplaced, typeParameters_unplaced, repeats.parameters]

theorem unplacedAll_clauseTokens (predicates : Separated (List Token)) :
    unplacedAll (clauseTokens (some predicates)) = clauseTokens (some (predicates.mapItems unplacedAll)) := by
  have listed : unplacedAll (predicates.tokens ',' id) = (predicates.mapItems unplacedAll).tokens ',' id :=
    Separated.unplacedAll_tokens fun _ => rfl
  simp only [clauseTokens, Separated.isEmpty_mapItems]
  split
  next => rfl
  next => rw [unplacedAll, unplaced, listed]

theorem Repeats.alike_clauseTokens (repeats : Repeats first second) {more others : List (List Token)}
    (same : more.map unplacedAll = others.map unplacedAll) :
    Token.Alike (clauseTokens (some ((first.clause.getD []).extend more)))
      (clauseTokens (some ((second.clause.getD []).extend others))) := by
  unfold Token.Alike
  rw [unplacedAll_clauseTokens, unplacedAll_clauseTokens, Separated.mapItems_extend, Separated.mapItems_extend,
    repeats.clause, same]

end Generics

end Replica
