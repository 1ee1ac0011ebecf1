import Replica.Proofs.Class.Headers

/-!
What a constructor asks of the parameters of its class. Both generated blocks ask the same, if the constructor has no
parameters of its own. Otherwise its predicates stay where they are, also those that do not speak of its parameters.
-/

namespace Replica

open Token

namespace Token

mutual

def words : Token → List String
  | .word text _ => [text]
  | .group _ content _ => wordsAll content
  | _ => []

/-- All words among the tokens, those inside groups included. -/
def wordsAll : List Token → List String
  | [] => []
  | token :: rest => token.words ++ wordsAll rest

end

theorem wordsAll_append {front back : List Token} : wordsAll (front ++ back) = wordsAll front ++ wordsAll back := by
  induction front with
  | nil => rfl
  | cons token front ih => rw [List.cons_append, wordsAll, wordsAll, ih, List.append_assoc]

end Token

theorem Generics.wordsAll_clauseTokens {clause : Separated (List Token)} {predicate : List Token}
    (member : predicate ∈ clause.items) : wordsAll predicate ⊆ wordsAll (clauseTokens (some clause)) := by
  have present : clause ≠ [] := by
    rintro rfl
    cases member
  have shown : clauseTokens (some clause) = .word "where" .origin :: clause.tokens ',' id := by
    simp [clauseTokens, present]
  obtain ⟨⟨_, followed⟩, inClause, rfl⟩ := List.mem_map.mp member
  obtain ⟨front, back, rfl⟩ := List.append_of_mem inClause
  intro word isWord
  rw [shown]
  simp [Separated.tokens, wordsAll, wordsAll_append, isWord]

namespace GenericParameter

/-- The tokens have a word of the parameter's name among them. -/
def SpokenOf (parameter : GenericParameter) (tokens : List Token) : Prop :=
  ∃ word ∈ wordsAll parameter.name, word ∈ wordsAll tokens

end GenericParameter

namespace Expansion

variable {expansion : Expansion} {clause : Separated (List Token)}

/-- Two blocks are generated, and both stand under this clause. -/
def Restricted (expansion : Expansion) (clause : Separated (List Token)) : Prop :=
  ∃ header trait selfType inherent copying, expansion.tokens =
    spell "impl" ++ header ++ selfType ++ Generics.clauseTokens (some clause) ++ [braces inherent] ++
      (attributeTokens (spell "automatically_derived") ++ spell "impl" ++ header ++ trait ++ spell "for" ++ selfType ++
        Generics.clauseTokens (some clause) ++ [braces copying])

theorem restricted_clause :
    expansion.Restricted ((expansion.generics.clause.getD []).extend expansion.boundPredicates) :=
  ⟨expansion.generics.header, expansion.traitTokens, expansion.selfType, _, _, rfl⟩

theorem Restricted.wordsAll_subset (restricted : expansion.Restricted clause) {predicate : List Token}
    (member : predicate ∈ clause.items) : wordsAll predicate ⊆ wordsAll expansion.tokens := by
  obtain ⟨header, trait, selfType, inherent, copying, shown⟩ := restricted
  intro word isWord
  have inClause := Generics.wordsAll_clauseTokens member isWord
  rw [shown]
  simp [wordsAll_append, inClause]

end Expansion

namespace Candidate

/-- What a call of the function asks, beside the bounds of parameters: the predicates of its block, and its own. -/
def requirements (candidate : Candidate) : List (List Token) :=
  (candidate.block.generics.clause.getD []).items ++ (candidate.function.signature.generics.clause.getD []).items

end Candidate

namespace ClassDefinition

variable {definition : ClassDefinition} {expansion : Expansion}

/-- Both blocks ask all that a call of the constructor asks, and behind it that values of the parameters can be copied.
A constructor with parameters of its own keeps its predicates: of what it asks, the blocks ask no more than its block
does. -/
theorem blocks_ask_requirements (expanded : definition.expand = .ok expansion) :
    ∃ d candidate clause demands, definition.declaration = .declaration d ∧
      Candidate.First (Candidate.Builds d.name.text d.Stores) definition.blocks candidate ∧
      expansion.Restricted clause ∧
      (∃ home, d.Home home ∧ d.Demands candidate.block.generics.parameters home demands) ∧
      (candidate.function.signature.generics.parameters = [] →
        clause.items = candidate.requirements ++ demands ∧
        ∀ predicate ∈ candidate.requirements, predicate ∈ clause.items) ∧
      (candidate.function.signature.generics.parameters ≠ [] →
        clause.items = (candidate.block.generics.clause.getD []).items ++ demands) := by
  obtain ⟨d, shape, constructor, declaration, scanned, selected, rfl⟩ := expand_eq_ok_iff.mp expanded
  obtain ⟨_, candidate, first, rfl⟩ := (Constructor.select_scanned_eq_ok_iff scanned).mp selected
  have accepted := Shape.options_accepted scanned
  have demands := @Expansion.demands_boundPredicates d shape candidate.generics candidate.block.selfType.tokens
    (.call candidate.function.signature.name
      (candidate.function.parameterNames.map (Expansion.argument shape))) accepted
  rw [candidate.parameters_generics] at demands
  have items : (((Expansion.byConstructor shape candidate.constructor).generics.clause.getD []).extend
      (Expansion.byConstructor shape candidate.constructor).boundPredicates).items =
        (candidate.block.generics.clause.getD []).items ++ candidate.ownPredicates ++
          (Expansion.byConstructor shape candidate.constructor).boundPredicates := by
    rw [Separated.items_extend]
    congr 1
    change (candidate.generics.clause.getD []).items = _
    rw [candidate.clause_extend, Separated.items_extend]
  refine ⟨d, candidate, _, _, declaration, first, Expansion.restricted_clause,
    ⟨_, Declaration.home_homeTokens accepted, demands⟩, fun plain => ?_, fun generic => ?_⟩
  · rw [Candidate.ownPredicates, if_pos plain] at items
    refine ⟨items, fun predicate member => ?_⟩
    rw [items]
    exact List.mem_append_left _ member
  · rw [Candidate.ownPredicates, if_neg generic, List.append_nil] at items
    exact items

theorem blocks_ask_requirements_gauge :
    ∃ (expansion : Expansion) (clause : Separated (List Token)),
      expand ⟨.declaration gaugeStruct, [gaugeBlock]⟩ = .ok expansion ∧ expansion.Restricted clause ∧
      gaugePredicate "T" "Sized" ∈ clause.items ∧ gaugePredicate "T" "Send" ∈ clause.items := by
  obtain ⟨expansion, expanded⟩ :
      ∃ expansion, expand ⟨.declaration gaugeStruct, [gaugeBlock]⟩ = .ok expansion := ⟨_, rfl⟩
  obtain ⟨d, ⟨block, f⟩, clause, _, _, first, restricted, _, plain, _⟩ := blocks_ask_requirements expanded
  obtain ⟨inBlocks, isItem⟩ := first.mem
  cases List.mem_singleton.mp inBlocks
  cases List.mem_singleton.mp isItem
  obtain ⟨_, asked⟩ := plain rfl
  exact ⟨expansion, clause, expanded, restricted, asked _ List.mem_cons_self,
    asked _ (List.mem_cons_of_mem _ List.mem_cons_self)⟩

section Bag

def bagStruct : Declaration where
  attributes := []
  head := spell "struct"
  name := ⟨"Bag", .origin⟩
  generics := ⟨[(⟨.type, [], [], spell "T", [], []⟩, false)], none⟩
  body := .struct (.named [(plainField "items" "Items" none, false)] .origin)
  stop := []

/-- A constructor with a parameter of its own, that asks something of the parameter of the class too. -/
def bagConstructor : Function :=
  let new := plainConstructor "new" ["items"] []
  { new with
    signature := { new.signature with
      generics :=
        { parameters := [(⟨.type, [], [], spell "I", [], []⟩, false)]
          clause := some [(spellAll ["T", ":", "Ord"], true), (spellAll ["I", ":", "Iterator"], false)] } } }

def bagBlock : Implementation :=
  { labelBlock none "Bag" [.function bagConstructor] .origin with generics := bagStruct.generics }

/-- The predicate of the class's parameter is asked by neither block. Nothing that is generated speaks of it. -/
theorem requirement_unasked :
    ∃ expansion, expand ⟨.declaration bagStruct, [bagBlock]⟩ = .ok expansion ∧
      Candidate.First (Candidate.Builds "Bag" bagStruct.Stores) [bagBlock] ⟨bagBlock, bagConstructor⟩ ∧
      ∃ predicate ∈ (bagConstructor.signature.generics.clause.getD []).items,
        (∀ parameter ∈ bagConstructor.signature.generics.parameters.items, ¬ parameter.SpokenOf predicate) ∧
        (∃ clause, expansion.Restricted clause) ∧
        ∀ clause, expansion.Restricted clause → predicate ∉ clause.items := by
  obtain ⟨expansion, expanded, unsaid⟩ : ∃ expansion, expand ⟨.declaration bagStruct, [bagBlock]⟩ = .ok expansion ∧
      "Ord" ∉ wordsAll expansion.tokens := ⟨_, rfl, by decide +kernel⟩
  obtain ⟨d, _, ⟨block, f⟩, declaration, _, first, _⟩ := expand_body expanded
  obtain ⟨inBlocks, isItem⟩ := first.mem
  cases declaration
  cases List.mem_singleton.mp inBlocks
  cases List.mem_singleton.mp isItem
  refine ⟨expansion, expanded, first, spellAll ["T", ":", "Ord"], List.mem_cons_self, ?_,
    ⟨_, Expansion.restricted_clause⟩, ?_⟩
  · intro parameter member spoken
    cases List.mem_singleton.mp member
    obtain ⟨word, isName, isSaid⟩ := spoken
    cases List.mem_singleton.mp isName
    exact absurd isSaid (by decide +kernel)
  · intro clause restricted asked
    have said : "Ord" ∈ wordsAll (spellAll ["T", ":", "Ord"]) := by decide +kernel
    exact unsaid (restricted.wordsAll_subset asked said)

end Bag

end ClassDefinition

end Replica
