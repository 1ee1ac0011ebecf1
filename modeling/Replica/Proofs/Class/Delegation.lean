import Replica.Proofs.Class.Signatures

/-!
Constructors that leave the work to another function of the class. They are passed over if the call is the value of the
body. A call that is returned by a statement with a semicolon is not seen.
-/

namespace Replica

variable {className : String}

/-- The expression is a `return` of a value. Parentheses and invisible groups around it do not matter. -/
inductive ExpressionOutline.Returns : ExpressionOutline → Prop where
  | returned {value : ExpressionOutline} : Returns (.returned (some value))
  | parenthesized {inner : ExpressionOutline} (returns : Returns inner) : Returns (.parenthesized inner)
  | grouped {inner : ExpressionOutline} (returns : Returns inner) : Returns (.grouped inner)

/-- The statement calls a function of the class and makes the result that of the body. -/
inductive StatementOutline.Delegates (className : String) : StatementOutline → Prop where
  | value {outline : ExpressionOutline} (calls : outline.CallsClass className) :
      Delegates className (.expression outline false)
  | returned {outline : ExpressionOutline} (calls : outline.CallsClass className) (returns : outline.Returns) :
      Delegates className (.expression outline true)

namespace Function

variable {f : Function} {outline : ExpressionOutline}

/-- The only statement of the function leaves the work to another function of the class. -/
def Delegates (className : String) (f : Function) : Prop :=
  ∃ statement, f.statements = [statement] ∧ statement.Delegates className

theorem delegates_iff_of_delegates (delegates : f.Delegates className) :
    f.delegates className = true ↔ ∃ outline, f.statements = [.expression outline false] := by
  obtain ⟨statement, single, spelled⟩ := delegates
  rw [delegates_iff, single]
  cases spelled with
  | value calls => exact ⟨fun _ => ⟨_, rfl⟩, fun _ => ⟨_, rfl, calls⟩⟩
  | returned calls returns => simp

theorem not_constructs_of_delegates (delegates : f.delegates className = true) : ¬ f.Constructs className := by
  obtain ⟨outline, single, calls⟩ := delegates_iff.mp delegates
  exact fun constructs => constructs.direct outline single calls

/-- What a statement with a semicolon does is of no account. -/
theorem constructs_iff_of_terminated (terminated : f.statements = [.expression outline true]) :
    f.Constructs className ↔ ({ f with statements := [] } : Function).Constructs className := by
  have direct : ∀ outline, f.statements = [.expression outline false] → ¬ outline.CallsClass className := by
    simp [terminated]
  exact ⟨fun ⟨kept, primary, free, immediate, safe, returns, _⟩ =>
      ⟨kept, primary, free, immediate, safe, returns, by simp⟩,
    fun ⟨kept, primary, free, immediate, safe, returns, _⟩ =>
      ⟨kept, primary, free, immediate, safe, returns, direct⟩⟩

end Function

namespace Constructor

/-- A function whose value is a call of another function of the class is never selected. A selected function delegates
with a semicolon at its end if at all, and there its body counts no more than an empty one. -/
theorem select_passes_delegations (shape : Shape) (blocks : List Implementation) :
    (∀ f : Function, f.Delegates shape.name.text → (∃ outline, f.statements = [.expression outline false]) →
      f.delegates shape.name.text = true ∧ ¬ f.Constructs shape.name.text) ∧
    (∀ constructor, select shape blocks = .ok constructor → ∃ candidate,
      Candidate.First (Candidate.Builds shape.name.text (· ∈ shape.names)) blocks candidate ∧
      constructor = candidate.constructor ∧ (candidate.function.Delegates shape.name.text →
        ∃ outline, candidate.function.statements = [.expression outline true])) ∧
    ∀ (f : Function) (outline : ExpressionOutline), f.statements = [.expression outline true] →
      (f.Constructs shape.name.text ↔ ({ f with statements := [] } : Function).Constructs shape.name.text) := by
  refine ⟨fun f delegates unterminated => ?_, fun constructor selected => ?_, fun f outline terminated =>
    Function.constructs_iff_of_terminated terminated⟩
  · have seen := (Function.delegates_iff_of_delegates delegates).mpr unterminated
    exact ⟨seen, Function.not_constructs_of_delegates seen⟩
  · obtain ⟨_, candidate, first, rfl⟩ := select_eq_ok_iff.mp selected
    refine ⟨candidate, first, rfl, ?_⟩
    rintro ⟨statement, single, spelled⟩
    cases spelled with
    | value calls => exact absurd calls (first.1.constructs.direct _ single)
    | returned calls returns => exact ⟨_, single⟩

section Purse

open ClassDefinition Token

def purseStruct : Declaration where
  attributes := []
  head := spell "struct"
  name := ⟨"Purse", .origin⟩
  generics := Generics.empty
  body := .struct (.named [(plainField "coins" "u64" none, false)] .origin)
  stop := []

/-- A function that returns what the constructor makes of twice the coins. -/
def doubled (terminated : Bool) : Function :=
  plainConstructor "doubled" ["coins"]
    [.expression (.returned (some (.call (.path false [.bare "Self", .bare "new"])))) terminated]

/-- The constructor stands behind the function that leaves the work to it. -/
def purseBlock (terminated : Bool) : Implementation :=
  labelBlock none "Purse"
    [.function (doubled terminated), .function (plainConstructor "new" ["coins"] [.expression .plain false])] .origin

/-- With a semicolon behind the `return`, the function is taken for the constructor. -/
theorem select_returned_delegation :
    ∃ shape constructor, Shape.ofDeclaration purseStruct = .ok shape ∧
      (doubled true).Delegates shape.name.text ∧ (doubled true).delegates shape.name.text = false ∧
      select shape [purseBlock true] = .ok constructor ∧ constructor.name = (doubled true).signature.name := by
  have calls : (ExpressionOutline.returned (some (.call (.path false [.bare "Self", .bare "new"])))).CallsClass "Purse" :=
    ⟨_, _, _, _, .returned .core, .core, .inl rfl⟩
  exact ⟨_, _, rfl, ⟨_, rfl, .returned calls .returned⟩, rfl, rfl, rfl⟩

/-- The body of the copies of a purse with these tokens in the function that comes first. -/
def purseCopy? (body : List Token) : Option String :=
  let function (name : String) (body : List Token) : List Token :=
    spellAll ["fn", name] ++ parentheses (spellAll ["coins", ":", "u64"]) :: spellAll ["->", "Self"] ++ [braces body]
  let functions := function "doubled" body ++ function "new" (spell "Self" ++ [braces (spell "coins")])
  let tokens := spellAll ["struct", "Purse"] ++ braces (spellAll ["coins", ":", "u64"]) ::
    spellAll ["impl", "Purse"] ++ [braces functions]
  (ClassDefinition.ofTokens tokens).toOption.bind fun definition =>
    definition.expand.toOption.map fun expansion => renderAll expansion.body.tokens

example :
    let call := spellAll ["return", "Self", "::", "new"] ++ [parentheses (spellAll ["coins", "+", "coins"])]
    purseCopy? call = some "Self :: new (Self :: __deep_copy_value (& self . coins))" ∧
      purseCopy? (call ++ spell ";") = some "Self :: doubled (Self :: __deep_copy_value (& self . coins))" := by
  decide +kernel

end Purse

end Constructor

end Replica
