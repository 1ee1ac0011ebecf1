import Replica.Class.Expansion
import Replica.Text.Quoted
import Replica.Token.Spelling

/-!
Generated code as tokens: two implementation blocks for an expansion, and one call that
reports a failure.
-/

namespace Replica

open Token

/-- The function that copies a value of any type that can be copied. -/
def helperName : String := "__deep_copy_value"

def helperParameter : String := "__V"

def defaultCall : List Token :=
  spellAll ["::", "core", "::", "default", "::", "Default", "::", "default"] ++ [parentheses []]

def fieldReference (field : Name) : List Token :=
  spellAll ["&", "self", "."] ++ [field.token]

namespace CopyExpression

def tokens : CopyExpression → List Token
  | .deep field => spellAll ["Self", "::", helperName] ++ [parentheses (fieldReference field)]
  | .clone field =>
    spellAll ["::", "core", "::", "clone", "::", "Clone", "::", "clone"] ++
      [parentheses (fieldReference field)]
  | .custom path field => path.tokens ++ [parentheses (fieldReference field)]
  | .default => defaultCall

end CopyExpression

namespace CopyBody

def initializer (field : Name) (value : List Token) : List Token :=
  field.token :: spell ":" ++ value ++ spell ","

def commaSeparated : List (List Token) → List Token
  | [] => []
  | [last] => last
  | first :: rest => first ++ spell "," ++ commaSeparated rest

def tokens : CopyBody → List Token
  | .unit => spell "Self"
  | .literal copied skipped =>
    spell "Self" ++ [braces
      (copied.flatMap (fun (field, expression) => initializer field expression.tokens) ++
        skipped.flatMap fun field => initializer field defaultCall)]
  | .call constructor arguments =>
    spellAll ["Self", "::"] ++ constructor.token ::
      [parentheses (commaSeparated (arguments.map CopyExpression.tokens))]

end CopyBody

namespace Expansion

/-- The trait of values that can be copied. -/
def traitTokens (expansion : Expansion) : List Token :=
  expansion.home ++ spellAll ["::", "DeepCopy"]

def boundPredicates (expansion : Expansion) : List (List Token) :=
  match expansion.bounds with
  | .given predicates => predicates
  | .inferred parameters => parameters.map fun p => p ++ spell ":" ++ expansion.traitTokens

/-- The clause of both blocks: the predicates of the base, then the bounds. -/
def clause (expansion : Expansion) : List Token :=
  Generics.clauseTokens
    (some ((expansion.generics.clause.getD []).extend expansion.boundPredicates))

def attributeTokens (content : List Token) : List Token :=
  spell "#" ++ [brackets content]

def helperFunction (expansion : Expansion) : List Token :=
  attributeTokens (spell "doc" ++ [parentheses (spell "hidden")]) ++
    attributeTokens (spell "allow" ++ [parentheses (spell "dead_code")]) ++
    attributeTokens (spell "inline") ++
    spellAll ["fn", helperName, "<", helperParameter, ":"] ++ expansion.traitTokens ++ spell ">" ++
    [parentheses (spellAll ["value", ":", "&", helperParameter])] ++
    spellAll ["->", helperParameter] ++
    [braces (expansion.traitTokens ++ spellAll ["::", "deep_copy"] ++
      [parentheses (spell "value")])]

def documentation (expansion : Expansion) : String :=
  " Returns a deep copy of this `" ++ expansion.name.text ++ "`."

def receiver : Token :=
  parentheses (spellAll ["&", "self"])

def copyMethod (expansion : Expansion) : List Token :=
  attributeTokens (spellAll ["doc", "="] ++
      [.literal (Quoted.encode expansion.documentation) .origin]) ++
    attributeTokens (spell "must_use") ++
    spellAll ["pub", "fn"] ++ expansion.method.token :: receiver ::
    spellAll ["->", "Self"] ++ [braces expansion.body.tokens]

def inherentBlock (expansion : Expansion) : List Token :=
  spell "impl" ++ expansion.generics.header ++ expansion.selfType ++ expansion.clause ++
    [braces (expansion.helperFunction ++ expansion.copyMethod)]

def traitMethod (expansion : Expansion) : List Token :=
  attributeTokens (spell "inline") ++
    spellAll ["fn", "deep_copy"] ++ receiver :: spellAll ["->", "Self"] ++
    [braces (spellAll ["Self", "::"] ++ expansion.method.token ::
      [parentheses (spell "self")])]

def traitBlock (expansion : Expansion) : List Token :=
  attributeTokens (spell "automatically_derived") ++
    spell "impl" ++ expansion.generics.header ++ expansion.traitTokens ++ spell "for" ++
    expansion.selfType ++ expansion.clause ++ [braces expansion.traitMethod]

def tokens (expansion : Expansion) : List Token :=
  expansion.inherentBlock ++ expansion.traitBlock

end Expansion

/-- A call that makes the compiler report a message. -/
def reportTokens (message : String) : List Token :=
  spellAll ["::", "core", "::", "compile_error", "!"] ++
    [braces [.literal (Quoted.encode message) .origin]]

/-- All that is generated: an expansion, or the report of its failure. -/
def outcomeTokens : Except Failure Expansion → List Token
  | .ok expansion => expansion.tokens
  | .error failure => reportTokens failure.message

end Replica
