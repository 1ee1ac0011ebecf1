import Replica.Proofs.Class.Headers

/-!
The names that an expansion declares. Its two blocks have three functions, of which one has a generic parameter of its
own. The names of this helper and of its parameter are fixed, and the method is called as the user says. Nothing keeps
the user from a name that is taken, and a name is declared twice only where the user chose such a name.
-/

namespace Replica

open Token

/-- The word without the mark of a raw word. Both stand for the same name. -/
def unmarked (text : String) : String :=
  match text.toList with
  | 'r' :: '#' :: rest => .ofList rest
  | _ => text

def Token.unmark : Token → Token
  | .word text span => .word (unmarked text) span
  | token => token

def Name.plain (name : Name) : String :=
  unmarked name.text

/-- The name that the parameter declares. That of a lifetime begins with a quote. -/
def GenericParameter.plain (parameter : GenericParameter) : String :=
  renderAll (parameter.name.map Token.unmark)

/-- A function as it is written: what stands in front of `fn` and behind its parameters is told as tokens. -/
structure FunctionText where
  front : List Token
  name : Name
  /-- The generic parameters of its own, each with what is asked of it. -/
  parameters : List (Name × List Token)
  behind : List Token

def FunctionText.tokens (function : FunctionText) : List Token :=
  let parameters :=
    if function.parameters.isEmpty then []
    else spell "<" ++ CopyBody.commaSeparated (function.parameters.map fun (name, asked) => name.token :: asked) ++
      spell ">"
  function.front ++ spell "fn" ++ function.name.token :: parameters ++ function.behind

/-- A block of functions as it is written. -/
structure BlockText where
  front : List Token
  generics : Generics
  /-- What stands between the generic parameters and the functions. -/
  subject : List Token
  functions : List FunctionText

namespace BlockText

def tokens (block : BlockText) : List Token :=
  block.front ++ spell "impl" ++ block.generics.header ++ block.subject ++
    [braces (block.functions.flatMap FunctionText.tokens)]

def names (block : BlockText) : List String :=
  block.functions.map fun function => function.name.plain

/-- No name is declared twice: not among the functions of the block and others beside them, and not among the generic
parameters of the block and of one of its functions. -/
@[mk_iff]
structure DeclaresOnce (block : BlockText) (others : List String) : Prop where
  functions : (block.names ++ others).Nodup
  parameters : ∀ function ∈ block.functions,
    (block.generics.parameters.items.map GenericParameter.plain ++
      function.parameters.map fun parameter => parameter.1.plain).Nodup

instance {block : BlockText} {others : List String} : Decidable (block.DeclaresOnce others) :=
  decidable_of_iff' _ (block.declaresOnce_iff others)

end BlockText

namespace Declaration

/-- The name in the last entry for the method. -/
def method? (d : Declaration) : Option Name :=
  ((ContainerOptions.reading d.attributes).picked ContainerOptions.Entry.method?).getLast?

def method (d : Declaration) : Name :=
  d.method?.getD ⟨"copy", .origin⟩

/-- The user chose no name that is taken: not for the method, not for a generic parameter, and not for a function
beside those that are generated. -/
@[mk_iff]
structure Spares (d : Declaration) (parameters : Separated GenericParameter) (others : List String) : Prop where
  method : ∀ name ∈ d.method?, name.plain ≠ helperName
  parameter : ∀ parameter ∈ parameters.items, parameter.plain ≠ helperParameter
  parameters : (parameters.items.map GenericParameter.plain).Nodup
  apart : others.Nodup
  helper : helperName ∉ others
  copy : d.method.plain ∉ others

instance {d : Declaration} {parameters : Separated GenericParameter} {others : List String} :
    Decidable (d.Spares parameters others) :=
  decidable_of_iff' _ (d.spares_iff parameters others)

theorem plain_method_eq_helperName_iff {d : Declaration} :
    d.method.plain = helperName ↔ ∃ name ∈ d.method?, name.plain = helperName := by
  unfold method
  cases d.method? with
  | none =>
      have apart : unmarked "copy" ≠ helperName := by decide
      simpa [Name.plain] using apart
  | some name => simp

theorem spares_cons_iff {d : Declaration} {parameters : Separated GenericParameter} {text : String}
    {others : List String} :
    d.Spares parameters (text :: others) ↔
      d.Spares parameters others ∧ text ∉ others ∧ text ≠ helperName ∧ text ≠ d.method.plain := by
  constructor
  · intro spares
    obtain ⟨fresh, apart⟩ := List.nodup_cons.mp spares.apart
    obtain ⟨notHelper, helper⟩ := not_or.mp (List.mem_cons.not.mp spares.helper)
    obtain ⟨notCopy, copy⟩ := not_or.mp (List.mem_cons.not.mp spares.copy)
    exact ⟨⟨spares.method, spares.parameter, spares.parameters, apart, helper, copy⟩, fresh, Ne.symm notHelper,
      Ne.symm notCopy⟩
  · intro ⟨spares, fresh, notHelper, notCopy⟩
    exact ⟨spares.method, spares.parameter, spares.parameters, List.nodup_cons.mpr ⟨fresh, spares.apart⟩,
      List.mem_cons.not.mpr (not_or.mpr ⟨notHelper.symm, spares.helper⟩),
      List.mem_cons.not.mpr (not_or.mpr ⟨notCopy.symm, spares.copy⟩)⟩

theorem method_eq {d : Declaration} {shape : Shape} (scanned : Shape.ofDeclaration d = .ok shape) :
    shape.options.methodName = d.method := by
  have last := (ContainerOptions.last_of_accepted (Shape.options_accepted scanned)).2.1
  rw [ContainerOptions.methodName, last]
  rfl

end Declaration

namespace Expansion

variable {expansion : Expansion} {d : Declaration} {parameters : Separated GenericParameter} {others : List String}

/-- The block of the type itself: the helper, which has a parameter of its own, and the method that copies. -/
def inherentText (expansion : Expansion) : BlockText where
  front := []
  generics := expansion.generics
  subject := expansion.selfType ++ expansion.clause
  functions :=
    [{ front :=
        attributeTokens (spell "doc" ++ [parentheses (spell "hidden")]) ++
          attributeTokens (spell "allow" ++ [parentheses (spell "dead_code")]) ++ attributeTokens (spell "inline")
       name := ⟨helperName, .origin⟩
       parameters := [(⟨helperParameter, .origin⟩, spell ":" ++ expansion.traitTokens)]
       behind := parentheses (spellAll ["value", ":", "&", helperParameter]) :: spellAll ["->", helperParameter] ++
        [braces (expansion.traitTokens ++ spellAll ["::", "deep_copy"] ++ [parentheses (spell "value")])] },
     { front :=
        attributeTokens (spellAll ["doc", "="] ++ [.literal (Quoted.encode expansion.documentation) .origin]) ++
          attributeTokens (spell "must_use") ++ spell "pub"
       name := expansion.method
       parameters := []
       behind := receiver :: spellAll ["->", "Self"] ++ [braces expansion.body.tokens] }]

/-- The block of the trait, whose one function calls the method. -/
def traitText (expansion : Expansion) : BlockText where
  front := attributeTokens (spell "automatically_derived")
  generics := expansion.generics
  subject := expansion.traitTokens ++ spell "for" ++ expansion.selfType ++ expansion.clause
  functions :=
    [{ front := attributeTokens (spell "inline")
       name := ⟨"deep_copy", .origin⟩
       parameters := []
       behind := receiver :: spellAll ["->", "Self"] ++
        [braces (spellAll ["Self", "::"] ++ expansion.method.token :: [parentheses (spell "self")])] }]

theorem tokens_eq_texts : expansion.tokens = expansion.inherentText.tokens ++ expansion.traitText.tokens := by
  -- Both sides spell the same words. They differ in where the spelling is cut into parts.
  have helper : ∀ tail, spellAll ["fn", helperName, "<", helperParameter, ":"] ++ tail =
      spell "fn" ++ (Name.token ⟨helperName, .origin⟩ ::
        (spell "<" ++ (Name.token ⟨helperParameter, .origin⟩ :: (spell ":" ++ tail)))) := fun _ => rfl
  have copied : ∀ tail, spellAll ["pub", "fn"] ++ tail = spell "pub" ++ (spell "fn" ++ tail) := fun _ => rfl
  have traited : ∀ tail, spellAll ["fn", "deep_copy"] ++ tail =
      spell "fn" ++ (Name.token ⟨"deep_copy", .origin⟩ :: tail) := fun _ => rfl
  simp only [tokens, inherentBlock, traitBlock, helperFunction, copyMethod, traitMethod, BlockText.tokens,
    inherentText, traitText, FunctionText.tokens, CopyBody.commaSeparated, List.flatMap_cons, List.flatMap_nil,
    List.map_cons, List.map_nil, List.isEmpty_cons, List.isEmpty_nil, Bool.false_eq_true, if_true, if_false,
    List.append_assoc, List.cons_append, List.nil_append, List.append_nil, helper, copied, traited]

/-- No name is declared twice. The functions of the type stand beside others of these names, that of the trait stands
alone. -/
def DeclaresOnce (expansion : Expansion) (others : List String) : Prop :=
  expansion.inherentText.DeclaresOnce others ∧ expansion.traitText.DeclaresOnce []

instance : Decidable (expansion.DeclaresOnce others) :=
  inferInstanceAs (Decidable (_ ∧ _))

theorem names_inherentText : expansion.inherentText.names = [helperName, expansion.method.plain] := by
  have helper : unmarked helperName = helperName := by decide
  simp [inherentText, BlockText.names, Name.plain, helper]

theorem inherentText_declaresOnce_iff :
    expansion.inherentText.DeclaresOnce others ↔
      ([helperName, expansion.method.plain] ++ others).Nodup ∧
        (expansion.generics.parameters.items.map GenericParameter.plain ++ [helperParameter]).Nodup := by
  have parameter : unmarked helperParameter = helperParameter := by decide
  constructor
  · intro ⟨functions, parameters⟩
    have own := parameters _ List.mem_cons_self
    rw [names_inherentText] at functions
    rw [List.map_singleton, Name.plain, parameter] at own
    exact ⟨functions, own⟩
  · intro ⟨functions, own⟩
    refine ⟨by rwa [names_inherentText], fun function member => ?_⟩
    obtain rfl | rfl : function = _ ∨ function = _ := by simpa [inherentText] using member
    · rw [List.map_singleton, Name.plain, parameter]
      exact own
    · rw [List.map_nil, List.append_nil]
      exact (List.nodup_append.mp own).1

theorem traitText_declaresOnce_iff :
    expansion.traitText.DeclaresOnce [] ↔
      (expansion.generics.parameters.items.map GenericParameter.plain).Nodup := by
  constructor
  · intro ⟨_, parameters⟩
    have own := parameters _ List.mem_cons_self
    rwa [List.map_nil, List.append_nil] at own
  · intro own
    refine ⟨List.pairwise_singleton .., fun function member => ?_⟩
    obtain rfl := List.mem_singleton.mp member
    rwa [List.map_nil, List.append_nil]

/-- A name is declared twice only where the user chose one that is taken. -/
theorem declaresOnce_iff_spares (method : expansion.method = d.method) :
    expansion.DeclaresOnce others ↔ d.Spares expansion.generics.parameters others := by
  unfold DeclaresOnce
  rw [inherentText_declaresOnce_iff, traitText_declaresOnce_iff, method]
  constructor
  · intro ⟨⟨functions, own⟩, parameters⟩
    obtain ⟨noHelper, behind⟩ := List.nodup_cons.mp functions
    obtain ⟨noCopy, apart⟩ := List.nodup_cons.mp behind
    obtain ⟨unchosen, noHelper⟩ := not_or.mp (List.mem_cons.not.mp noHelper)
    refine ⟨fun name given same => unchosen ?_, fun parameter member same => ?_, parameters, apart, noHelper, noCopy⟩
    · exact (Declaration.plain_method_eq_helperName_iff.mpr ⟨name, given, same⟩).symm
    · obtain ⟨_, _, differ⟩ := List.nodup_append.mp own
      exact differ _ (List.mem_map_of_mem member) _ (List.mem_singleton_self _) same
  · intro spares
    have unchosen : d.method.plain ≠ helperName := fun same =>
      have ⟨name, given, same⟩ := Declaration.plain_method_eq_helperName_iff.mp same
      spares.method name given same
    refine ⟨⟨?_, ?_⟩, spares.parameters⟩
    · refine List.nodup_cons.mpr ⟨?_, List.nodup_cons.mpr ⟨spares.copy, spares.apart⟩⟩
      exact List.mem_cons.not.mpr (not_or.mpr ⟨unchosen.symm, spares.helper⟩)
    · refine List.nodup_append.mpr ⟨spares.parameters, List.pairwise_singleton .., fun text among other isOther => ?_⟩
      obtain ⟨parameter, member, rfl⟩ := List.mem_map.mp among
      obtain rfl := List.mem_singleton.mp isOther
      exact spares.parameter parameter member

/-- The method is named as the entries of the struct say and the blocks have these parameters. The helper and the
method differ in name unless an entry names the method like the helper, and no name is declared twice if and only if the
user chose none that is taken. -/
structure Declares (expansion : Expansion) (d : Declaration) (parameters : Separated GenericParameter) : Prop where
  method : expansion.method = d.method
  base : expansion.generics.parameters = parameters
  apart : expansion.inherentText.names.Nodup ↔ ∀ name ∈ d.method?, name.plain ≠ helperName
  once (others : List String) : expansion.DeclaresOnce others ↔ d.Spares parameters others

theorem build_declares {shape : Shape} {generics : Generics} {selfType : List Token} {body : CopyBody}
    (scanned : Shape.ofDeclaration d = .ok shape) :
    (build shape generics selfType body).Declares d generics.parameters := by
  have method : (build shape generics selfType body).method = d.method := Declaration.method_eq scanned
  refine ⟨method, rfl, ?_, fun others => declaresOnce_iff_spares method⟩
  rw [names_inherentText, method]
  have differ := (@Declaration.plain_method_eq_helperName_iff d).not
  simpa [eq_comm] using differ

theorem expand_declares {definition : ClassDefinition} (expanded : definition.expand = .ok expansion) :
    ∃ d candidate, definition.declaration = .declaration d ∧ expansion.Calls d definition.blocks candidate ∧
      expansion.Declares d candidate.block.generics.parameters := by
  obtain ⟨d, shape, constructor, declaration, scanned, selected, rfl⟩ := ClassDefinition.expand_eq_ok_iff.mp expanded
  obtain ⟨_, candidate, first, rfl⟩ := (Constructor.select_scanned_eq_ok_iff scanned).mp selected
  refine ⟨d, candidate, declaration, byConstructor_calls scanned first, ?_⟩
  rw [← candidate.parameters_generics]
  exact build_declares scanned

/-- Whatever is declared twice, the user chose a name for it that is taken. An expansion consists of two blocks, in
which the helper has a parameter of its own. Where the struct itself is the base the blocks have the parameters of the
struct, and where it is a constructor those of its block. The constructor is then among the functions of the type, and
must be called neither like the helper nor like the method. -/
theorem declares_once_unless_chosen :
    (∀ expansion : Expansion, expansion.tokens = expansion.inherentText.tokens ++ expansion.traitText.tokens) ∧
    (∀ d expansion, derive d = .ok expansion → expansion.Declares d d.generics.parameters) ∧
    ∀ (definition : ClassDefinition) expansion, definition.expand = .ok expansion → ∃ d candidate,
      definition.declaration = .declaration d ∧ expansion.Calls d definition.blocks candidate ∧
        expansion.Declares d candidate.block.generics.parameters ∧
        (expansion.DeclaresOnce [candidate.function.signature.name.plain] ↔
          d.Spares candidate.block.generics.parameters [] ∧
            candidate.function.signature.name.plain ≠ helperName ∧
            candidate.function.signature.name.plain ≠ d.method.plain) := by
  refine ⟨fun expansion => tokens_eq_texts, ?_, ?_⟩
  · intro d expansion derived
    obtain ⟨shape, scanned, rfl⟩ := derive_eq_ok_iff.mp derived
    rw [← Shape.generics_eq scanned]
    exact build_declares scanned
  · intro definition expansion expanded
    obtain ⟨d, candidate, declaration, calls, declares⟩ := expand_declares expanded
    refine ⟨d, candidate, declaration, calls, declares, ?_⟩
    rw [declares.once, Declaration.spares_cons_iff]
    simp

section Vessel

/-- A struct with a parameter of this name and with an entry for the method. -/
def vesselStruct (method : Option String) (parameter : String) : Declaration where
  attributes := method.toList.map fun text => Helper.helperOf (spellAll ["method", "=", text])
  head := spell "struct"
  name := ⟨"Vessel", .origin⟩
  generics := ⟨[(⟨.type, [], [], spell parameter, [], []⟩, false)], none⟩
  body := .struct (.named [(ClassDefinition.plainField "load" parameter none, false)] .origin)
  stop := []

/-- A class of vessels with a constructor of this name. -/
def vessel (method : Option String) (parameter constructor : String) : ClassDefinition where
  declaration := .declaration (vesselStruct method parameter)
  blocks :=
    [{ ClassDefinition.labelBlock none "Vessel"
        [.function (ClassDefinition.plainConstructor constructor ["load"] [])] .origin with
       generics := ⟨[(⟨.type, [], [], spell parameter, [], []⟩, false)], none⟩ }]

theorem declares_once_unless_chosen_vessel :
    (∃ expansion, derive (vesselStruct (some "twin") "T") = .ok expansion ∧
      expansion.tokens = expansion.inherentText.tokens ++ expansion.traitText.tokens ∧
      expansion.Declares (vesselStruct (some "twin") "T") (vesselStruct (some "twin") "T").generics.parameters ∧
      expansion.DeclaresOnce ["fill"]) ∧
    ∃ expansion d candidate, (vessel none "T" "new").expand = .ok expansion ∧
      (vessel none "T" "new").declaration = .declaration d ∧
      expansion.Calls d (vessel none "T" "new").blocks candidate ∧
      expansion.Declares d candidate.block.generics.parameters := by
  obtain ⟨texts, derives, expands⟩ := declares_once_unless_chosen
  refine ⟨?_, ?_⟩
  · obtain ⟨expansion, derived⟩ : ∃ expansion, derive (vesselStruct (some "twin") "T") = .ok expansion := ⟨_, rfl⟩
    have declares := derives _ _ derived
    exact ⟨expansion, derived, texts expansion, declares, (declares.once _).mpr (by decide)⟩
  · obtain ⟨expansion, expanded⟩ : ∃ expansion, (vessel none "T" "new").expand = .ok expansion := ⟨_, rfl⟩
    obtain ⟨d, candidate, declaration, calls, declares, _⟩ := expands _ _ expanded
    exact ⟨expansion, d, candidate, expanded, declaration, calls, declares⟩

/-- Each of the names that the user chooses can be one that is taken: that of the method the helper's, that of a
parameter the one of the helper's own, and that of the constructor the method's. -/
theorem chosen_names_clash :
    (∃ expansion, derive (vesselStruct (some helperName) "T") = .ok expansion ∧
      expansion.inherentText.names = [helperName, helperName] ∧ ¬ expansion.DeclaresOnce []) ∧
    (∃ expansion, derive (vesselStruct none helperParameter) = .ok expansion ∧
      expansion.generics.parameters.items.map GenericParameter.plain = [helperParameter] ∧
      ¬ expansion.DeclaresOnce []) ∧
    ∃ expansion d candidate, (vessel none "T" "copy").expand = .ok expansion ∧
      expansion.Calls d (vessel none "T" "copy").blocks candidate ∧
      candidate.function.signature.name.plain = expansion.method.plain ∧
      ¬ expansion.DeclaresOnce [candidate.function.signature.name.plain] := by
  refine ⟨?_, ?_, ?_⟩
  · exact ⟨_, rfl, by decide, by decide⟩
  · exact ⟨_, rfl, by decide, by decide⟩
  · obtain ⟨expansion, expanded, body, method⟩ : ∃ expansion, (vessel none "T" "copy").expand = .ok expansion ∧
        expansion.body = .call ⟨"copy", .origin⟩ [.deep ⟨"load", .origin⟩] ∧ expansion.method = ⟨"copy", .origin⟩ :=
      ⟨_, rfl, rfl, rfl⟩
    obtain ⟨d, candidate, _, calls, declares⟩ := expand_declares expanded
    have name : candidate.function.signature.name = expansion.method := by
      injection calls.body.symm.trans body with name
      exact name.trans method.symm
    refine ⟨expansion, d, candidate, expanded, calls, congrArg Name.plain name, fun once => ?_⟩
    rw [name, declares.method] at once
    exact ((declares.once _).mp once).copy (List.mem_singleton_self _)

end Vessel

end Expansion

end Replica
