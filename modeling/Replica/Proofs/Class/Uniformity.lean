import Replica.Proofs.Class.Headers

/-!
What the path to the trait's home and the name of the method change. Generated code has holes for them, and between
the holes it is the same whatever they are filled with. What comes from the user stands between the holes, also where
it has the same words.
-/

namespace Replica

open Token

/-- What can be put into generated code. -/
inductive Hole where
  | home
  | method

def Hole.shown (home : List Token) (method : Name) : Hole → List Token
  | .home => home
  | .method => [method.token]

/-- A token of generated code, or a hole. A group may have holes within. -/
inductive Slot where
  | fixed (token : Token)
  | gap (hole : Hole)
  | group (delimiter : Delimiter) (content : List Slot)

namespace Slot

variable {shown : Hole → List Token} {front back : List Slot}

mutual

def fill (shown : Hole → List Token) : Slot → List Token
  | .fixed token => [token]
  | .gap hole => shown hole
  | .group delimiter content => [.group delimiter (fillAll shown content) .origin]

def fillAll (shown : Hole → List Token) : List Slot → List Token
  | [] => []
  | slot :: rest => slot.fill shown ++ fillAll shown rest

end

mutual

def holes : Slot → List Hole
  | .fixed _ => []
  | .gap hole => [hole]
  | .group _ content => holesAll content

/-- The holes in the order in which they stand, those inside groups included. -/
def holesAll : List Slot → List Hole
  | [] => []
  | slot :: rest => slot.holes ++ holesAll rest

end

/-- Tokens without holes between them. -/
def kept (tokens : List Token) : List Slot :=
  tokens.map fixed

@[simp] theorem fillAll_append : fillAll shown (front ++ back) = fillAll shown front ++ fillAll shown back := by
  induction front with
  | nil => rfl
  | cons slot front ih => rw [List.cons_append, fillAll, fillAll, ih, List.append_assoc]

@[simp] theorem holesAll_append : holesAll (front ++ back) = holesAll front ++ holesAll back := by
  induction front with
  | nil => rfl
  | cons slot front ih => rw [List.cons_append, holesAll, holesAll, ih, List.append_assoc]

@[simp] theorem fillAll_kept (tokens : List Token) : fillAll shown (kept tokens) = tokens := by
  induction tokens with
  | nil => rfl
  | cons token tokens ih => exact congrArg (token :: ·) ih

@[simp] theorem holesAll_kept (tokens : List Token) : holesAll (kept tokens) = [] := by
  induction tokens with
  | nil => rfl
  | cons token tokens ih => exact ih

/-- The slots of a list with separators. -/
def separated (separator : Char) (list : Separated (List Slot)) : List Slot :=
  list.flatMap fun element => element.1 ++ if element.2 then kept [.mark separator false .origin] else []

theorem fillAll_separated {separator : Char} {list : Separated (List Slot)} :
    fillAll shown (separated separator list) = (list.mapItems (fillAll shown)).tokens separator id := by
  induction list with
  | nil => rfl
  | cons element list ih =>
      obtain ⟨slots, followed⟩ := element
      change fillAll shown ((slots ++ if followed then kept [.mark separator false .origin] else []) ++
        separated separator list) = _
      rw [fillAll_append, ih]
      cases followed <;> simp [Separated.mapItems, Separated.tokens]

theorem holesAll_separated {separator : Char} {list : Separated (List Slot)} :
    holesAll (separated separator list) = list.items.flatMap holesAll := by
  induction list with
  | nil => rfl
  | cons element list ih =>
      obtain ⟨slots, followed⟩ := element
      change holesAll ((slots ++ if followed then kept [.mark separator false .origin] else []) ++
        separated separator list) = _
      rw [holesAll_append, ih]
      cases followed <;> simp [Separated.items]

end Slot

namespace Expansion

open Slot

variable {expansion : Expansion} {home : List Token} {method : Name}

/-- The parameters that are asked for values that can be copied. -/
def inferred (expansion : Expansion) : List (List Token) :=
  match expansion.bounds with
  | .given _ => []
  | .inferred parameters => parameters

def traitSlots : List Slot :=
  .gap .home :: kept (spellAll ["::", "DeepCopy"])

def boundSlots (expansion : Expansion) : List (List Slot) :=
  match expansion.bounds with
  | .given predicates => predicates.map kept
  | .inferred parameters => parameters.map fun parameter => kept (parameter ++ spell ":") ++ traitSlots

def clauseSlots (expansion : Expansion) : List Slot :=
  let list := ((expansion.generics.clause.getD []).mapItems kept).extend expansion.boundSlots
  if list.isEmpty then [] else .fixed (.word "where" .origin) :: separated ',' list

def helperSlots : List Slot :=
  kept (attributeTokens (spell "doc" ++ [parentheses (spell "hidden")]) ++
      attributeTokens (spell "allow" ++ [parentheses (spell "dead_code")]) ++ attributeTokens (spell "inline") ++
      spellAll ["fn", helperName, "<", helperParameter, ":"]) ++
    traitSlots ++
    kept (spell ">" ++ [parentheses (spellAll ["value", ":", "&", helperParameter])] ++
      spellAll ["->", helperParameter]) ++
    [.group .brace (traitSlots ++ kept (spellAll ["::", "deep_copy"] ++ [parentheses (spell "value")]))]

def copySlots (expansion : Expansion) : List Slot :=
  kept (attributeTokens (spellAll ["doc", "="] ++ [.literal (Quoted.encode expansion.documentation) .origin]) ++
      attributeTokens (spell "must_use") ++ spellAll ["pub", "fn"]) ++
    .gap .method :: kept (receiver :: spellAll ["->", "Self"] ++ [braces expansion.body.tokens])

def forwardSlots : List Slot :=
  kept (attributeTokens (spell "inline") ++ spellAll ["fn", "deep_copy"] ++ receiver :: spellAll ["->", "Self"]) ++
    [.group .brace (kept (spellAll ["Self", "::"]) ++ .gap .method :: kept [parentheses (spell "self")])]

/-- The generated code with holes: for the path in the bound and in the body of the helper, in the header of the
trait's block and in each inferred bound, and for the name where the method is defined and where it is called. -/
def template (expansion : Expansion) : List Slot :=
  kept (spell "impl" ++ expansion.generics.header ++ expansion.selfType) ++ expansion.clauseSlots ++
    [.group .brace (helperSlots ++ expansion.copySlots)] ++
    (kept (attributeTokens (spell "automatically_derived") ++ spell "impl" ++ expansion.generics.header) ++
      traitSlots ++ kept (spell "for" ++ expansion.selfType) ++ expansion.clauseSlots ++ [.group .brace forwardSlots])

theorem fillAll_traitSlots (shown : Hole → List Token) :
    fillAll shown traitSlots = shown .home ++ spellAll ["::", "DeepCopy"] := by
  rw [traitSlots, fillAll, fill, fillAll_kept]

theorem holesAll_traitSlots : holesAll traitSlots = [.home] := by
  rw [traitSlots, holesAll, holes, holesAll_kept, List.append_nil]

theorem fillAll_boundSlots :
    expansion.boundSlots.map (fillAll (Hole.shown home method)) =
      boundPredicates { expansion with home := home, method := method } := by
  unfold boundSlots boundPredicates
  cases expansion.bounds with
  | given predicates => simp [Function.comp_def]
  | inferred parameters => simp [Function.comp_def, fillAll_traitSlots, traitTokens, Hole.shown]

theorem holesAll_boundSlots : expansion.boundSlots.flatMap holesAll = expansion.inferred.map fun _ => .home := by
  unfold boundSlots inferred
  cases expansion.bounds with
  | given predicates => simp [List.flatMap_map]
  | inferred parameters => simp [List.flatMap_map, holesAll_traitSlots, ← List.map_eq_flatMap]

theorem fillAll_clauseSlots :
    fillAll (Hole.shown home method) expansion.clauseSlots =
      clause { expansion with home := home, method := method } := by
  have filled : (((expansion.generics.clause.getD []).mapItems kept).extend expansion.boundSlots).mapItems
      (fillAll (Hole.shown home method)) =
        (expansion.generics.clause.getD []).extend
          (boundPredicates { expansion with home := home, method := method }) := by
    rw [Separated.mapItems_extend, fillAll_boundSlots]
    congr 1
    simp [Separated.mapItems, Function.comp_def]
  have shown : clause { expansion with home := home, method := method } = Generics.clauseTokens (some
      ((expansion.generics.clause.getD []).extend
        (boundPredicates { expansion with home := home, method := method }))) := rfl
  rw [shown, ← filled, Generics.clauseTokens, Separated.isEmpty_mapItems, clauseSlots]
  split
  next => rfl
  next => rw [fillAll, fill, fillAll_separated, List.singleton_append]

theorem holesAll_clauseSlots : holesAll expansion.clauseSlots = expansion.inferred.map fun _ => .home := by
  have listed : (((expansion.generics.clause.getD []).mapItems kept).extend expansion.boundSlots).items.flatMap
      holesAll = expansion.inferred.map fun _ => .home := by
    rw [Separated.items_extend, List.flatMap_append, holesAll_boundSlots, Separated.items_mapItems, List.flatMap_map]
    simp
  unfold clauseSlots
  dsimp only
  split
  next empty =>
    rw [List.isEmpty_iff.mp empty] at listed
    exact listed
  next => rw [holesAll, holes, List.nil_append, holesAll_separated, listed]

theorem fillAll_helperSlots :
    fillAll (Hole.shown home method) helperSlots =
      helperFunction { expansion with home := home, method := method } := by
  simp only [helperSlots, fillAll_append, fillAll_kept, fillAll_traitSlots, fillAll, fill, List.append_nil,
    List.append_assoc]
  simp only [helperFunction, traitTokens, List.append_assoc, Hole.shown, braces]

theorem fillAll_method {front back : List Token} :
    fillAll (Hole.shown home method) (kept front ++ .gap .method :: kept back) = front ++ method.token :: back := by
  rw [fillAll_append, fillAll_kept, fillAll, fill, fillAll_kept]
  rfl

theorem fillAll_copySlots :
    fillAll (Hole.shown home method) expansion.copySlots =
      copyMethod { expansion with home := home, method := method } := by
  rw [copySlots, fillAll_method, copyMethod, List.append_assoc]
  rfl

theorem fillAll_forwardSlots :
    fillAll (Hole.shown home method) forwardSlots =
      traitMethod { expansion with home := home, method := method } := by
  rw [forwardSlots, fillAll_append, fillAll_kept, fillAll, fill, fillAll_method]
  rfl

/-- Whatever the path and the name are, the generated code is the template filled with them. -/
theorem fillAll_template :
    fillAll (Hole.shown home method) expansion.template =
      tokens { expansion with home := home, method := method } := by
  simp only [template, fillAll_append, fillAll_kept, fillAll_traitSlots, fillAll_clauseSlots, fillAll, fill,
    fillAll_copySlots, @fillAll_forwardSlots expansion, @fillAll_helperSlots expansion, List.append_nil]
  simp only [tokens, inherentBlock, traitBlock, traitTokens, Hole.shown, List.append_assoc, braces]

theorem holesAll_template :
    holesAll expansion.template =
      expansion.inferred.map (fun _ => .home) ++ [.home, .home, .method] ++
        (.home :: expansion.inferred.map (fun _ => .home) ++ [.method]) := by
  simp [template, helperSlots, copySlots, forwardSlots, holesAll_traitSlots, holesAll_clauseSlots, holesAll, holes]

/-- The inherent block defines a method of this name, and the method of the trait calls it. -/
def Forwards (expansion : Expansion) (method : Name) : Prop :=
  ∃ documented body inlined,
    expansion.copyMethod = documented ++ (spellAll ["pub", "fn"] ++
      method.token :: receiver :: (spellAll ["->", "Self"] ++ [braces body])) ∧
    expansion.traitMethod = inlined ++ (spellAll ["fn", "deep_copy"] ++ receiver :: (spellAll ["->", "Self"] ++
      [braces (spellAll ["Self", "::"] ++ [method.token, parentheses (spell "self")])]))

theorem forwards_method : expansion.Forwards expansion.method := by
  refine ⟨attributeTokens (spellAll ["doc", "="] ++ [.literal (Quoted.encode expansion.documentation) .origin]) ++
    attributeTokens (spell "must_use"), expansion.body.tokens, attributeTokens (spell "inline"), ?_, ?_⟩
  · rw [copyMethod, List.append_assoc, List.append_assoc]
    rfl
  · rw [traitMethod, List.append_assoc, List.append_assoc]
    rfl

end Expansion

namespace Helper

variable {α : Type} {vocabulary : Vocabulary α}

theorem Reading.append_assoc (first second third : Reading α) :
    (first.append second).append third = first.append (second.append third) := by
  obtain ⟨entries, _ | fault⟩ := first
  · obtain ⟨others, _ | fault⟩ := second
    · simp [append]
    · rfl
  · rfl

theorem ofAttributes_append {attributes others : List Attribute} :
    ofAttributes vocabulary (attributes ++ others) =
      (ofAttributes vocabulary attributes).append (ofAttributes vocabulary others) := by
  induction attributes with
  | nil => rfl
  | cons a attributes ih =>
      rw [List.cons_append, ofAttributes, ofAttributes]
      split
      next => rw [ih, Reading.append_assoc]
      next => exact ih

end Helper

namespace ContainerOptions

open Helper

variable {attributes others : List Attribute} {options : ContainerOptions} {path : PathText} {method : Name}

/-- A path and a name that are given behind all other entries are those that count. -/
theorem ofAttributes_append (accepted : ofAttributes attributes = .ok options)
    (groups : Groups Entry.vocabulary others [some (.home path), some (.method method)]) :
    ofAttributes (attributes ++ others) = .ok { options with home := some path, method := some method } := by
  obtain ⟨readable, folded⟩ := interpret_eq_ok_iff.mp accepted
  have follows := groups.follows
  rw [ofAttributes, interpret_eq_ok_iff, Helper.ofAttributes_append, Reading.append, readable]
  generalize Helper.ofAttributes Entry.vocabulary others = entered at follows
  obtain ⟨entries, fault⟩ := entered
  cases follows with
  | known isHome rest =>
      cases rest with
      | known isMethod rest =>
          cases rest
          refine ⟨rfl, ?_⟩
          rw [List.foldlM_append, Except.bind_eq_ok_iff]
          refine ⟨options, folded, foldlM_cons_eq_ok_iff.mpr ⟨_, _, isHome, rfl,
            foldlM_cons_eq_ok_iff.mpr ⟨_, _, isMethod, rfl, rfl⟩⟩⟩

end ContainerOptions

namespace Declaration

variable {d changed : Declaration} {path : PathText} {method : Name} {shape : Shape}

/-- The changed declaration gives a path and a name in its attributes, which else come to the same. The other
declaration gives neither. -/
structure Configured (d : Declaration) (path : PathText) (method : Name) (changed : Declaration) : Prop where
  else_same : changed = { d with attributes := changed.attributes }
  accepted : ∃ bound, ContainerOptions.ofAttributes d.attributes = .ok ⟨none, none, bound⟩ ∧
    ContainerOptions.ofAttributes changed.attributes = .ok ⟨some path, some method, bound⟩

theorem Configured.ofDeclaration (configured : d.Configured path method changed)
    (scanned : Shape.ofDeclaration d = .ok shape) :
    ∃ bound, shape.options = ⟨none, none, bound⟩ ∧
      Shape.ofDeclaration changed = .ok { shape with options := ⟨some path, some method, bound⟩ } := by
  obtain ⟨same, bound, accepted, changedAccepted⟩ := configured
  obtain ⟨kind, options, roles, struct, alsoAccepted, made, rfl⟩ := Shape.ofDeclaration_eq_ok_iff.mp scanned
  cases Except.ok.inj (accepted.symm.trans alsoAccepted)
  refine ⟨bound, rfl, ?_⟩
  rw [same] at changedAccepted ⊢
  exact Shape.ofDeclaration_eq_ok_iff.mpr ⟨kind, _, roles, struct, changedAccepted, made, rfl⟩

end Declaration

namespace Expansion

open Slot

variable {expansion other : Expansion} {path : PathText} {method : Name}

/-- The code of the other expansion is that of the first, with other fillings in the same holes. Each expansion calls
its own method. -/
structure Varies (expansion other : Expansion) (path : PathText) (method : Name) : Prop where
  tokens : expansion.tokens =
    fillAll (Hole.shown (spellAll ["::", "deepcopy_rs"]) ⟨"copy", .origin⟩) expansion.template
  other_tokens : other.tokens = fillAll (Hole.shown path.tokens method) expansion.template
  holes : holesAll expansion.template =
    expansion.inferred.map (fun _ => .home) ++ [.home, .home, .method] ++
      (.home :: expansion.inferred.map (fun _ => .home) ++ [.method])
  forwards : expansion.Forwards ⟨"copy", .origin⟩
  other_forwards : other.Forwards method

theorem varies_of_eq (home : expansion.home = spellAll ["::", "deepcopy_rs"])
    (named : expansion.method = ⟨"copy", .origin⟩) :
    expansion.Varies { expansion with home := path.tokens, method := method } path method := by
  refine ⟨?_, fillAll_template.symm, holesAll_template, named ▸ forwards_method, forwards_method⟩
  rw [fillAll_template, ← home, ← named]

theorem varies_build {shape : Shape} {generics : Generics} {selfType : List Token} {body : CopyBody}
    {bound : Option (List (List Token))} (options : shape.options = ⟨none, none, bound⟩) :
    (build shape generics selfType body).Varies
      (build { shape with options := ⟨some path, some method, bound⟩ } generics selfType body) path method := by
  have same : build { shape with options := ⟨some path, some method, bound⟩ } generics selfType body =
      { build shape generics selfType body with home := path.tokens, method := method } := by
    simp [build, boundsFor, options, ContainerOptions.homeTokens, ContainerOptions.methodName]
  rw [same]
  exact varies_of_eq (by simp [build, options, ContainerOptions.homeTokens]; rfl)
    (by simp [build, options, ContainerOptions.methodName])

end Expansion

namespace Declaration

variable {d changed : Declaration} {path : PathText} {method : Name}

theorem Configured.derive {expansion : Expansion} (configured : d.Configured path method changed)
    (derived : Expansion.derive d = .ok expansion) :
    ∃ other, Expansion.derive changed = .ok other ∧ expansion.Varies other path method := by
  obtain ⟨shape, scanned, rfl⟩ := Expansion.derive_eq_ok_iff.mp derived
  obtain ⟨bound, options, rescanned⟩ := configured.ofDeclaration scanned
  exact ⟨_, Expansion.derive_eq_ok_iff.mpr ⟨_, rescanned, rfl⟩, Expansion.varies_build options⟩

theorem Configured.expand {blocks : List Implementation} {expansion : Expansion}
    (configured : d.Configured path method changed)
    (expanded : ClassDefinition.expand ⟨.declaration d, blocks⟩ = .ok expansion) :
    ∃ other candidate, ClassDefinition.expand ⟨.declaration changed, blocks⟩ = .ok other ∧
      expansion.Varies other path method ∧ expansion.Calls d blocks candidate ∧
      other.Calls changed blocks candidate := by
  obtain ⟨_, shape, constructor, declares, scanned, selected, rfl⟩ := ClassDefinition.expand_eq_ok_iff.mp expanded
  cases declares
  obtain ⟨bound, options, rescanned⟩ := configured.ofDeclaration scanned
  obtain ⟨_, candidate, first, rfl⟩ := (Constructor.select_scanned_eq_ok_iff scanned).mp selected
  have refirst : Candidate.First (Candidate.Builds changed.name.text changed.Stores) blocks candidate := by
    rw [configured.else_same]
    exact first
  exact ⟨_, candidate, ClassDefinition.expand_eq_ok_iff.mpr ⟨changed, _, _, rfl, rescanned, selected, rfl⟩,
    Expansion.varies_build options, Expansion.byConstructor_calls scanned first,
    Expansion.byConstructor_calls rescanned refirst⟩

/-- The path to the trait's home and the name of the method change nothing but themselves. They stand in the helper's
bound and in its body, in the header of the trait's block and in each bound that is inferred, and where the method is
defined and called. All else is the same, whatever words the user has in it, and a class is built by the same
constructor. Entries for both behind those that a struct has are enough. -/
theorem uniform_in_home_and_method :
    (∀ (d changed : Declaration) path method, d.Configured path method changed →
      (∀ expansion, Expansion.derive d = .ok expansion →
        ∃ other, Expansion.derive changed = .ok other ∧ expansion.Varies other path method) ∧
      ∀ blocks expansion, ClassDefinition.expand ⟨.declaration d, blocks⟩ = .ok expansion →
        ∃ other candidate, ClassDefinition.expand ⟨.declaration changed, blocks⟩ = .ok other ∧
          expansion.Varies other path method ∧ expansion.Calls d blocks candidate ∧
          other.Calls changed blocks candidate) ∧
    ∀ (d : Declaration) others path method bound, ContainerOptions.ofAttributes d.attributes = .ok ⟨none, none, bound⟩ →
      Helper.Groups ContainerOptions.Entry.vocabulary others [some (.home path), some (.method method)] →
      d.Configured path method { d with attributes := d.attributes ++ others } := by
  refine ⟨fun d changed path method configured => ?_, fun d others path method bound accepted groups => ?_⟩
  · exact ⟨fun _ derived => configured.derive derived, fun _ _ expanded => configured.expand expanded⟩
  · exact ⟨rfl, bound, accepted, ContainerOptions.ofAttributes_append accepted groups⟩

section Mirror

open ClassDefinition Helper

/-- A struct in whose copies the default path and the default name occur as words of the user. -/
def mirrorStruct : Declaration where
  attributes := []
  head := spell "struct"
  name := ⟨"Mirror", .origin⟩
  generics := ⟨[(⟨.type, [], [], spell "T", [], []⟩, false)], none⟩
  body := .struct (.named
    [({ plainField "copy" "Image" none with
        attributes := [helperOf (spellAll ["with", "=", "::", "deepcopy_rs", "::", "copy"])] }, false)] .origin)
  stop := []

def mirrorBlock : Implementation :=
  { labelBlock none "Mirror" [.function (plainConstructor "copy" ["copy"] [])] .origin with
    generics := mirrorStruct.generics }

def mirrorEntries : List Attribute :=
  [helperOf (homeTokens .origin ++ .mark ',' false .origin :: methodTokens .origin)]

theorem uniform_in_home_and_method_mirror :
    let path := Path.ofWords (some (.origin, .origin)) ⟨"home", .origin⟩ []
    let changed := { mirrorStruct with attributes := mirrorStruct.attributes ++ mirrorEntries }
    mirrorStruct.Configured path ⟨"twin", .origin⟩ changed ∧
      (∃ expansion other, Expansion.derive mirrorStruct = .ok expansion ∧ Expansion.derive changed = .ok other ∧
        expansion.Varies other path ⟨"twin", .origin⟩) ∧
      ∃ expansion other, expand ⟨.declaration mirrorStruct, [mirrorBlock]⟩ = .ok expansion ∧
        expand ⟨.declaration changed, [mirrorBlock]⟩ = .ok other ∧ expansion.Varies other path ⟨"twin", .origin⟩ := by
  obtain ⟨uniform, configures⟩ := uniform_in_home_and_method
  have configured := configures mirrorStruct mirrorEntries _ _ none rfl
    (.helper rfl (delimits_helperOf _)
      (.cons (written_home .origin) false .origin (.last (written_method .origin))) .nil)
  obtain ⟨derives, expands⟩ := uniform _ _ _ _ configured
  obtain ⟨expansion, derived⟩ : ∃ expansion, Expansion.derive mirrorStruct = .ok expansion := ⟨_, rfl⟩
  obtain ⟨called, expanded⟩ :
      ∃ expansion, expand ⟨.declaration mirrorStruct, [mirrorBlock]⟩ = .ok expansion := ⟨_, rfl⟩
  obtain ⟨other, rederived, varies⟩ := derives expansion derived
  obtain ⟨recalled, candidate, reexpanded, alsoVaries, _⟩ := expands [mirrorBlock] called expanded
  exact ⟨configured, ⟨expansion, other, derived, rederived, varies⟩, called, recalled, expanded, reexpanded, alsoVaries⟩

example : (expand ⟨.declaration { mirrorStruct with attributes := mirrorEntries }, [mirrorBlock]⟩).map
    (fun expansion => (expansion.clause, expansion.body.tokens, expansion.traitMethod.drop 5)) =
      .ok (spellAll ["where", "T", ":", "::", "home", "::", "DeepCopy"],
        spellAll ["Self", "::", "copy"] ++
          [parentheses (spellAll ["::", "deepcopy_rs", "::", "copy"] ++ [parentheses (spellAll ["&", "self", ".", "copy"])])],
        spellAll ["->", "Self"] ++ [braces (spellAll ["Self", "::", "twin"] ++ [parentheses (spell "self")])]) := rfl

end Mirror

end Declaration

end Replica
