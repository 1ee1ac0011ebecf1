import Replica.Class.Definition
import Replica.Proofs.Memory.Orderliness
import Replica.Proofs.Memory.Rebuilding
import Replica.Proofs.Memory.Renewal

/-!
Copies of values whose classes have constructors. The copy is what the selected constructor makes of the copies of the
properties. So it has what the constructor brings about, and to copy it once more changes nothing.
-/

namespace Replica

/-- A call of a constructor on copies. -/
structure DeepCall where
  constructor : String
  /-- For each parameter the property whose deep copy is passed. Without one the default is. -/
  arguments : List (Option String)
deriving DecidableEq

namespace DeepCall

/-- What an argument is, if it is neither cloned nor made by a function of the user. -/
def argument? : CopyExpression → Option (Option String)
  | .deep field => some (some field.text)
  | .default => some none
  | .clone _ | .custom _ _ => none

def ofBody? : CopyBody → Option DeepCall
  | .call constructor arguments => (arguments.mapM argument?).map (⟨constructor.text, ·⟩)
  | .unit | .literal _ _ => none

/-- The call that makes the copies of the values of a class, of which these are the tokens. -/
def ofSource? (tokens : List Token) : Option DeepCall := do
  let definition ← (ClassDefinition.ofTokens tokens).toOption
  let expansion ← definition.expand.toOption
  ofBody? expansion.body

/-- What a call makes of the copies of the properties of a value. The accounts' constructors count the default for
nothing, that of libraries puts the name in capitals, and that of sorted vectors sorts, leaving alike parts in their
order. -/
inductive Makes (key : Value → Key) : DeepCall → Form → List Value → Value → Prop
  | account {constructor owner : String} {maker : AccountMaker} {balance : Int64} {form : Form} (copies : List Value)
      (opened : Form.account? constructor owner balance (some 0) = some form) :
      Makes key ⟨constructor, [some "owner", some "balance", none]⟩ (.account maker owner balance) copies
        (.node form copies)
  | library (name : String) (copies : List Value) :
      Makes key ⟨"open", [some "name", some "shelf"]⟩ (.library name) copies (.node (.library (Form.upper name)) copies)
  | sorted (copies : List Value) :
      Makes key ⟨"new", [some "items"]⟩ .sorted copies
        (.node .sorted (copies.mergeSort fun a b => (key a).le (key b)))

end DeepCall

section Sources

open Token

def functionSource (name : String) (parameters : List Token) (result : String) (body : List Token) : List Token :=
  spellAll ["pub", "fn", name] ++ parentheses parameters :: spellAll ["->", result] ++ [braces body]

def skipSource : List Token :=
  spell "#" ++ [brackets (spell "deep_copy" ++ [parentheses (spell "skip")])]

/-- Accounts know by which of their constructors they were made. The first only leaves the work to another, the second
knows of no balance, the third is not to be used for copies, and the fourth takes a bonus. -/
def accountSource : List Token :=
  let owner := spellAll ["owner", ":", "String"]
  let both := owner ++ spellAll [",", "balance", ":", "i64"]
  let account (balance : List Token) (maker : String) :=
    spell "Self" ++ [braces (spellAll ["owner", ",", "balance"] ++ balance ++
      spellAll [",", "built_by", ":"] ++ [.literal maker .origin])]
  let doubled := spellAll ["Self", "::", "new"] ++
    [parentheses (spellAll ["owner", ",", "balance", "*"] ++ [.literal "2" .origin])]
  spellAll ["pub", "struct", "Account"] ++
    [braces (both ++ spell "," ++ skipSource ++ spellAll ["built_by", ":", "&", "str"])] ++
    spellAll ["impl", "Account"] ++
    [braces (functionSource "doubled" both "Self" doubled ++
      functionSource "closed" owner "Self" (account (spell ":" ++ [.literal "0" .origin]) "\"closed\"") ++
      skipSource ++ functionSource "audited" both "Self" (account [] "\"audited\"") ++
      functionSource "with_bonus" (both ++ spellAll [",", "bonus", ":", "i64"]) "Self"
        (account (spellAll [":", "balance", "+", "bonus"]) "\"with_bonus\"") ++
      functionSource "new" both "Self" (account [] "\"new\""))]

def librarySource : List Token :=
  let shelf := spellAll ["shelf", ":", "Rc", "<", "RefCell", "<", "Shelf", ">", ">"]
  let body := spellAll ["name", ".", "make_ascii_uppercase"] ++ parentheses [] :: spellAll [";", "Library"] ++
    [braces (spellAll ["name", ",", "shelf"])]
  spellAll ["pub", "struct", "Library"] ++ [braces (spellAll ["name", ":", "String", ","] ++ shelf)] ++
    spellAll ["impl", "Library"] ++
    [braces (functionSource "open" (spellAll ["mut", "name", ":", "String", ","] ++ shelf) "Library" body)]

def sortedSource : List Token :=
  let items := spellAll ["items", ":", "Vec", "<", "T", ">"]
  let body := spellAll ["items", ".", "sort"] ++ parentheses [] :: spellAll [";", "Self"] ++ [braces (spell "items")]
  spellAll ["pub", "struct", "Sorted", "<", "T", ">"] ++ [braces items] ++
    spellAll ["impl", "<", "T", ":", "Ord", ">", "Sorted", "<", "T", ">"] ++
    [braces (functionSource "new" (spell "mut" ++ items) "Self" body)]

end Sources

namespace Form

/-- Values of classes that have a constructor, and no part that is shared by their copies. -/
def Classed : Form → Prop
  | .account _ _ _ | .library _ | .sorted => True
  | _ => False

/-- The class of the values of a form. -/
def source : Form → List Token
  | .account _ _ _ => accountSource
  | .library _ => librarySource
  | .sorted => sortedSource
  | _ => []

variable {form : Form}

theorem Classed.owning (classed : form.Classed) : Tree.Owning form := by
  rintro counter rfl
  exact classed

/-- No part of a value of a class is dropped when it is put together. -/
theorem Classed.dropped (classed : form.Classed) {α : Type} (key : α → Key) (absorb : α → α → α × List α)
    (parts : List α) : (form.copied.gather key absorb parts).dropped = [] := by
  cases form with
  | account | library | sorted => rfl
  | _ => exact classed.elim

theorem eq_withBonus_of_account? {constructor owner other : String} {balance amount : Int64} {bonus : Option Int64}
    (opened : account? constructor owner balance bonus = some (.account .withBonus other amount)) :
    constructor = "with_bonus" := by
  unfold account? at opened
  split at opened <;> simp_all

theorem gather_kept_of_sorted {α : Type} (key : α → Key) (absorb : α → α → α × List α) (parts : List α) :
    (Form.sorted.copied.gather key absorb parts).kept = parts.mergeSort fun a b => (key a).le (key b) := by
  simp only [copied, gather, Keyed.gathered, Keyed.sort_label, Keyed.map_snd_label]

theorem exists_call (classed : form.Classed) : ∃ call, DeepCall.ofSource? form.source = some call ∧
    ∀ (key : Value → Key) (copies : List Value),
      call.Makes key form copies (.node form.copied (form.copied.gather key Value.absorb copies).kept) := by
  cases form with
  | account maker owner balance =>
      have selected : DeepCall.ofSource? accountSource =
          some ⟨"with_bonus", [some "owner", some "balance", none]⟩ := by
        decide +kernel
      exact ⟨_, selected, fun key copies => .account copies (by simp [account?, copied])⟩
  | library name =>
      have selected : DeepCall.ofSource? librarySource = some ⟨"open", [some "name", some "shelf"]⟩ := by
        decide +kernel
      exact ⟨_, selected, fun key copies => .library name copies⟩
  | sorted =>
      have selected : DeepCall.ofSource? sortedSource = some ⟨"new", [some "items"]⟩ := by
        decide +kernel
      refine ⟨_, selected, fun key copies => ?_⟩
      rw [gather_kept_of_sorted]
      exact .sorted copies
  | _ => exact classed.elim

end Form

namespace Value

open Store Keyed

variable {store later : Store} {form : Form} {parts : List Value} {copy : Value}

theorem InTurn.exists_copy_of_handle {old : Store} {depth step : Nat} {sharing : Sharing} {address : Address}
    {values copies : List Value} (made : InTurn (copyTo depth) old values copies later)
    (found : values[step]? = some (.handle sharing address)) : ∃ new, copies[step]? = some (.handle sharing new) := by
  induction made generalizing step with
  | nil => cases found
  | cons copied _ ih =>
      cases step with
      | zero =>
          cases found
          obtain ⟨new, _, rfl⟩ := copyTo_handle_eq_ok_iff.mp copied
          exact ⟨new, rfl⟩
      | succ step => exact ih found

/-- The copy of a value of a class is what the selected constructor makes of the copies of its properties. Where these
are handles, they lead to allocations that are new, and that nothing else leads to. -/
theorem exists_call_of_copy (sound : store.Sound) (live : store.Live (.node form parts)) (classed : form.Classed)
    (made : (node form parts).copy.run store = (.ok copy, later)) :
    ∃ call copies, DeepCall.ofSource? form.source = some call ∧ InTurn Value.copy store parts copies later ∧
      copies.map later.partKey = parts.map store.partKey ∧ call.Makes later.partKey form copies copy ∧
      copy = .node form.copied (later.gather form.copied copies).kept ∧
      ∀ (step : Nat) (sharing : Sharing) (address : Address), parts[step]? = some (.handle sharing address) →
        ∃ new, copies[step]? = some (.handle sharing new) ∧ store.slots.size ≤ new ∧ later.count new = 1 := by
  have liveParts : ∀ part ∈ parts, store.Live part := live_of_part live
  obtain ⟨_, copies, middle, inTurn, assembled⟩ := (copyTo_node_eq_ok_iff classed.owning).mp made
  have stays : middle.release (addressesOfAll (middle.gather form.copied copies).dropped) = middle := by
    rw [Store.gather, classed.dropped]
    exact release_nil middle
  rw [Store.assemble, stays, Prod.mk.injEq] at assembled
  obtain ⟨rfl, rfl⟩ := assembled
  obtain ⟨call, selected, makes⟩ := Form.exists_call classed
  obtain ⟨grown, isNew, _⟩ := inTurn.grown sound liveParts (.refl store _)
  refine ⟨call, copies, selected, inTurn.of_copyTo sound (Nat.le_refl _) liveParts (.refl store _),
    inTurn.partKeys_eq sound (Nat.le_refl _) liveParts (.refl store _), makes _ copies, rfl, ?_⟩
  intro step sharing address found
  obtain ⟨new, here⟩ := inTurn.exists_copy_of_handle found
  have member := List.mem_of_getElem? here
  have beyond : store.slots.size ≤ new := by
    cases isNew _ member with
    | handle _ beyond => exact beyond
  have inCopies : new ∈ addressesOfAll copies := mem_addressesOfAll.mpr ⟨_, member, by simp [addresses]⟩
  have present := grown.growth.isSome_of_mem (List.mem_append_left _ (List.mem_append_left _ inCopies))
  obtain ⟨allocation, isThere⟩ := Option.isSome_iff_exists.mp present
  exact ⟨new, here, beyond, (count_of_get? isThere).trans (grown.growth.single new allocation beyond isThere)⟩

end Value

namespace Memory

open Store Value Keyed

variable {memory : Memory} {source : String}

/-- Whatever the steps are, and whichever cell somebody changes: if a value of a class leads to no struct with a shared
handle, its copy is what the selected constructor makes of the copies of its properties. An account keeps its owner and
its balance, to which no bonus is added. A library gets a shelf that nothing else leads to. A sorted vector holds the
copies of its parts in ascending order, those with equal keys in the order of the parts. The copy shows the same as its
own copies do, and the same as the original if all classes and trees that this leads to are as their constructors leave
them. -/
theorem copy_reestablishes {steps : List Step} {cell : Option (String × Trail)} {root copy : Value} {trail : Trail}
    {form : Form} {parts : List Value} {later : Store}
    (led : memory = (Memory.empty.after steps).mark true cell) (found : memory.lookup source = some root)
    (reached : memory.store.follow? trail root = some (.node form parts)) (classed : form.Classed)
    (leads : memory.store.LeadsTo Tree.Owning (.node form parts))
    (made : (node form parts).copy.run memory.store = (.ok copy, later)) :
    (∃ call copies, DeepCall.ofSource? form.source = some call ∧ InTurn Value.copy memory.store parts copies later ∧
      copies.map later.partKey = parts.map memory.store.partKey ∧ call.Makes later.partKey form copies copy ∧
      (∀ maker owner balance, form = .account maker owner balance → call.constructor = "with_bonus" ∧
        copy = .node (.account .withBonus owner balance) copies ∧
        (balance + 0).toInt = balance.toInt + (0 : Int64).toInt) ∧
      (∀ name, form = .library name → copy = .node (.library (Form.upper name)) copies ∧
        ∃ shelf new, parts[0]? = some (.handle .rc shelf) ∧ copies[0]? = some (.handle .rc new) ∧
          memory.store.slots.size ≤ new ∧ later.count new = 1) ∧
      (form = .sorted → ∃ kept, copy = .node .sorted kept ∧ kept.Perm copies ∧
        Key.Ascending (kept.map later.partKey) ∧
        ∀ sought, kept.filter (hasKey later.partKey sought) = copies.filter (hasKey later.partKey sought))) ∧
    ∃ tree shown, memory.store.Shows (.node form parts) tree ∧ later.Shows copy shown ∧ later.Sound ∧ later.Live copy ∧
      (∀ last : Store, last.Sound → last.Follows later → last.Live copy →
        ∃ again final, copy.copy.run last = (.ok again, final) ∧ final.Shows again shown) ∧
      (memory.store.Throughout (fun form parts => form.Ordered (parts.map memory.store.partKey) ∧
        form.Constructed (parts.map memory.store.partKey)) (.node form parts) → shown = tree.renewed) := by
  have tended : Tended [] memory := by
    rw [led]
    exact (Tended.empty.after steps).mark true cell
  have sound := tended.exact.store.sound
  have live : memory.store.Live (.node form parts) := sound.live_follow? reached (tended.exact.live found)
  have neat : memory.store.Neat (.node form parts) := tended.stored.follow? reached (tended.neat found)
  constructor
  · obtain ⟨call, copies, selected, inTurn, keys, makes, isCopy, handles⟩ :=
      exists_call_of_copy sound live classed made
    refine ⟨call, copies, selected, inTurn, keys, makes, ?_, ?_, ?_⟩
    · rintro maker owner balance rfl
      subst isCopy
      refine ⟨?_, rfl, by simp⟩
      cases makes with
      | account _ opened => exact Form.eq_withBonus_of_account? opened
    · rintro name rfl
      subst isCopy
      obtain ⟨shelf, there, _⟩ := neat.exists_shelf (show (Form.library name).Shelved 0 from trivial)
      obtain ⟨new, here, isNew, counted⟩ := handles 0 .rc shelf there
      exact ⟨rfl, shelf, new, there, here, isNew, counted⟩
    · rintro rfl
      refine ⟨_, isCopy, ?_⟩
      rw [Store.gather, Form.gather_kept_of_sorted]
      exact ⟨List.mergeSort_perm _ _, List.pairwise_map.mpr (mergeSort_pairwise _ copies), filter_mergeSort _ copies⟩
  · obtain ⟨tree, copied, shows, owning, treeMade, shown⟩ := exists_shows_of_copy sound live leads made
    have grown := copyTo_grown sound live (.refl memory.store _) made
    have isLive : later.Live copy := grown.offshoot.growth.live_of_held (by simp)
    refine ⟨tree, copied.forget, shows, shown, grown.offshoot.growth.sound sound, isLive, ?_, fun inOrder => ?_⟩
    · intro last lastSound follows lastLive
      exact exists_copy_of_shows_copy lastSound lastLive owning treeMade (shown.of_follows follows lastSound lastLive)
    · have tidy : memory.store.Throughout (Tidy memory.store.fixed) (.node form parts) :=
        fun trail form parts further => (tended.stored.follow? further neat).tidy
      -- What is in order and tidy is put together anew as it is, so that the copy differs by renewal only.
      have established : tree.Everywhere Tree.Established :=
        (shows.placed Form.Constructed (Tree.free_of_copy owning treeMade) inOrder tidy).imp fun _ _ both => ⟨both.1, both.2⟩
      obtain rfl : copied = tree.renewed.map fun _ => none :=
        Except.ok.inj (treeMade.symm.trans (Tree.copy_of_established established))
      rw [Tree.forget_map, Tree.forget_eq_self]

/-! A library. Its name was put in capitals when it was opened. -/

def opening : List Step :=
  [.assign "library" (.list [.text "library", .text "central", .list [.text "str", .text "Dune"]])]

def opened : Memory :=
  ⟨[("library", .node (.library "CENTRAL") [.handle .rc 0])],
    ⟨#[some ⟨1, [.node (.refCell false) [.text "Dune"]]⟩], 0⟩⟩

theorem after_opening : opened = (Memory.empty.after opening).mark true none := by
  have run : (Memory.empty.after opening).mark true none =
      ⟨[("library", .node (.library (Form.upper "central")) [.handle .rc 0])],
        (Store.empty.allocate [.node (.refCell false) [.text "Dune"]]).2.release []⟩ := by
    rfl
  have upper : Form.upper "central" = "CENTRAL" := by decide +kernel
  rw [run, release_nil, upper]
  rfl

theorem upper_central : Form.upper "CENTRAL" = "CENTRAL" := by
  decide +kernel

theorem plain_opened (trail : Trail) (form : Form) (parts : List Value)
    (reached : opened.store.follow? trail (.node (.library "CENTRAL") [.handle .rc 0]) = some (.node form parts)) :
    Tree.Owning form ∧ ∀ keys, form.Ordered keys ∧ form.Constructed keys := by
  match trail with
  | [] =>
      cases reached
      exact ⟨by simp [Tree.Owning], fun _ => ⟨trivial, upper_central⟩⟩
  | [0, 0] =>
      cases reached
      exact ⟨by simp [Tree.Owning], fun _ => ⟨trivial, trivial⟩⟩
  | [0] | [0, 0, 0] => cases reached
  | 0 :: 0 :: 0 :: _ :: _ => cases reached
  | 0 :: 0 :: (_ + 1) :: _ => cases reached
  | 0 :: (_ + 1) :: _ => cases reached
  | (_ + 1) :: _ => cases reached

theorem copy_reestablishes_opened :
    opened = (Memory.empty.after opening).mark true none ∧
      opened.lookup "library" = some (.node (.library "CENTRAL") [.handle .rc 0]) ∧
      opened.store.LeadsTo Tree.Owning (.node (.library "CENTRAL") [.handle .rc 0]) ∧
      ∃ copies later new tree again final, (node (.library "CENTRAL") [.handle .rc 0]).copy.run opened.store =
          (.ok (.node (.library "CENTRAL") copies), later) ∧
        copies[0]? = some (.handle .rc new) ∧ 1 ≤ new ∧ later.count new = 1 ∧
        opened.store.Shows (.node (.library "CENTRAL") [.handle .rc 0]) tree ∧
        later.Shows (.node (.library "CENTRAL") copies) tree.renewed ∧
        (node (.library "CENTRAL") copies).copy.run later = (.ok again, final) ∧ final.Shows again tree.renewed := by
  have found : opened.lookup "library" = some (.node (.library "CENTRAL") [.handle .rc 0]) := by
    rfl
  have reached : opened.store.follow? [] (.node (.library "CENTRAL") [.handle .rc 0]) =
      some (.node (.library "CENTRAL") [.handle .rc 0]) := by
    rfl
  have owning : opened.store.LeadsTo Tree.Owning (.node (.library "CENTRAL") [.handle .rc 0]) :=
    fun trail form parts further => (plain_opened trail form parts further).1
  have tended : Tended [] opened := by
    rw [after_opening]
    exact (Tended.empty.after opening).mark true none
  have ends : opened.store.Ends (.node (.library "CENTRAL") [.handle .rc 0]) := by
    rfl
  obtain ⟨copy, later, made⟩ := exists_copy_of_ends tended.exact.store.sound ends (tended.exact.live found)
  obtain ⟨⟨call, copies, _, _, _, _, _, asLibrary, _⟩, tree, shown, shows, copyShows, sound, live, idempotent, same⟩ :=
    copy_reestablishes after_opening found reached trivial owning made
  obtain ⟨rfl, _, new, _, here, isNew, counted⟩ := asLibrary "CENTRAL" rfl
  obtain ⟨again, final, againMade, againShows⟩ := idempotent later sound (.refl later) live
  obtain rfl := same fun trail form parts further => (plain_opened trail form parts further).2 _
  rw [upper_central] at made copyShows againMade
  exact ⟨after_opening, found, owning, copies, later, new, tree, again, final, made, here, isNew, counted, shows,
    copyShows, againMade, againShows⟩

end Memory

end Replica
