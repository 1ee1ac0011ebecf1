import Replica.Memory.Build
import Replica.Proofs.Memory.Unfolding
import Replica.Proofs.Memory.Gathering

/-!
What building keeps. A property of a store and of the values that are held, which each step of building keeps,
holds behind whatever is built, with the new value among those that are held. A property that only looks at the
handles in what is held follows from what the operations on the store do.
-/

namespace Replica

open Store

namespace Datum

/-- What data refers to if it is read as another handle. -/
def referred : List Datum → List String
  | [.text "ref", .text name] => [name]
  | _ => []

mutual

def names : Datum → List String
  | .list items => referred items ++ namesOfAll items
  | _ => []

def namesOfAll : List Datum → List String
  | [] => []
  | item :: items => item.names ++ namesOfAll items

end

theorem mem_namesOfAll {items : List Datum} {name : String} :
    name ∈ namesOfAll items ↔ ∃ item ∈ items, name ∈ item.names := by
  induction items with
  | nil => simp [namesOfAll]
  | cons item items ih => simp [namesOfAll, ih]

theorem mem_names_list {items : List Datum} {item : Datum} {name : String} (member : item ∈ items)
    (named : name ∈ item.names) : name ∈ (Datum.list items).names :=
  List.mem_append_right _ (mem_namesOfAll.mpr ⟨item, member, named⟩)

theorem mem_names_tail {first : Datum} {items : List Datum} {name : String}
    (named : name ∈ namesOfAll items) : name ∈ (Datum.list (first :: items)).names :=
  List.mem_append_right _ (List.mem_append_right _ named)

end Datum

namespace Form

/-- The fields of a struct that hold the handle to a cell of its own. -/
def Shelved : Form → Nat → Prop
  | .strategies _, 0 | .strategies _, 2 | .library _, 0 => True
  | _, _ => False

/-- The set that the keys of a map make. -/
def ofKeys : Form → Form
  | .hashMap => .hashSet
  | .treeMap => .treeSet
  | form => form

/-- Forms that are put together of single parts: neither structs with cells of their own nor maps of entries. -/
structure Composed (form : Form) : Prop where
  ne_hashMap : form ≠ .hashMap
  ne_treeMap : form ≠ .treeMap
  unshelved : ∀ step, ¬ form.Shelved step

theorem composed_of_ofWord? {word : String} {form : Form} (found : ofWord? word = some form) : form.Composed := by
  have isPlain := List.mem_of_find?_eq_some found
  cases form with
  | strategies | library | hashMap | treeMap => simp [plain] at isPlain
  | _ => exact ⟨by simp, by simp, fun _ => not_false⟩

theorem exists_of_account? {maker owner : String} {balance : Int64} {bonus : Option Int64} {form : Form}
    (opened : account? maker owner balance bonus = some form) :
    ∃ made amount, form = .account made owner amount := by
  unfold account? at opened
  split at opened
  · exact ⟨_, _, (Option.some.inj opened).symm⟩
  · obtain ⟨_, _, rfl⟩ := Option.map_eq_some_iff.mp opened
    exact ⟨_, _, rfl⟩
  · exact ⟨_, _, (Option.some.inj opened).symm⟩
  · exact ⟨_, _, (Option.some.inj opened).symm⟩
  · exact ⟨_, _, (Option.some.inj opened).symm⟩
  · cases opened

theorem composed_ofKeys {form : Form} (map : form = .hashMap ∨ form = .treeMap) : form.ofKeys.Composed := by
  rcases map with rfl | rfl <;> exact ⟨by simp [ofKeys], by simp [ofKeys], fun _ => not_false⟩

end Form

theorem Store.admits_ofKeys (store : Store) (form : Form) (key : Value) :
    store.admits form.ofKeys key = store.admits form key := by
  cases form <;> rfl

/-- What each step of building keeps. Other handles are made only to what is known. Of a part that a collection
admits, and of a handle to the cell of a struct, a value is held that has nothing else in it. -/
structure Building.Upkeep (known : Address → Prop) (keeps : List Value → Store → Prop) : Prop where
  of_perm : ∀ {held other store}, held.Perm other → keeps held store → keeps other store
  atom : ∀ {content held store}, keeps held store → keeps (.atom content :: held) store
  static : ∀ {label text held store}, keeps held store → keeps (.static label text :: held) store
  labels : ∀ {text held store}, keeps held store → keeps held (Store.static text store).2
  childless : ∀ {form held store}, (∀ step, ¬ form.Shelved step) → keeps held store →
    keeps (.node form [] :: held) store
  retain : ∀ {sharing address held store}, known address → keeps held store →
    keeps (.handle sharing address :: held) (store.retain address)
  share : ∀ {sharing contents held store}, keeps (contents ++ held) store →
    keeps (.handle sharing store.slots.size :: held) (Store.allocate contents store).2
  shelve : ∀ {name value held store}, keeps (value :: held) store →
    keeps (.node (.library name) [.handle .rc store.slots.size] :: held)
      (Store.allocate [.node (.refCell false) [value]] store).2
  strategies : ∀ {counter name other shared cached owned held store},
    keeps (.node (.library name) [shared] :: .node .vector cached :: .node (.library other) [owned] :: held) store →
      keeps (.node (.strategies counter) [shared, .node .vector cached, owned] :: held) store
  single : ∀ {form part held store}, form.Composed → store.admits form part →
    keeps (part :: held) store → keeps (.node form [part] :: held) store
  entry : ∀ {form key value held store}, form = .hashMap ∨ form = .treeMap →
    keeps (.node form.ofKeys [key] :: value :: held) store →
      keeps (.node form [.node .entry [key, value]] :: held) store
  assemble : ∀ {form parts held store}, (∀ step, ¬ form.Shelved step) →
    keeps (parts.map (fun part => .node form [part]) ++ held) store →
      keeps ((store.assemble form parts).1 :: held) (store.assemble form parts).2

/-- Building turns the values that are given into those of the result, whatever else is held. -/
def Building.Keeps {α : Type} (keeps : List Value → Store → Prop) (given : List Value) (building : Building α)
    (values : α → List Value) : Prop :=
  ∀ held store result later, keeps (given ++ held) store → building store = .ok (result, later) →
    keeps (values result ++ held) later

variable {known : Address → Prop} {keeps : List Value → Store → Prop}

namespace Building.Keeps

variable {α β : Type} {building : Building α} {next : α → Building β} {given more : List Value}
  {values : α → List Value} {values' : β → List Value}

theorem pure {result : α} (stays : ∀ held store, keeps (given ++ held) store → keeps (values result ++ held) store) :
    Keeps keeps given (pure result) values := by
  intro held store other later kept built
  cases built
  exact stays held store kept

theorem throw (refusal : Refusal) : Keeps keeps given (throw refusal : Building α) values := by
  intro held store other later kept built
  cases built

theorem bind (first : Keeps keeps given building values)
    (rest : ∀ result, Keeps keeps (values result) (next result) values') :
    Keeps keeps given (building >>= next) values' := by
  intro held store result later kept built
  have stepped : (building >>= next) store =
      match building store with
      | .ok (middle, between) => next middle between
      | .error refusal => .error refusal := by
    simp only [Bind.bind, StateT.bind, Except.bind]
    rcases building store with refusal | ⟨middle, between⟩ <;> rfl
  rw [stepped] at built
  cases middleBuilt : building store with
  | error refusal =>
      rw [middleBuilt] at built
      cases built
  | ok middle =>
      rw [middleBuilt] at built
      exact rest _ held _ result later (first held store _ _ kept middleBuilt) built

/-- Values that are not used are held still. -/
theorem frame (all : Keeps keeps given building values) :
    Keeps keeps (given ++ more) building (fun result => values result ++ more) := by
  intro held store result later kept built
  rw [List.append_assoc] at kept ⊢
  exact all (more ++ held) store result later kept built

theorem modifyGet {change : Store → α × Store}
    (stays : ∀ held store, keeps (given ++ held) store →
      keeps (values (change store).1 ++ held) (change store).2) :
    Keeps keeps given (modifyGet change) values := by
  intro held store result later kept built
  have both := stays held store kept
  have same : change store = (result, later) := Except.ok.inj built
  rw [same] at both
  exact both

theorem throw_bind (refusal : Refusal) (next : α → Building β) :
    Keeps keeps given (MonadExcept.throw refusal >>= next) values' := by
  intro held store result later kept built
  cases built

theorem required_bind {option : Option α}
    (rest : ∀ result, option = some result → Keeps keeps given (next result) values') :
    Keeps keeps given (Building.required option >>= next) values' := by
  cases option with
  | none => exact .throw_bind _ _
  | some result => exact rest result rfl

theorem map_required (f : α → β) (option : Option α) :
    Keeps keeps given (f <$> Building.required option) fun _ => given := by
  intro held store result later kept built
  cases option with
  | none => cases built
  | some value =>
      cases built
      exact kept

/-- Whatever follows a look at the store keeps what it keeps in that store. -/
theorem get_bind {next : Store → Building α}
    (rest : ∀ held store result later, keeps (given ++ held) store → next store store = .ok (result, later) →
      keeps (values result ++ held) later) : Keeps keeps given (MonadState.get >>= next) values :=
  rest

end Building.Keeps

namespace Value

open Building

theorem addressesOfAll_append (values others : List Value) :
    addressesOfAll (values ++ others) = addressesOfAll values ++ addressesOfAll others := by
  simp [addressesOfAll_eq_flatMap]

/-- Handles that are held are values that are held. -/
theorem addressesOfAll_map_handle (addresses : List Address) :
    addressesOfAll (addresses.map (handle .rc)) = addresses := by
  simp [addressesOfAll_eq_flatMap, List.flatMap_map, Value.addresses]

/-- The handles in the variables with certain names lead to what is known. -/
def Known (known : Address → Prop) (lookup : String → Option Value) (names : String → Prop) : Prop :=
  ∀ name, names name → ∀ value, lookup name = some value →
    ∀ address ∈ value.addresses, known address

section Upkeep

variable (upkeep : Upkeep known keeps)
include upkeep

theorem share_keeps (sharing : Sharing) (contents : List Value) :
    Keeps keeps contents (share sharing contents) fun value => [value] := by
  intro held store result later kept built
  cases built
  exact upkeep.share kept

theorem shelve_keeps (name : String) (value : Value) :
    Keeps keeps [value] value.shelve fun shelf => [.node (.library name) [shelf]] := by
  intro held store result later kept built
  cases built
  exact upkeep.shelve kept

theorem assemble_keeps {form : Form} (unshelved : ∀ step, ¬ form.Shelved step) (parts : List Value) :
    Keeps keeps (parts.map fun part => .node form [part]) (modifyGet (Store.assemble form parts)) fun value => [value] := by
  apply Keeps.modifyGet
  exact fun held store kept => upkeep.assemble unshelved kept

theorem singles_keep {form : Form} (composed : form.Composed) {parts held : List Value} {store : Store}
    (admitted : ∀ part ∈ parts, store.admits form part) (kept : keeps (parts ++ held) store) :
    keeps (parts.map (fun part => .node form [part]) ++ held) store := by
  induction parts generalizing held with
  | nil => exact kept
  | cons part parts ih =>
      obtain ⟨first, others⟩ := List.forall_mem_cons.mp admitted
      have moved := upkeep.of_perm List.perm_middle.symm (upkeep.single composed first kept)
      exact upkeep.of_perm List.perm_middle (ih others moved)

theorem compose_keeps {form : Form} (composed : form.Composed) (parts : List Value) :
    Keeps keeps parts (compose form parts) fun value => [value] := by
  apply Keeps.get_bind
  intro held store result later kept built
  split at built
  · cases built
  · rename_i admitted
    simp only [Bool.not_eq_eq_eq_not, Bool.not_true, Bool.not_eq_false, List.all_eq_true] at admitted
    cases built
    exact upkeep.assemble composed.unshelved (singles_keep upkeep composed admitted kept)

theorem openAccount_keeps (maker owner balance : String) (rest : List Datum) :
    Keeps keeps [] (openAccount maker owner balance rest) fun value => [value] := by
  refine Keeps.required_bind fun balance _ => ?_
  have opened : ∀ bonus, Keeps keeps []
      (do return .node (← required (Form.account? maker owner (.ofInt balance) bonus)) []) fun value => [value] := by
    intro bonus
    refine Keeps.required_bind fun form opened => ?_
    obtain ⟨made, amount, rfl⟩ := Form.exists_of_account? opened
    exact .pure fun held store => upkeep.childless fun _ => not_false
  have unopened : ∀ bonus : Option Int, Keeps keeps [] (pure bonus : Building (Option Int)) fun _ => [] :=
    fun bonus => .pure fun held store kept => kept
  split
  · exact (Keeps.map_required _ _).bind fun bonus => opened _
  · exact (unopened none).bind fun _ => opened _
  · exact (unopened none).bind fun _ => opened _
  · exact .throw_bind _ _

variable {lookup : String → Option Value} {names : String → Prop}

theorem refer_keeps (lookedUp : Known known lookup names) {name : String} (named : names name) :
    Keeps keeps [] (refer lookup name) fun value => [value] := by
  unfold refer
  split
  · rename_i sharing address found
    have isKnown : known address := lookedUp name named _ found address (by simp [addresses])
    intro held store result later kept built
    cases built
    exact upkeep.retain isKnown kept
  · exact .pure fun held store => upkeep.static
  · exact .throw _
  · exact .throw _

mutual

theorem build_holds (lookedUp : Known known lookup names) (data : Datum)
    (named : ∀ name ∈ data.names, names name) : Keeps keeps [] (build lookup data) fun value => [value] := by
  unfold build
  split
  · rename_i word items
    have inside : ∀ item ∈ items, ∀ name ∈ item.names, names name := fun item member name here =>
      named name (Datum.mem_names_list (List.mem_cons_of_mem _ member) here)
    have insideAll : ∀ name ∈ Datum.namesOfAll items, names name := fun name here =>
      named name (Datum.mem_names_tail here)
    split
    · exact refer_keeps upkeep lookedUp (named _ (by simp [Datum.names, Datum.referred]))
    · apply Keeps.modifyGet
      exact fun held store kept => upkeep.static (upkeep.labels kept)
    · rename_i content
      intro held store result later kept built
      exact share_keeps upkeep .rcText [text content] held store result later (upkeep.atom kept) built
    · rename_i content
      intro held store result later kept built
      exact share_keeps upkeep .arcText [text content] held store result later (upkeep.atom kept) built
    · exact Keeps.required_bind fun _ _ => .pure fun held store => upkeep.childless fun _ => not_false
    · exact Keeps.required_bind fun _ _ => .pure fun held store => upkeep.childless fun _ => not_false
    · exact openAccount_keeps upkeep _ _ _ _
    · rename_i name content
      apply (build_holds lookedUp content (inside content (by simp))).bind
      intro value
      apply (shelve_keeps upkeep (Form.upper name) value).bind
      intro shelf
      exact .pure fun held store kept => kept
    · rename_i shared counter cache owned
      apply (build_holds lookedUp shared (inside shared (by simp))).bind
      intro sharedValue
      apply (shelve_keeps upkeep "" sharedValue).bind
      intro sharedShelf
      refine Keeps.required_bind fun count _ => ?_
      -- What has been built of the struct is held while the rest of it is.
      apply (build_holds lookedUp cache (inside cache (by simp))).frame.bind
      intro cached
      split
      · rename_i parts
        apply (build_holds lookedUp owned (inside owned (by simp))).frame.bind
        intro ownedValue
        apply (shelve_keeps upkeep "" ownedValue).frame.bind
        intro ownedShelf
        have turned :=
          (List.reverse_perm [node (.library "") [sharedShelf], node .vector parts, node (.library "") [ownedShelf]])
        exact .pure fun held store kept => upkeep.strategies (upkeep.of_perm (turned.append_right held) kept)
      · exact .throw _
    · apply (buildEntries_keeps lookedUp (by simp) items insideAll).bind
      exact fun entries => assemble_keeps upkeep (by exact fun _ => not_false) _
    · apply (buildEntries_keeps lookedUp (by simp) items insideAll).bind
      exact fun entries => assemble_keeps upkeep (by exact fun _ => not_false) _
    · apply (buildAll_keeps lookedUp items insideAll).bind
      intro values held store result later kept built
      have turned := upkeep.of_perm ((List.reverse_perm values).symm.append_right held) kept
      exact compose_keeps upkeep ⟨by simp, by simp, by exact fun _ => not_false⟩ values.reverse held store result later
        turned built
    · split
      · split
        · exact .throw_bind _ _
        · exact (buildAll_keeps lookedUp items insideAll).bind fun values => share_keeps upkeep _ values
      · rename_i found
        split
        · exact .throw_bind _ _
        · exact (buildAll_keeps lookedUp items insideAll).bind fun values =>
            compose_keeps upkeep (Form.composed_of_ofWord? found) values
      · split
        · exact .throw_bind _ _
        · exact Keeps.required_bind fun _ _ => .pure fun held store => upkeep.atom
  · exact .throw _

theorem buildAll_keeps (lookedUp : Known known lookup names) (items : List Datum)
    (named : ∀ name ∈ Datum.namesOfAll items, names name) :
    Keeps keeps [] (buildAll lookup items) id := by
  cases items with
  | nil => exact .pure fun held store kept => kept
  | cons item items =>
      rw [buildAll]
      have namedLater : ∀ name ∈ Datum.namesOfAll items, names name := fun name here =>
        named name (List.mem_append_right _ here)
      apply (build_holds lookedUp item fun name here => named name (List.mem_append_left _ here)).bind
      intro value
      apply (buildAll_keeps lookedUp items namedLater).frame.bind
      intro values
      refine .pure fun held store => upkeep.of_perm ?_
      exact List.perm_append_comm.append_right held

theorem buildEntries_keeps (lookedUp : Known known lookup names) {form : Form} (map : form = .hashMap ∨ form = .treeMap)
    (items : List Datum) (named : ∀ name ∈ Datum.namesOfAll items, names name) :
    Keeps keeps [] (buildEntries lookup form items) fun entries => entries.map fun entry => .node form [entry] := by
  unfold buildEntries
  split
  · exact .pure fun held store kept => kept
  · rename_i key value items
    have namedHere : ∀ item ∈ [key, value], ∀ name ∈ item.names, names name := by
      intro item member name here
      exact named name (List.mem_append_left _ (Datum.mem_names_list member here))
    have namedLater : ∀ name ∈ Datum.namesOfAll items, names name := fun name here =>
      named name (List.mem_append_right _ here)
    apply (build_holds lookedUp key (namedHere key (by simp))).bind
    intro keyValue
    -- From here on the key is held as what the map admits.
    have rest : Keeps keeps [node form.ofKeys [keyValue]] (do
        let value ← build lookup value
        return node .entry [keyValue, value] :: (← buildEntries lookup form items))
        fun entries => entries.map fun entry => .node form [entry] := by
      apply (build_holds lookedUp value (namedHere value (by simp))).frame.bind
      intro valueValue
      apply (buildEntries_keeps lookedUp map items namedLater).frame.bind
      intro entries
      have turned : (entries.map (fun entry => node form [entry]) ++ ([valueValue] ++ [node form.ofKeys [keyValue]])).Perm
          (node form.ofKeys [keyValue] :: valueValue :: entries.map fun entry => node form [entry]) :=
        List.perm_append_comm.trans (List.Perm.swap _ _ _)
      exact .pure fun held store kept => upkeep.entry map (upkeep.of_perm (turned.append_right held) kept)
    apply Keeps.get_bind
    intro held store result later kept built
    split at built
    · cases built
    · rename_i admitted
      simp only [Bool.not_eq_eq_eq_not, Bool.not_true, Bool.not_eq_false] at admitted
      rw [← store.admits_ofKeys] at admitted
      exact rest held store result later (upkeep.single (Form.composed_ofKeys map) admitted kept) built
  · exact .throw _

end

end Upkeep

end Value

/-- What each operation on the store keeps of it and of the handles that are held. -/
structure Building.Invariant (known : Address → Prop) (keeps : List Address → Store → Prop) : Prop where
  of_perm : ∀ {held other store}, held.Perm other → keeps held store → keeps other store
  allocate : ∀ {contents held store}, keeps (Value.addressesOfAll contents ++ held) store →
    keeps (store.slots.size :: held) (Store.allocate contents store).2
  retain : ∀ {address held store}, known address → keeps held store →
    keeps (address :: held) (store.retain address)
  release : ∀ {addresses held store}, keeps (addresses ++ held) store → keeps held (store.release addresses)
  static : ∀ {text held store}, keeps held store → keeps held (Store.static text store).2

namespace Building.Invariant

variable {keeps : List Address → Store → Prop}

theorem assemble (invariant : Invariant known keeps) {form : Form} {parts : List Value}
    {held : List Address} {store : Store} (kept : keeps (Value.addressesOfAll parts ++ held) store) :
    keeps ((store.assemble form parts).1.addresses ++ held) (store.assemble form parts).2 := by
  have conserved := Value.gather_addresses_perm store form parts
  apply invariant.release
  rw [← List.append_assoc]
  exact invariant.of_perm (conserved.symm.append_right held) kept

/-- A node has the handles of its parts, whatever it is. -/
theorem upkeep (invariant : Invariant known keeps) :
    Upkeep known fun held store => keeps (Value.addressesOfAll held) store where
  of_perm same kept := by
    refine invariant.of_perm ?_ kept
    rw [Value.addressesOfAll_eq_flatMap, Value.addressesOfAll_eq_flatMap]
    exact same.flatMap_right Value.addresses
  atom kept := kept
  static kept := kept
  labels kept := invariant.static kept
  childless _ kept := kept
  retain isKnown kept := invariant.retain isKnown kept
  share kept := by
    rw [Value.addressesOfAll_append] at kept
    exact invariant.allocate kept
  shelve kept := by
    simp only [Value.addressesOfAll, Value.addresses, List.append_nil] at kept ⊢
    apply invariant.allocate
    simpa [Value.addressesOfAll, Value.addresses] using kept
  strategies kept := by
    simpa [Value.addressesOfAll, Value.addresses] using kept
  single _ _ kept := by
    simpa [Value.addressesOfAll, Value.addresses] using kept
  entry _ kept := by
    simpa [Value.addressesOfAll, Value.addresses] using kept
  assemble _ kept := by
    apply invariant.assemble
    simpa [Value.addressesOfAll_append, Value.addressesOfAll_eq_flatMap, Value.addresses, List.flatMap_map] using kept

end Building.Invariant

namespace Value

open Building

/-- Building turns no handles into those of the result, whatever else is held. -/
theorem build_keeps {keeps : List Address → Store → Prop} {lookup : String → Option Value} {names : String → Prop}
    (invariant : Invariant known keeps) (lookedUp : Known known lookup names) (data : Datum)
    (named : ∀ name ∈ data.names, names name) (held : List Address) (store : Store) (result : Value) (later : Store)
    (kept : keeps held store) (built : build lookup data store = .ok (result, later)) :
    keeps (result.addresses ++ held) later := by
  have holds := build_holds invariant.upkeep lookedUp data named (held.map (handle .rc)) store result later
  rw [List.nil_append, List.singleton_append, addressesOfAll, addressesOfAll_map_handle] at holds
  exact holds kept built

end Value

end Replica
