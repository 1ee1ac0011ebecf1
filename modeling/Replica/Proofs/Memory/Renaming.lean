import Replica.Memory.Script
import Replica.Proofs.Memory.Gathering
import Replica.Proofs.Memory.Unfolding
import Mathlib.Data.List.Forall2
import Mathlib.Logic.Function.Basic

/-!
Other addresses for the same things. Neither the keys of values nor the pictures of memories show which
addresses allocations have.
-/

namespace Replica

variable {f : Address → Address}

namespace Value

mutual

/-- The value with its handles led to other addresses. -/
def rename (f : Address → Address) : Value → Value
  | .atom content => .atom content
  | .static label text => .static label text
  | .handle sharing address => .handle sharing (f address)
  | .node form parts => .node form (renameAll f parts)

def renameAll (f : Address → Address) : List Value → List Value
  | [] => []
  | value :: values => value.rename f :: renameAll f values

end

@[simp]
theorem renameAll_eq_map (f : Address → Address) (values : List Value) :
    renameAll f values = values.map (rename f) := by
  induction values with
  | nil => rfl
  | cons value values ih => simp [renameAll, ih]

@[simp]
theorem addresses_rename (f : Address → Address) (value : Value) :
    (value.rename f).addresses = value.addresses.map f := by
  induction value using Value.induct with
  | atom content => rfl
  | static label text => rfl
  | handle sharing address => rfl
  | node form parts ih =>
      simp only [rename, addresses, renameAll_eq_map, addressesOfAll_eq_flatMap, List.flatMap_map,
        List.map_flatMap]
      exact List.flatMap_congr ih

@[simp]
theorem addressesOfAll_map_rename (f : Address → Address) (values : List Value) :
    addressesOfAll (values.map (rename f)) = (addressesOfAll values).map f := by
  simp [addressesOfAll_eq_flatMap, List.flatMap_map, List.map_flatMap]

theorem rename_rename (f g : Address → Address) (value : Value) :
    (value.rename f).rename g = value.rename (g ∘ f) := by
  induction value using Value.induct with
  | atom content => rfl
  | static label text => rfl
  | handle sharing address => rfl
  | node form parts ih => simpa [rename] using ih

theorem rename_congr {g : Address → Address} {value : Value}
    (same : ∀ address ∈ value.addresses, f address = g address) : value.rename f = value.rename g := by
  induction value using Value.induct with
  | atom content => rfl
  | static label text => rfl
  | handle sharing address => rw [rename, rename, same address (by simp [addresses])]
  | node form parts ih =>
      simp only [rename, renameAll_eq_map, node.injEq, true_and]
      apply List.map_congr_left
      intro part member
      apply ih part member
      exact fun address inside => same address (mem_addressesOfAll.mpr ⟨part, member, inside⟩)

theorem rename_id (value : Value) : value.rename id = value := by
  induction value using Value.induct with
  | atom content => rfl
  | static label text => rfl
  | handle sharing address => rfl
  | node form parts ih =>
      simp only [rename, renameAll_eq_map, node.injEq, true_and]
      exact (List.map_congr_left ih).trans (List.map_id _)

theorem rename_of_fixed {value : Value} (fixed : ∀ address ∈ value.addresses, f address = address) :
    value.rename f = value := by
  rw [rename_congr fixed]
  exact rename_id value

theorem map_rename_congr {g : Address → Address} {values : List Value}
    (same : ∀ address ∈ addressesOfAll values, f address = g address) :
    values.map (rename f) = values.map (rename g) := by
  apply List.map_congr_left
  intro value member
  exact rename_congr fun address inside => same address (mem_addressesOfAll.mpr ⟨value, member, inside⟩)

theorem map_rename_of_fixed {values : List Value}
    (fixed : ∀ address ∈ addressesOfAll values, f address = address) : values.map (rename f) = values := by
  have each : ∀ value ∈ values, value.rename id = id value := fun value _ => rename_id value
  rw [map_rename_congr (g := id) fixed, List.map_congr_left each, List.map_id]

theorem key_node_congr {cells : Bool} {follow other : Address → Key} {form : Form} {parts others : List Value}
    (same : others.map (Key.ofValue cells other) = parts.map (Key.ofValue cells follow)) :
    Key.ofValue cells other (.node form others) = Key.ofValue cells follow (.node form parts) := by
  rw [key_node, key_node, same]

theorem key_rename (cells : Bool) (follow : Address → Key) (f : Address → Address) (value : Value) :
    Key.ofValue cells follow (value.rename f) = Key.ofValue cells (follow ∘ f) value := by
  induction value using Value.induct with
  | atom content => rfl
  | static label text => rfl
  | handle sharing address => cases sharing <;> rfl
  | node form parts ih =>
      rw [rename, renameAll_eq_map]
      exact key_node_congr (by simpa using ih)

theorem key_congr {cells : Bool} {follow other : Address → Key} {value : Value}
    (same : ∀ address ∈ value.addresses, other address = follow address) :
    Key.ofValue cells other value = Key.ofValue cells follow value := by
  induction value using Value.induct with
  | atom content => rfl
  | static label text => rfl
  | handle sharing address =>
      cases sharing with
      | rc => exact same address (by simp [addresses])
      | _ => rfl
  | node form parts ih =>
      apply key_node_congr
      apply List.map_congr_left
      intro part member
      apply ih part member
      exact fun address inside => same address (mem_addressesOfAll.mpr ⟨part, member, inside⟩)

theorem rename_eq_node {value : Value} {form : Form} {parts : List Value}
    (same : value.rename f = .node form parts) :
    ∃ former, value = .node form former ∧ former.map (rename f) = parts := by
  cases value with
  | node otherForm former =>
      simp only [rename, renameAll_eq_map, node.injEq] at same
      exact ⟨former, by rw [same.1], same.2⟩
  | _ => cases same

theorem drawAll_eq_map (store : Store) (follow : Sharing → Address → Drawing Datum) (values : List Value) :
    drawAll store follow values = values.map (draw store follow) := by
  induction values with
  | nil => rfl
  | cons value values ih => simp [drawAll, ih]

theorem absorb_rename (f : Address → Address) (former new : Value) :
    absorb (former.rename f) (new.rename f) = (former.absorb new).map (rename f) (List.map (rename f)) := by
  fun_cases Value.absorb former new with
  | case1 key value otherKey newValue => rfl
  | case2 =>
      unfold absorb
      split
      · rename_i apart _ _ _ _ _ _ formerEq newEq
        obtain ⟨formerParts, rfl, formerSame⟩ := rename_eq_node formerEq
        obtain ⟨newParts, rfl, newSame⟩ := rename_eq_node newEq
        obtain ⟨key, value, rfl⟩ : ∃ key value, formerParts = [key, value] :=
          List.length_eq_two.mp (by simpa using congrArg List.length formerSame)
        obtain ⟨otherKey, newValue, rfl⟩ : ∃ key value, newParts = [key, value] :=
          List.length_eq_two.mp (by simpa using congrArg List.length newSame)
        exact (apart key value otherKey newValue rfl rfl).elim
      · rfl

end Value

def Allocation.rename (f : Address → Address) (allocation : Allocation) : Allocation :=
  { allocation with contents := allocation.contents.map (Value.rename f) }

namespace Allocation

variable {allocation : Allocation}

theorem rename_congr {g : Address → Address}
    (same : ∀ address ∈ Value.addressesOfAll allocation.contents, f address = g address) :
    allocation.rename f = allocation.rename g := by
  rw [rename, rename, Value.map_rename_congr same]

theorem rename_of_fixed (fixed : ∀ address ∈ Value.addressesOfAll allocation.contents, f address = address) :
    allocation.rename f = allocation := by
  rw [rename, Value.map_rename_of_fixed fixed]

theorem rename_rename (f g : Address → Address) (allocation : Allocation) :
    (allocation.rename f).rename g = allocation.rename (g ∘ f) := by
  simp only [rename, List.map_map]
  congr 1
  exact List.map_congr_left fun value _ => value.rename_rename f g

end Allocation

def Identity.rename (f : Address → Address) : Identity → Identity
  | .allocation address => .allocation (f address)
  | .static label => .static label

/-- A store that holds the same at other addresses. -/
structure Store.Renamed (f : Address → Address) (store other : Store) : Prop where
  size_eq : other.slots.size = store.slots.size
  labels_eq : other.labels = store.labels
  get?_eq : ∀ address, other.get? (f address) = (store.get? address).map (Allocation.rename f)

/-- A memory with the same variables, in which everything stands at other addresses. -/
structure Memory.Renamed (f : Address → Address) (memory other : Memory) : Prop where
  injective : Function.Injective f
  bindings_eq : other.bindings = memory.bindings.map fun binding => (binding.1, binding.2.rename f)
  store : memory.store.Renamed f other.store

theorem Identity.rename_injective (injective : Function.Injective f) : Function.Injective (rename f) := by
  intro first second same
  cases first <;> cases second <;> simp_all [rename, injective.eq_iff]

namespace Store.Renamed

variable {store other : Store}

theorem contents?_eq (renamed : store.Renamed f other) (address : Address) :
    other.contents? (f address) = (store.contents? address).map (List.map (Value.rename f)) := by
  rw [contents?, contents?, renamed.get?_eq, Option.map_map, Option.map_map]
  rfl

theorem contents_eq (renamed : store.Renamed f other) (address : Address) :
    (other.contents? (f address)).getD [] = ((store.contents? address).getD []).map (Value.rename f) := by
  rw [renamed.contents?_eq]
  cases store.contents? address <;> rfl

theorem count_eq (renamed : store.Renamed f other) (address : Address) :
    other.count (f address) = store.count address := by
  rw [count, count, renamed.get?_eq, Option.map_map]
  rfl

theorem keyOfAddress (renamed : store.Renamed f other) (depth : Nat) (address : Address) :
    Key.ofAddress true other depth (f address) = Key.ofAddress true store depth address := by
  induction depth generalizing address with
  | zero => rfl
  | succ depth ih =>
      rw [Key.ofAddress_succ, Key.ofAddress_succ, renamed.contents_eq, List.map_map]
      refine congrArg _ (List.map_congr_left fun content _ => ?_)
      rw [Function.comp_apply, Value.key_rename]
      exact Value.key_congr fun inner _ => ih inner

theorem key_eq (renamed : store.Renamed f other) (value : Value) :
    other.key (value.rename f) = store.key value := by
  rw [key, key, Value.key_rename, depth, renamed.size_eq]
  exact Value.key_congr fun address _ => renamed.keyOfAddress _ address

theorem partKey_eq (renamed : store.Renamed f other) (value : Value) :
    other.partKey (value.rename f) = store.partKey value := by
  have whole := renamed.key_eq value
  cases value with
  | node form parts =>
      simp only [Value.rename, Value.renameAll_eq_map] at whole ⊢
      cases form with
      | entry =>
          cases parts with
          | nil => exact whole
          | cons key rest => exact renamed.key_eq key
      | _ => exact whole
  | _ => exact whole

end Store.Renamed

namespace Drawing

variable {α β : Type}

/-- A drawing that comes to the same where what has been met stands at other addresses. -/
def Mirrors (f : Address → Address) (drawing other : Drawing α) : Prop :=
  ∀ met, other (met.map (Identity.rename f)) =
    ((drawing met).1, (drawing met).2.map (Identity.rename f))

namespace Mirrors

theorem pure (result : α) : Mirrors f (Pure.pure result) (Pure.pure result) :=
  fun _ => rfl

theorem bind {drawing other : Drawing α} {rest further : α → Drawing β} (first : Mirrors f drawing other)
    (each : ∀ result, Mirrors f (rest result) (further result)) :
    Mirrors f (drawing >>= rest) (other >>= further) := by
  intro met
  have moved := first met
  have next := each (drawing met).1 (drawing met).2
  change further (other _).1 (other _).2 = _
  rw [moved]
  exact next

theorem get_bind {rest : List Identity → Drawing α} {met : List Identity} : (get >>= rest) met = rest met met := rfl

theorem set_bind {known : List Identity} {rest : PUnit → Drawing α} {met : List Identity} :
    (set known >>= rest) met = rest ⟨⟩ known := rfl

theorem meet (injective : Function.Injective f) (identity : Identity) :
    Mirrors f (Drawing.meet identity) (Drawing.meet (identity.rename f)) := by
  intro met
  have same : ((· == identity.rename f) ∘ Identity.rename f) = (· == identity) := by
    funext other
    rw [Function.comp_apply, Bool.eq_iff_iff, beq_iff_eq, beq_iff_eq]
    exact (Identity.rename_injective injective).eq_iff
  have place : (met.map (Identity.rename f)).idxOf? (identity.rename f) = met.idxOf? identity := by
    rw [List.idxOf?, List.findIdx?_map, same, List.idxOf?]
  rw [Drawing.meet, Drawing.meet, get_bind, get_bind, place]
  cases met.idxOf? identity with
  | some number => rfl
  | none =>
      have moved : met.map (Identity.rename f) ++ [identity.rename f] = (met ++ [identity]).map (Identity.rename f) := by
        rw [List.map_append, List.map_singleton]
      simp only [set_bind, List.length_map]
      exact congrArg (Prod.mk ((met.length : Int), true)) moved

theorem sequence {drawings others : List (Drawing Datum)} (each : List.Forall₂ (Mirrors f) drawings others) :
    Mirrors f (Drawing.sequence drawings) (Drawing.sequence others) := by
  induction each with
  | nil => exact .pure []
  | cons first _ ih => exact first.bind fun datum => ih.bind fun data => .pure (datum :: data)

end Mirrors

end Drawing

namespace Store.Renamed

open Drawing

variable {store other : Store} {follow further : Sharing → Address → Drawing Datum}

/-- Parts that stand in the order of their keys stand in the same order at other addresses. -/
theorem sorted_mirrors (renamed : store.Renamed f other) {parts : List Value}
    {drawings others : List (Drawing Datum)} (each : List.Forall₂ (Mirrors f) drawings others) :
    List.Forall₂ (Mirrors f)
      (((parts.map store.partKey).zip drawings).mergeSort (fun a b => a.1.le b.1) |>.map (·.2))
      ((((parts.map (Value.rename f)).map other.partKey).zip others).mergeSort
        (fun a b => a.1.le b.1) |>.map (·.2)) := by
  obtain ⟨lengths, mirrored⟩ := List.forall₂_iff_zip.mp each
  let pairs := drawings.zip others
  have firsts : pairs.map Prod.fst = drawings := List.map_fst_zip (Nat.le_of_eq lengths)
  have seconds : pairs.map Prod.snd = others := List.map_snd_zip (Nat.le_of_eq lengths.symm)
  have keys : (parts.map (Value.rename f)).map other.partKey = parts.map store.partKey := by
    simp [renamed.partKey_eq]
  -- Both lists come from one list of pairs, which is sorted by the same keys.
  have sorted (part : Drawing Datum × Drawing Datum → Drawing Datum) :=
    Keyed.map_sort part ((parts.map store.partKey).zip pairs)
  simp only [Keyed.sort] at sorted
  rw [keys, ← firsts, ← seconds, List.zip_map_right, List.zip_map_right, ← sorted, ← sorted, List.map_map,
    List.map_map, List.forall₂_map_left_iff, List.forall₂_map_right_iff, List.forall₂_same]
  rintro ⟨key, first, second⟩ member
  have inside := List.mem_mergeSort.mp member
  exact mirrored (List.of_mem_zip inside).2

theorem drawAll_mirrors {values : List Value}
    (each : ∀ value ∈ values, Mirrors f (value.draw store follow) ((value.rename f).draw other further)) :
    List.Forall₂ (Mirrors f) (Value.drawAll store follow values)
      (Value.drawAll other further (values.map (Value.rename f))) := by
  rw [Value.drawAll_eq_map, Value.drawAll_eq_map, List.map_map, List.forall₂_map_left_iff,
    List.forall₂_map_right_iff, List.forall₂_same]
  exact each

theorem draw_mirrors (renamed : store.Renamed f other) (injective : Function.Injective f)
    (followed : ∀ sharing address, Mirrors f (follow sharing address) (further sharing (f address)))
    (value : Value) : Mirrors f (value.draw store follow) ((value.rename f).draw other further) := by
  induction value using Value.induct with
  | atom content => exact .pure _
  | static label text =>
      rw [Value.rename, Value.draw, Value.draw]
      exact (Mirrors.meet injective (.static label)).bind fun _ => .pure _
  | handle sharing address => exact followed sharing address
  | node form parts ih =>
      have drawn := drawAll_mirrors ih
      rw [Value.rename, Value.renameAll_eq_map, Value.draw, Value.draw]
      by_cases hidden : form.hidesOrder
      · simp only [hidden, if_true]
        exact (Mirrors.sequence (renamed.sorted_mirrors drawn)).bind fun data => .pure _
      · simp only [hidden]
        exact (Mirrors.sequence drawn).bind fun data => .pure _

theorem drawAddress_mirrors (renamed : store.Renamed f other) (injective : Function.Injective f)
    (depth : Nat) (sharing : Sharing) (address : Address) :
    Mirrors f (Value.drawAddress store depth sharing address)
      (Value.drawAddress other depth sharing (f address)) := by
  induction depth generalizing sharing address with
  | zero => exact .pure _
  | succ depth ih =>
      rw [Value.drawAddress, Value.drawAddress]
      refine (Mirrors.meet injective (.allocation address)).bind ?_
      rintro ⟨number, first⟩
      cases first
      · exact .pure _
      · simp only [renamed.contents_eq, renamed.count_eq, Bool.not_true, Bool.false_eq_true, if_false]
        generalize (store.contents? address).getD [] = contents
        have drawn : List.Forall₂ (Mirrors f) (Value.drawAll store (Value.drawAddress store depth) contents)
            (Value.drawAll other (Value.drawAddress other depth) (contents.map (Value.rename f))) :=
          drawAll_mirrors fun value _ => renamed.draw_mirrors injective ih value
        have shown := (Mirrors.sequence drawn).bind fun data =>
          Mirrors.pure (Datum.tagged sharing.word (.number number :: .number (store.count address) :: data))
        -- Only a text behind a handle to a text is shown bare, and it holds no handles.
        cases sharing with
        | rcText | arcText =>
            rcases contents with _ | ⟨content, _ | ⟨next, rest⟩⟩
            · exact shown
            · rcases content with (_ | _) | _ | _ | _ <;> first | exact shown | exact .pure _
            · rcases content with (_ | _) | _ | _ | _ <;> exact shown
        | _ => exact shown

end Store.Renamed

namespace Memory.Renamed

variable {memory other : Memory}

/-- Pictures do not show where allocations stand. -/
theorem picture_eq (renamed : memory.Renamed f other) : other.picture = memory.picture := by
  have followed := renamed.store.drawAddress_mirrors renamed.injective memory.store.depth
  have sameDepth : other.store.depth = memory.store.depth := by
    rw [Store.depth, Store.depth, renamed.store.size_eq]
  have names : other.bindings.map (·.1) = memory.bindings.map (·.1) := by
    simp [renamed.bindings_eq]
  have drawn : List.Forall₂ (Drawing.Mirrors f)
      (memory.bindings.map fun binding =>
        binding.2.draw memory.store (Value.drawAddress memory.store memory.store.depth))
      (other.bindings.map fun binding =>
        binding.2.draw other.store (Value.drawAddress other.store memory.store.depth)) := by
    rw [renamed.bindings_eq, List.map_map, List.forall₂_map_left_iff, List.forall₂_map_right_iff,
      List.forall₂_same]
    exact fun binding _ => renamed.store.draw_mirrors renamed.injective followed binding.2
  have shown := Drawing.Mirrors.sequence drawn []
  simp only [picture, sameDepth, names]
  rw [List.map_nil] at shown
  have data := congrArg Prod.fst shown
  exact congrArg (List.zip _) data

end Memory.Renamed

end Replica
