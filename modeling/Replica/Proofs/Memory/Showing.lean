import Replica.Proofs.Memory.Tidiness

/-!
What a store shows of a value: a tree of it and all that it reaches, as long as it reaches no circle. Keyed collections
see the same of the tree as of the value.
-/

namespace Replica

namespace Form

theorem unpoisoned_unpoisoned (form : Form) : form.unpoisoned.unpoisoned = form.unpoisoned := by
  cases form <;> rfl

variable {form : Form} {keys : List Key}

/-- What a node has that can be copied and owns its parts, if it has these stand as they would be put together anew by
their keys. -/
structure Placed (form : Form) (keys : List Key) : Prop where
  free : form ≠ .refCell true
  owning : Tree.Owning form
  ordered : form.Ordered keys
  hashed : form.Hashed keys
  queued : form.Queued keys

end Form

namespace Tree

variable {ι : Type} {form : Form} {parts : List (Tree ι)} {tree : Tree ι}

mutual

/-- The tree with no lock poisoned. -/
def unpoisoned : Tree ι → Tree ι
  | .atom content => .atom content
  | .static label text => .static label text
  | .shared sharing identity contents => .shared sharing identity (unpoisonedAll contents)
  | .node form parts => .node form.unpoisoned (unpoisonedAll parts)

def unpoisonedAll : List (Tree ι) → List (Tree ι)
  | [] => []
  | tree :: trees => tree.unpoisoned :: unpoisonedAll trees

end

theorem unpoisonedAll_eq_map (trees : List (Tree ι)) : unpoisonedAll trees = trees.map unpoisoned := by
  induction trees with
  | nil => rfl
  | cons tree trees ih => rw [unpoisonedAll, ih, List.map_cons]

theorem unpoisoned_shared (sharing : Sharing) (identity : ι) (contents : List (Tree ι)) :
    (shared sharing identity contents).unpoisoned = .shared sharing identity (contents.map unpoisoned) := by
  rw [unpoisoned, unpoisonedAll_eq_map]

theorem unpoisoned_node (form : Form) (parts : List (Tree ι)) :
    (node form parts).unpoisoned = .node form.unpoisoned (parts.map unpoisoned) := by
  rw [unpoisoned, unpoisonedAll_eq_map]

theorem unpoisoned_unpoisoned (tree : Tree ι) : tree.unpoisoned.unpoisoned = tree.unpoisoned := by
  induction tree using Tree.induct with
  | atom content => rfl
  | static label text => rfl
  | shared sharing identity contents ih =>
      simp only [unpoisoned_shared, List.map_map, shared.injEq, true_and]
      exact List.map_congr_left ih
  | node form parts ih =>
      simp only [unpoisoned_node, List.map_map, node.injEq, Form.unpoisoned_unpoisoned, true_and]
      exact List.map_congr_left ih

theorem key_unpoisoned (tree : Tree ι) : tree.unpoisoned.key = tree.key := by
  induction tree using Tree.induct with
  | atom content => rfl
  | static label text => rfl
  | shared sharing identity contents ih =>
      rw [unpoisoned_shared]
      apply key_shared_congr
      simpa using ih
  | node form parts ih =>
      have same : (node form (parts.map unpoisoned)).key = (node form parts).key := key_node_congr (by simpa using ih)
      rw [unpoisoned_node, ← same]
      cases form <;> rfl

theorem partKey_unpoisoned (tree : Tree ι) : tree.unpoisoned.partKey = tree.partKey := by
  have whole := tree.key_unpoisoned
  cases tree with
  | atom content => rfl
  | static label text => rfl
  | shared sharing identity contents => exact whole
  | node form parts =>
      cases form with
      | entry =>
          cases parts with
          | nil => exact whole
          | cons key rest => exact key.key_unpoisoned
      | _ => exact whole

/-- What a node has that is copied part by part, and whose parts stand as they would be put together anew. -/
structure Kept (form : Form) (parts : List (Tree ι)) : Prop extends Memberwise form parts where
  queued : form.Queued (parts.map partKey)

theorem Kept.unpoisoned (kept : Kept form parts) : Kept form.unpoisoned (parts.map Tree.unpoisoned) := by
  have keys : (parts.map Tree.unpoisoned).map partKey = parts.map partKey := by
    rw [List.map_map]
    exact List.map_congr_left fun part _ => partKey_unpoisoned part
  obtain ⟨⟨free, notCustom, ordered, hashed⟩, queued⟩ := kept
  rw [← keys] at ordered hashed queued
  cases form with
  | mutex | rwLock => exact ⟨⟨by simp [Form.unpoisoned], notCustom, trivial, trivial⟩, trivial⟩
  | _ => exact ⟨⟨free, notCustom, ordered, hashed⟩, queued⟩

theorem kept_unpoisoned (kept : tree.Everywhere Kept) : tree.unpoisoned.Everywhere Kept := by
  induction tree using Tree.induct with
  | atom content => trivial
  | static label text => trivial
  | shared sharing identity contents ih =>
      rw [unpoisoned_shared]
      simp only [Everywhere, everywhereInAll_iff, List.forall_mem_map] at kept ⊢
      exact fun content member => ih content member (kept content member)
  | node form parts ih =>
      rw [unpoisoned_node]
      simp only [Everywhere, everywhereInAll_iff, List.forall_mem_map] at kept ⊢
      exact ⟨kept.1.unpoisoned, fun part member => ih part member (kept.2 part member)⟩

end Tree

namespace Store

open Value

variable {store later : Store} {value : Value} {tree : Tree Unit}

/-- Whether a tree is what a store holds of a value and of all that it leads to. -/
inductive Shows (store : Store) : Value → Tree Unit → Prop
  | atom (content : Atom) : Shows store (.atom content) (.atom content)
  | static (label : Nat) (text : String) : Shows store (.static label text) (.static label text)
  | handle (sharing : Sharing) {address : Address} {contents : List Value} {trees : List (Tree Unit)}
      (found : store.contents? address = some contents) (each : List.Forall₂ (Shows store) contents trees) :
      Shows store (.handle sharing address) (.shared sharing () trees)
  | node (form : Form) {parts : List Value} {trees : List (Tree Unit)}
      (each : List.Forall₂ (Shows store) parts trees) : Shows store (.node form parts) (.node form trees)

namespace Shows

theorem ends (shows : store.Shows value tree) (free : tree.Everywhere fun form _ => form ≠ .refCell true) :
    store.Ends value := by
  induction tree using Tree.induct generalizing value with
  | atom content =>
      cases shows
      rfl
  | static label text =>
      cases shows
      rfl
  | shared sharing identity trees ih =>
      simp only [Tree.Everywhere, Tree.everywhereInAll_iff] at free
      cases shows with
      | handle _ found each =>
          apply ends_handle found
          intro content member
          obtain ⟨tree, inside, shown⟩ := List.exists_of_forall₂ each content member
          exact ih tree inside shown (free tree inside)
  | node form trees ih =>
      simp only [Tree.Everywhere, Tree.everywhereInAll_iff] at free
      cases shows with
      | node _ each =>
          apply ends_node free.1
          intro part member
          obtain ⟨tree, inside, shown⟩ := List.exists_of_forall₂ each part member
          exact ih tree inside shown (free.2 tree inside)

/-- A store that follows shows the same of what is still there. -/
theorem of_follows (shows : store.Shows value tree) (follows : later.Follows store) (sound : later.Sound)
    (isLive : later.Live value) : later.Shows value tree := by
  induction tree using Tree.induct generalizing value with
  | atom content =>
      cases shows
      exact .atom content
  | static label text =>
      cases shows
      exact .static label text
  | shared sharing identity trees ih =>
      cases shows with
      | @handle _ address contents _ found each =>
          have foundLater := follows.contents_of_live found (isLive address (by simp [addresses]))
          refine .handle sharing foundLater (List.forall₂_of_mem each ?_)
          exact fun content member tree inside shown =>
            ih tree inside shown (sound.live_of_contents foundLater member)
  | node form trees ih =>
      cases shows with
      | node _ each =>
          refine .node form (List.forall₂_of_mem each ?_)
          exact fun part member tree inside shown => ih tree inside shown (live_of_part isLive part member)

/-- What is written where a value does not lead to is not shown. -/
theorem setContents (shows : store.Shows value tree) {address : Address}
    (apart : ∀ first ∈ value.addresses, ¬ Relation.ReflTransGen store.PointsTo first address) (contents : List Value) :
    (store.setContents address contents).Shows value tree := by
  induction tree using Tree.induct generalizing value with
  | atom content =>
      cases shows
      exact .atom content
  | static label text =>
      cases shows
      exact .static label text
  | shared sharing identity trees ih =>
      cases shows with
      | @handle _ first held _ found each =>
          have atFirst := apart first (by simp [addresses])
          -- What is on the way to a part is not written to, so it holds what it held.
          have isOther : first ≠ address := by
            rintro rfl
            exact atFirst .refl
          have still : (store.setContents address contents).contents? first = some held := by
            rw [contents?, get?_setContents, if_neg isOther, ← contents?, found]
          refine .handle sharing still (List.forall₂_of_mem each ?_)
          intro content member tree inside shown
          apply ih tree inside shown
          intro next here path
          have points : store.PointsTo first next := ⟨held, found, mem_addressesOfAll.mpr ⟨content, member, here⟩⟩
          exact atFirst (path.head points)
  | node form trees ih =>
      cases shows with
      | node _ each =>
          refine .node form (List.forall₂_of_mem each ?_)
          intro part member tree inside shown
          apply ih tree inside shown
          exact fun first here => apart first (mem_addressesOfAll.mpr ⟨part, member, here⟩)

/-- What a copy comes to the end of, keyed collections see to the end of as well. -/
theorem keyOf_eq {depth : Nat} (shows : store.Shows value tree)
    (owning : tree.Everywhere fun form _ => Tree.Owning form)
    (ends : haltWith (store.haltAt depth) value = none) :
    tree.key = Key.ofValue true (Key.ofAddress true store depth) value := by
  induction tree using Tree.induct generalizing value depth with
  | atom content =>
      cases shows
      rfl
  | static label text =>
      cases shows
      rfl
  | shared sharing identity trees ih =>
      simp only [Tree.Everywhere, Tree.everywhereInAll_iff] at owning
      cases shows with
      | @handle _ address contents _ found each =>
          cases sharing with
          | rc =>
              cases depth with
              | zero => cases ends
              | succ depth =>
                  rw [haltWith, haltAt, found, Option.getD_some, haltParts_deep_eq_none_iff] at ends
                  rw [Tree.key_counted, Key.ofValue, Key.ofAddress_succ, found, Option.getD_some]
                  apply congrArg Key.alone
                  symm
                  apply List.map_eq_of_forall₂
                  apply List.forall₂_of_mem each
                  exact fun content member tree inside shown =>
                    (ih tree inside shown (owning tree inside) (ends content member)).symm
          | _ => rfl
  | node form trees ih =>
      simp only [Tree.Everywhere, Tree.everywhereInAll_iff] at owning
      cases shows with
      | @node _ parts _ each =>
          rw [haltWith, owning.1.treatment] at ends
          split at ends
          · cases ends
          · rw [haltParts_deep_eq_none_iff] at ends
            rw [Tree.key_node, key_node]
            apply congrArg (Key.ofForm true form)
            symm
            apply List.map_eq_of_forall₂
            apply List.forall₂_of_mem each
            exact fun part member tree inside shown =>
              (ih tree inside shown (owning.2 tree inside) (ends part member)).symm

theorem key_eq (shows : store.Shows value tree)
    (plain : tree.Everywhere fun form _ => form ≠ .refCell true ∧ Tree.Owning form) : tree.key = store.key value := by
  apply shows.keyOf_eq
  · exact plain.imp fun _ _ both => both.2
  · exact shows.ends (plain.imp fun _ _ both => both.1)

theorem partKey_eq (shows : store.Shows value tree)
    (plain : tree.Everywhere fun form _ => form ≠ .refCell true ∧ Tree.Owning form) :
    tree.partKey = store.partKey value := by
  have whole := shows.key_eq plain
  cases shows with
  | atom content => rfl
  | static label text => rfl
  | handle sharing found each => exact whole
  | node form each =>
      cases form with
      | entry =>
          cases each with
          | nil => exact whole
          | cons first rest =>
              simp only [Tree.Everywhere, Tree.everywhereInAll_iff] at plain
              exact first.key_eq (plain.2 _ List.mem_cons_self)
      | _ => exact whole

theorem partKeys_eq {parts : List Value} {trees : List (Tree Unit)} (each : List.Forall₂ store.Shows parts trees)
    (plain : ∀ tree ∈ trees, tree.Everywhere fun form _ => form ≠ .refCell true ∧ Tree.Owning form) :
    trees.map Tree.partKey = parts.map store.partKey := by
  symm
  apply List.map_eq_of_forall₂
  apply List.forall₂_of_mem each
  exact fun part _ tree inside shown => (shown.partKey_eq (plain tree inside)).symm

theorem everywhere {kind : Form → List Value → Prop} {holds : Form → List (Tree Unit) → Prop}
    (implied : ∀ form parts trees, store.Throughout kind (.node form parts) → List.Forall₂ store.Shows parts trees →
      holds form trees)
    (shows : store.Shows value tree) (throughout : store.Throughout kind value) : tree.Everywhere holds := by
  induction tree using Tree.induct generalizing value with
  | atom content => trivial
  | static label text => trivial
  | shared sharing identity trees ih =>
      simp only [Tree.Everywhere, Tree.everywhereInAll_iff]
      intro tree inside
      cases shows with
      | handle _ found each =>
          obtain ⟨content, member, shown⟩ := List.exists_of_forall₂ each.flip tree inside
          exact ih tree inside shown (throughout.of_contents found member)
  | node form trees ih =>
      simp only [Tree.Everywhere, Tree.everywhereInAll_iff]
      cases shows with
      | node _ each =>
          refine ⟨implied form _ trees throughout each, fun tree inside => ?_⟩
          obtain ⟨part, member, shown⟩ := List.exists_of_forall₂ each.flip tree inside
          exact ih tree inside shown (throughout.of_part member)

theorem leadsTo {kind : Form → Prop} (shows : store.Shows value tree)
    (everywhere : tree.Everywhere fun form _ => kind form) : store.LeadsTo kind value := by
  intro trail
  induction trail generalizing value tree with
  | nil =>
      intro form parts reached
      cases reached
      cases shows with
      | node _ each => exact everywhere.1
  | cons step trail ih =>
      intro form parts reached
      obtain ⟨inner, found, further⟩ := Option.bind_eq_some_iff.mp reached
      cases shows with
      | atom content => cases found
      | static label text => cases found
      | handle _ here each =>
          simp only [Tree.Everywhere, Tree.everywhereInAll_iff] at everywhere
          rw [child?, here, Option.bind_some] at found
          obtain ⟨tree, inside, shown⟩ := List.exists_of_forall₂ each inner (List.mem_of_getElem? found)
          exact ih shown (everywhere tree inside) form parts further
      | node _ each =>
          simp only [Tree.Everywhere, Tree.everywhereInAll_iff] at everywhere
          obtain ⟨tree, inside, shown⟩ := List.exists_of_forall₂ each inner (List.mem_of_getElem? found)
          exact ih shown (everywhere.2 tree inside) form parts further

/-- What has its parts in order and is tidy has them stand in the tree as they would be put together anew. -/
theorem placed (kind : Form → List Key → Prop) (shows : store.Shows value tree)
    (plain : tree.Everywhere fun form _ => form ≠ .refCell true ∧ Tree.Owning form)
    (inOrder : store.Throughout (fun form parts =>
      form.Ordered (parts.map store.partKey) ∧ kind form (parts.map store.partKey)) value)
    (tidy : store.Throughout (Tidy store.fixed) value) : tree.Everywhere fun form trees =>
      Form.Placed form (trees.map Tree.partKey) ∧ kind form (trees.map Tree.partKey) := by
  induction tree using Tree.induct generalizing value with
  | atom content => trivial
  | static label text => trivial
  | shared sharing identity trees ih =>
      simp only [Tree.Everywhere, Tree.everywhereInAll_iff] at plain ⊢
      intro tree inside
      cases shows with
      | handle _ found each =>
          obtain ⟨content, member, shown⟩ := List.exists_of_forall₂ each.flip tree inside
          exact ih tree inside shown (plain tree inside) (inOrder.of_contents found member)
            (tidy.of_contents found member)
  | node form trees ih =>
      simp only [Tree.Everywhere, Tree.everywhereInAll_iff] at plain ⊢
      cases shows with
      | @node _ parts _ each =>
          constructor
          · obtain ⟨ordered, ofKind⟩ := inOrder.self
            have keys : trees.map Tree.partKey = parts.map store.partKey := partKeys_eq each plain.2
            rw [← keys] at ordered ofKind
            have hashed := tidy.self.hashed_partKeys
            have queued := tidy.self.queued_partKeys
            rw [← keys] at hashed queued
            exact ⟨⟨plain.1.1, plain.1.2, ordered, hashed, queued⟩, ofKind⟩
          · intro tree inside
            obtain ⟨part, member, shown⟩ := List.exists_of_forall₂ each.flip tree inside
            exact ih tree inside shown (plain.2 tree inside) (inOrder.of_part member) (tidy.of_part member)

/-- The nodes of a tree are kept if what the value leads to is tidy, in order, and copied part by part. -/
theorem kept (shows : store.Shows value tree)
    (plain : store.Throughout (fun form parts =>
      form ≠ .refCell true ∧ ¬ form.Custom ∧ form.Ordered (parts.map store.partKey)) value)
    (tidy : store.Throughout (Tidy store.fixed) value) : tree.Everywhere Tree.Kept := by
  have notCustom : store.Throughout (fun form parts =>
      form.Ordered (parts.map store.partKey) ∧ ¬ form.Custom) value := fun trail form parts reached =>
    ⟨(plain trail form parts reached).2.2, (plain trail form parts reached).2.1⟩
  have free : tree.Everywhere fun form _ => form ≠ .refCell true ∧ Tree.Owning form := by
    refine shows.everywhere (fun form parts trees throughout _ => ?_) plain
    obtain ⟨free, notCustom, _⟩ := throughout.self
    exact ⟨free, Tree.owning_of_not_custom notCustom⟩
  have placed : tree.Everywhere fun form trees => Form.Placed form (trees.map Tree.partKey) ∧ ¬ form.Custom :=
    shows.placed (fun form _ => ¬ form.Custom) free notCustom tidy
  exact placed.imp fun form trees both =>
    ⟨⟨both.1.free, both.2, both.1.ordered, both.1.hashed⟩, both.1.queued⟩

end Shows

/-- Allocations that lead to nothing together. -/
def Separate (store : Store) (one other : Address) : Prop :=
  ∀ address, Relation.ReflTransGen store.PointsTo one address → ¬ Relation.ReflTransGen store.PointsTo other address

instance (store : Store) : Std.Symm store.Separate where
  symm _ _ separate address fromOther fromOne := separate address fromOne fromOther

theorem Separate.ne {one other : Address} (separate : store.Separate one other) : one ≠ other := by
  rintro rfl
  exact separate one .refl .refl

/-- What is written behind the one is not shown behind the other. -/
theorem Separate.shows_setContents {one other address : Address} {sharing : Sharing}
    (separate : store.Separate one other) (reached : Relation.ReflTransGen store.PointsTo one address)
    (shows : store.Shows (.handle sharing other) tree) (contents : List Value) :
    (store.setContents address contents).Shows (.handle sharing other) tree := by
  apply shows.setContents
  intro first member
  rw [List.mem_singleton.mp member]
  exact separate address reached

theorem exists_shows_of_handles (handles : ∀ sharing, ∀ address ∈ value.addresses,
      ∃ tree, store.Shows (.handle sharing address) tree) : ∃ tree, store.Shows value tree := by
  induction value using Value.induct with
  | atom content => exact ⟨_, .atom content⟩
  | static label text => exact ⟨_, .static label text⟩
  | handle sharing address => exact handles sharing address (by simp [addresses])
  | node form parts ih =>
      have each : ∀ part ∈ parts, ∃ tree, store.Shows part tree := fun part member =>
        ih part member fun sharing address inside =>
          handles sharing address (mem_addressesOfAll.mpr ⟨part, member, inside⟩)
      obtain ⟨trees, shown⟩ := List.exists_forall₂ each
      exact ⟨_, .node form shown⟩

/-- What can be copied is shown by some tree, if every part is copied deep. -/
theorem exists_shows_of_haltWith {depth : Nat} (sound : store.Sound) (live : store.Live value)
    (leads : store.LeadsTo Tree.Owning value) (ends : haltWith (store.haltAt depth) value = none) :
    ∃ tree, store.Shows value tree := by
  induction depth generalizing value with
  | zero =>
      refine exists_shows_of_handles fun sharing address inside => ?_
      obtain ⟨ended, _⟩ := haltWith_handle_of_leadsTo leads ends address inside sharing
      cases ended
  | succ depth ih =>
      refine exists_shows_of_handles fun sharing address inside => ?_
      obtain ⟨ended, further⟩ := haltWith_handle_of_leadsTo leads ends address inside sharing
      obtain ⟨contents, found⟩ := exists_contents (live address inside)
      rw [haltWith, haltAt, found, Option.getD_some, haltParts_deep_eq_none_iff] at ended
      have each : ∀ content ∈ contents, ∃ tree, store.Shows content tree := fun content member =>
        ih (sound.live_of_contents found member) (further.of_contents found member) (ended content member)
      obtain ⟨trees, shown⟩ := List.exists_forall₂ each
      exact ⟨_, .handle sharing found shown⟩

/-- A value that reaches no circle is shown by some tree. -/
theorem exists_shows (sound : store.Sound) (live : store.Live value)
    (noCircle : ∀ first ∈ value.addresses, ∀ address, Relation.ReflTransGen store.PointsTo first address →
      ¬ Relation.TransGen store.PointsTo address address) : ∃ tree, store.Shows value tree := by
  let reached (address : Address) : Prop :=
    ∃ first ∈ value.addresses, Relation.ReflTransGen store.PointsTo first address
  have straight : ∀ address,
      ¬ Relation.TransGen (fun address other => reached address ∧ store.PointsTo address other) address address := by
    intro address circle
    obtain ⟨_, ⟨⟨first, member, path⟩, _⟩, _⟩ := Relation.TransGen.head'_iff.mp circle
    exact noCircle first member address path (Relation.TransGen.mono (fun _ _ leads => leads.2) _ _ circle)
  obtain ⟨rank, _, falls⟩ := exists_rank_of_no_circle (fun _ _ leads => leads.2.lt_size) straight
  -- What an allocation holds has handles of lower rank only.
  have handles : ∀ bound sharing address, rank address < bound → reached address → (store.get? address).isSome →
      ∃ tree, store.Shows (.handle sharing address) tree := by
    intro bound
    induction bound with
    | zero =>
        intro sharing address below
        omega
    | succ bound ih =>
        intro sharing address below here present
        obtain ⟨contents, found⟩ := exists_contents present
        have each : ∀ content ∈ contents, ∃ tree, store.Shows content tree := by
          intro content member
          apply exists_shows_of_handles
          intro sharing other inside
          have points : store.PointsTo address other :=
            ⟨contents, found, mem_addressesOfAll.mpr ⟨content, member, inside⟩⟩
          have lower := falls address other ⟨here, points⟩
          obtain ⟨first, isFirst, path⟩ := here
          exact ih sharing other (by omega) ⟨first, isFirst, path.tail points⟩ (sound.closed address other points)
        obtain ⟨trees, shown⟩ := List.exists_forall₂ each
        exact ⟨_, .handle sharing found shown⟩
  apply exists_shows_of_handles
  exact fun sharing address member =>
    handles (rank address + 1) sharing address (Nat.lt_succ_self _) ⟨address, member, .refl⟩ (live address member)

end Store

end Replica
