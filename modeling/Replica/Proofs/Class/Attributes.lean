import Replica.Class.Options
import Replica.Proofs.Result

/-!
What helper attributes come to. Whatever they are for, they have to be well formed: all of their entries
could be read and are known. What else an entry has to meet depends on what the attributes describe.
-/

namespace Replica

namespace Parser

variable {α β : Type} {first : Parser α} {next : α → Parser β} {f : α → β} {s last : State} {result : β}

theorem bind_eq_ok_iff :
    (first >>= next) s = .ok (result, last) ↔
      ∃ middle inner, first s = .ok (middle, inner) ∧ next middle inner = .ok (result, last) := by
  have stepped : (first >>= next) s = (first s >>= fun pair => next pair.1 pair.2) := rfl
  rw [stepped, Except.bind_eq_ok_iff, Prod.exists]

theorem map_eq_ok_iff :
    (f <$> first) s = .ok (result, last) ↔ ∃ middle, first s = .ok (middle, last) ∧ f middle = result := by
  have stepped : (f <$> first) s = (first s >>= fun pair => .ok (f pair.1, pair.2)) := rfl
  rw [stepped, Except.bind_eq_ok_iff]
  simp [and_comm, eq_comm]

end Parser

namespace Helper

variable {α β : Type} {owner : Owner} {step : β → α → Span → Except Fault β} {start result : β}
  {vocabulary : Vocabulary α} {reading : Reading α} {entry : Entry α} {meaning : α}

/-- All entries were read, and none has an unknown key. -/
structure Reading.WellFormed (reading : Reading α) : Prop where
  readable : reading.fault = none
  known : ∀ entry ∈ reading.entries, entry.meaning ≠ none

def Reading.Has (reading : Reading α) (meaning : α) : Prop :=
  ∃ entry ∈ reading.entries, entry.meaning = some meaning

section Expressible

/-- A word of the vocabulary can have this meaning, by what stands behind it. -/
def Vocabulary.Expresses (vocabulary : Vocabulary α) (meaning : α) : Prop :=
  ∃ word value s last, vocabulary word = some value ∧ value s = .ok (meaning, last)

theorem exists_word_of_keyReader {key : AttributePath} {value : Parser α}
    (isKey : keyReader vocabulary key = some value) : ∃ word, vocabulary word = some value := by
  unfold keyReader at isKey
  split at isKey
  next word => exact ⟨word.text, isKey⟩
  next => cases isKey

theorem expresses_of_readEntry {s last : State} (read : readEntry vocabulary s = .ok (entry, last))
    (means : entry.meaning = some meaning) : vocabulary.Expresses meaning := by
  unfold readEntry at read
  obtain ⟨key, inner, _, rest⟩ := Parser.bind_eq_ok_iff.mp read
  cases isKey : keyReader vocabulary key with
  | none =>
      rw [isKey] at rest
      cases rest
      cases means
  | some value =>
      rw [isKey] at rest
      obtain ⟨_, _, valueRead, final⟩ := Parser.bind_eq_ok_iff.mp rest
      obtain ⟨other, otherRead, rfl⟩ := Parser.map_eq_ok_iff.mp valueRead
      cases final
      cases means
      obtain ⟨word, isWord⟩ := exists_word_of_keyReader isKey
      exact ⟨word, value, inner, last, isWord, otherRead⟩

theorem expresses_of_mem_readEntries {fuel : Nat} {s : State}
    (member : entry ∈ (readEntries vocabulary fuel s).entries) (means : entry.meaning = some meaning) :
    vocabulary.Expresses meaning := by
  induction fuel generalizing s with
  | zero => simp [readEntries] at member
  | succ fuel ih =>
      rw [readEntries] at member
      split at member
      next => simp [closing] at member
      next =>
        split at member
        next => simp at member
        next first rest read =>
          -- The entry is the one that has just been read, or it is found behind the comma.
          have here (isFirst : entry = first) : vocabulary.Expresses meaning := by
            subst isFirst
            exact expresses_of_readEntry read means
          split at member
          next =>
            rcases List.mem_cons.mp member with isFirst | isLater
            · exact here isFirst
            · simp [closing] at isLater
          next =>
            split at member
            next => exact here (List.mem_singleton.mp member)
            next =>
              rcases List.mem_cons.mp member with isFirst | isLater
              · exact here isFirst
              · exact ih isLater

theorem expresses_of_mem_ofAttribute {a : Attribute} (member : entry ∈ (ofAttribute vocabulary a).entries)
    (means : entry.meaning = some meaning) : vocabulary.Expresses meaning := by
  unfold ofAttribute at member
  split at member
  next => simp at member
  next => simp at member
  next => exact expresses_of_mem_readEntries member means

theorem expresses_of_mem_ofAttributes {attributes : List Attribute}
    (member : entry ∈ (ofAttributes vocabulary attributes).entries) (means : entry.meaning = some meaning) :
    vocabulary.Expresses meaning := by
  induction attributes with
  | nil => simp [ofAttributes, Reading.nothing] at member
  | cons a rest ih =>
      rw [ofAttributes] at member
      split at member
      next =>
        unfold Reading.append at member
        split at member
        next => exact expresses_of_mem_ofAttribute member means
        next =>
          rcases List.mem_append.mp member with inFirst | inRest
          · exact expresses_of_mem_ofAttribute inFirst means
          · exact ih inRest
      next => exact ih member

end Expressible

/-- What one entry makes of what those in front of it said. -/
def advance (owner : Owner) (step : β → α → Span → Except Fault β) (former : β) (entry : Entry α) :
    Except Fault β :=
  match entry.meaning with
  | some meaning => step former meaning entry.span
  | none => .error (.unknown owner entry.span)

theorem interpret_eq_ok_iff :
    interpret owner step start reading = .ok result ↔
      reading.fault = none ∧ reading.entries.foldlM (advance owner step) start = .ok result := by
  change (reading.entries.foldlM (advance owner step) start >>= _) = .ok result ↔ _
  rw [Except.bind_eq_ok_iff]
  cases reading.fault with
  | none => simp [pure, Except.pure]
  | some fault => simp [throw, throwThe, MonadExceptOf.throw]

theorem foldlM_cons_eq_ok_iff {entry : Entry α} {entries : List (Entry α)} :
    (entry :: entries).foldlM (advance owner step) start = .ok result ↔
      ∃ meaning middle, entry.meaning = some meaning ∧ step start meaning entry.span = .ok middle ∧
        entries.foldlM (advance owner step) middle = .ok result := by
  rw [List.foldlM_cons, Except.bind_eq_ok_iff]
  cases found : entry.meaning with
  | none => simp [advance, found]
  | some meaning => simp [advance, found]

/-- Whatever the entries are for, they are accepted only if they are well formed. -/
theorem wellFormed_of_interpret (accepted : interpret owner step start reading = .ok result) :
    reading.WellFormed := by
  obtain ⟨readable, folded⟩ := interpret_eq_ok_iff.mp accepted
  refine ⟨readable, ?_⟩
  clear accepted
  generalize reading.entries = entries at folded ⊢
  induction entries generalizing start with
  | nil => simp
  | cons entry entries ih =>
      obtain ⟨meaning, middle, found, _, rest⟩ := foldlM_cons_eq_ok_iff.mp folded
      exact List.forall_mem_cons.mpr ⟨by simp [found], ih rest⟩

section Independent

variable {acceptable : α → Prop} {entries : List (Entry α)}
  (accepts : ∀ former meaning span, (∃ next, step former meaning span = .ok next) ↔ acceptable meaning)

include accepts

theorem acceptable_of_foldlM (folded : entries.foldlM (advance owner step) start = .ok result)
    (member : entry ∈ entries) (means : entry.meaning = some meaning) : acceptable meaning := by
  induction entries generalizing start with
  | nil => simp at member
  | cons first entries ih =>
      obtain ⟨other, middle, found, stepped, rest⟩ := foldlM_cons_eq_ok_iff.mp folded
      rcases List.mem_cons.mp member with rfl | later
      · rw [← Option.some.inj (found.symm.trans means)]
        exact (accepts start other entry.span).mp ⟨middle, stepped⟩
      · exact ih rest later

theorem exists_foldlM (known : ∀ entry ∈ entries, entry.meaning ≠ none)
    (all : ∀ entry ∈ entries, ∀ meaning, entry.meaning = some meaning → acceptable meaning) :
    ∃ result, entries.foldlM (advance owner step) start = .ok result := by
  induction entries generalizing start with
  | nil => exact ⟨start, rfl⟩
  | cons first entries ih =>
      obtain ⟨knownFirst, knownRest⟩ := List.forall_mem_cons.mp known
      obtain ⟨allFirst, allRest⟩ := List.forall_mem_cons.mp all
      obtain ⟨meaning, found⟩ := Option.ne_none_iff_exists'.mp knownFirst
      obtain ⟨middle, stepped⟩ := (accepts start meaning first.span).mpr (allFirst meaning found)
      obtain ⟨result, rest⟩ := ih knownRest allRest
      exact ⟨result, foldlM_cons_eq_ok_iff.mpr ⟨meaning, middle, found, stepped, rest⟩⟩

/-- Where each entry counts by itself, all entries are accepted if they are well formed and each of them is
acceptable. -/
theorem exists_interpret_iff :
    (∃ result, interpret owner step start reading = .ok result) ↔
      reading.WellFormed ∧ ∀ meaning, reading.Has meaning → acceptable meaning := by
  constructor
  · rintro ⟨result, accepted⟩
    refine ⟨wellFormed_of_interpret accepted, ?_⟩
    rintro meaning ⟨entry, member, means⟩
    exact acceptable_of_foldlM accepts (interpret_eq_ok_iff.mp accepted).2 member means
  · rintro ⟨⟨readable, known⟩, all⟩
    obtain ⟨result, folded⟩ := exists_foldlM accepts known fun entry member meaning means =>
      all meaning ⟨entry, member, means⟩
    exact ⟨result, interpret_eq_ok_iff.mpr ⟨readable, folded⟩⟩

end Independent

end Helper

namespace ConstructorOptions

open Helper

/-- The entries that the attributes of a function have. -/
def reading (attributes : List Attribute) : Reading Entry :=
  Helper.ofAttributes Entry.vocabulary attributes

/-- The marks of a function are accepted if and only if they are well formed. -/
theorem exists_ofAttributes_iff {attributes : List Attribute} :
    (∃ options, ofAttributes attributes = .ok options) ↔ (reading attributes).WellFormed := by
  have accepts (former : ConstructorOptions) (meaning : Entry) (span : Span) :
      (∃ next, apply former meaning span = .ok next) ↔ True := by
    cases meaning <;> simp [apply]
  exact (exists_interpret_iff accepts).trans (by simp [reading])

theorem marks_of_foldlM {entries : List (Helper.Entry Entry)} {start options : ConstructorOptions}
    (folded : entries.foldlM (advance .constructor apply) start = .ok options) :
    (options.skip = true ↔ start.skip = true ∨ ∃ entry ∈ entries, entry.meaning = some .skip) ∧
      (options.convenience = true ↔
        start.convenience = true ∨ ∃ entry ∈ entries, entry.meaning = some .convenience) := by
  induction entries generalizing start with
  | nil =>
      cases folded
      simp
  | cons entry entries ih =>
      obtain ⟨meaning, middle, found, applied, rest⟩ := foldlM_cons_eq_ok_iff.mp folded
      obtain ⟨skip, convenience⟩ := ih rest
      simp only [skip, convenience, List.mem_cons, exists_eq_or_imp, found]
      cases meaning <;> cases applied <;> simp

theorem marks_of_ofAttributes {attributes : List Attribute} {options : ConstructorOptions}
    (accepted : ofAttributes attributes = .ok options) :
    (options.skip = true ↔ (reading attributes).Has .skip) ∧
      (options.convenience = true ↔ (reading attributes).Has .convenience) := by
  have marks := marks_of_foldlM (interpret_eq_ok_iff.mp accepted).2
  simpa [reading, Reading.Has] using marks

end ConstructorOptions

namespace ContainerOptions

open Helper

/-- The entries that the attributes of a type have. -/
def reading (attributes : List Attribute) : Reading Entry :=
  Helper.ofAttributes Entry.vocabulary attributes

/-- The literal is a text, and the text a list of predicates. -/
def Bounding (literal : Literal) : Prop :=
  ∃ text predicates, literal.string? = some text ∧ readBound text = .ok predicates

/-- The entry for a home names it by a path. -/
theorem exists_of_expresses_home {path : PathText} (expressed : Entry.vocabulary.Expresses (.home path)) :
    ∃ s last, Source.leveled Path.text s = .ok (path, last) := by
  obtain ⟨word, value, s, last, isWord, read⟩ := expressed
  unfold Entry.vocabulary at isWord
  split at isWord
  next =>
    cases isWord
    obtain ⟨_, middle, _, rest⟩ := Parser.bind_eq_ok_iff.mp read
    obtain ⟨other, final, text, same⟩ := Parser.bind_eq_ok_iff.mp rest
    cases same
    exact ⟨middle, last, text⟩
  next =>
    cases isWord
    obtain ⟨_, _, _, rest⟩ := Parser.bind_eq_ok_iff.mp read
    obtain ⟨_, _, _, same⟩ := Parser.bind_eq_ok_iff.mp rest
    cases same
  next =>
    cases isWord
    obtain ⟨_, _, _, rest⟩ := Parser.bind_eq_ok_iff.mp read
    obtain ⟨_, _, _, same⟩ := Parser.bind_eq_ok_iff.mp rest
    cases same
  next => cases isWord

theorem exists_ofAttributes_iff {attributes : List Attribute} :
    (∃ options, ofAttributes attributes = .ok options) ↔
      (reading attributes).WellFormed ∧ ∀ literal, (reading attributes).Has (.bound literal) → Bounding literal := by
  have accepts (former : ContainerOptions) (meaning : Entry) (span : Span) :
      (∃ next, apply former meaning span = .ok next) ↔
        ∀ literal, meaning = .bound literal → Bounding literal := by
    cases meaning with
    | home path => simp [apply]
    | method name => simp [apply]
    | bound literal =>
        simp only [apply, Entry.bound.injEq, forall_eq', Bounding]
        cases literal.string? with
        | none => simp
        | some text =>
            cases made : readBound text with
            | error fault => simp [made]
            | ok predicates => simp [made]
  refine (exists_interpret_iff accepts).trans (and_congr_right' ?_)
  exact ⟨fun all literal has => all _ has literal rfl, fun all _ has literal same => all literal (same ▸ has)⟩

end ContainerOptions

namespace Strategy

open Helper

/-- The entries that the attributes of a field have. -/
def reading (attributes : List Attribute) : Reading Strategy :=
  Helper.ofAttributes vocabulary attributes

/-- What an entry of a field may ask for. A function is named by its path. -/
theorem expresses_cases {strategy : Strategy} (expressed : Vocabulary.Expresses vocabulary strategy) :
    strategy = .clone ∨ strategy = .skip ∨
      ∃ path s last, strategy = .custom path ∧ Source.leveled Path.text s = .ok (path, last) := by
  obtain ⟨word, value, s, last, isWord, read⟩ := expressed
  unfold vocabulary at isWord
  split at isWord
  next =>
    cases isWord
    cases read
    exact .inl rfl
  next =>
    cases isWord
    cases read
    exact .inr (.inl rfl)
  next =>
    cases isWord
    obtain ⟨_, middle, _, rest⟩ := Parser.bind_eq_ok_iff.mp read
    obtain ⟨path, final, text, same⟩ := Parser.bind_eq_ok_iff.mp rest
    cases same
    exact .inr (.inr ⟨path, middle, last, rfl, text⟩)
  next => cases isWord

/-- No entry asks for a deep copy: that is what a field without entries gets. -/
theorem not_expresses_deep : ¬ Vocabulary.Expresses vocabulary .deep := by
  intro expressed
  obtain isClone | isSkip | ⟨path, s, last, isCustom, _⟩ := expresses_cases expressed
  · cases isClone
  · cases isSkip
  · cases isCustom

/-- The attributes of a field are accepted if they are well formed and have at most one entry. -/
theorem ofAttributes_eq_ok_iff {attributes : List Attribute} {strategy : Strategy} :
    ofAttributes attributes = .ok strategy ↔
      (reading attributes).fault = none ∧
        ((reading attributes).entries = [] ∧ strategy = .deep ∨
          ∃ span, (reading attributes).entries = [⟨some strategy, span⟩]) := by
  rw [ofAttributes, interpret_eq_ok_iff]
  refine and_congr_right' ?_
  have notDeep (entry : Entry Strategy) (member : entry ∈ (reading attributes).entries) :
      entry.meaning ≠ some .deep :=
    fun means => not_expresses_deep (expresses_of_mem_ofAttributes member means)
  change (reading attributes).entries.foldlM (advance .field apply) .deep = .ok strategy ↔ _
  generalize (reading attributes).entries = entries at notDeep
  match entries with
  | [] => simp [pure, Except.pure, eq_comm]
  | [⟨meaning, span⟩] =>
      rw [foldlM_cons_eq_ok_iff]
      simp [apply, pure, Except.pure]
  | ⟨meaning, span⟩ :: second :: rest =>
      simp only [reduceCtorEq, false_and, List.cons.injEq, and_false, exists_false, or_self, iff_false]
      intro folded
      obtain ⟨first, middle, found, applied, folded⟩ := foldlM_cons_eq_ok_iff.mp folded
      obtain ⟨_, _, _, conflict, _⟩ := foldlM_cons_eq_ok_iff.mp folded
      -- The first entry has left a strategy that no second one goes with.
      cases applied
      cases first with
      | deep => exact notDeep _ List.mem_cons_self found
      | clone => cases conflict
      | custom path => cases conflict
      | skip => cases conflict

end Strategy

end Replica
