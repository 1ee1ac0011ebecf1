import Replica.Proofs.Class.Entries
import Replica.Proofs.Class.Wording

/-!
How entries are grouped into helper attributes does not matter. What the attributes come to is told by the entries
in their order, whatever other attributes stand between.
-/

namespace Replica

namespace Helper

variable {α β : Type}

section Outcome

variable {owner : Owner} {step : β → α → Span → Except Fault β} {start : β} {reading : Reading α}
  {meanings : List (Option α)} {keep : β → β} {strip : α → α}

/-- What entries with these meanings come to, wherever they stand. -/
def resolve (owner : Owner) (step : β → α → Span → Except Fault β) (start : β) (meanings : List (Option α)) :
    Except Fault β :=
  meanings.foldlM (fun former meaning => advance owner step former ⟨meaning, .origin⟩) start

/-- What is seen of a result: the value as `keep` leaves it, or the message of its fault. -/
def seen (keep : β → β) (result : Except Fault β) : Except String β :=
  (result.map keep).mapError Fault.message

theorem interpret_cons {entry : Entry α} {entries : List (Entry α)} {fault : Option Fault} :
    interpret owner step start ⟨entry :: entries, fault⟩ =
      (advance owner step start entry >>= fun middle => interpret owner step middle ⟨entries, fault⟩) := by
  simp only [interpret, List.foldlM_cons, bind_assoc]
  rfl

/-- Where the places of entries do not matter for a step, they do not matter for what is seen in the end. -/
theorem Follows.seen_interpret (follows : Follows reading.entries reading.fault meanings)
    (placeless : ∀ former a span, seen keep (step former a span) = seen id (step (keep former) (strip a) .origin)) :
    seen keep (interpret owner step start reading) =
      seen id (resolve owner step (keep start) (meanings.map (Option.map strip))) := by
  obtain ⟨entries, fault⟩ := reading
  simp only at follows
  induction follows generalizing start with
  | nil => rfl
  | @unknown entry entries fault meanings means =>
      rw [interpret_cons, advance, means]
      cases owner <;> rfl
  | @known entry entries fault meanings a means others ih =>
      have here : advance owner step start entry = step start a entry.span := by rw [advance, means]
      have stepped : resolve owner step (keep start) ((some a :: meanings).map (Option.map strip)) =
          (step (keep start) (strip a) .origin >>= fun middle =>
            resolve owner step middle (meanings.map (Option.map strip))) := rfl
      have same := placeless start a entry.span
      rw [interpret_cons, here, stepped]
      -- Both steps fail or neither does, since the same is seen of them.
      cases first : step start a entry.span with
      | error fault =>
          cases second : step (keep start) (strip a) .origin with
          | error otherFault =>
              rw [first, second] at same
              exact same
          | ok middle =>
              rw [first, second] at same
              cases same
      | ok middle =>
          cases second : step (keep start) (strip a) .origin with
          | error otherFault =>
              rw [first, second] at same
              cases same
          | ok otherMiddle =>
              rw [first, second] at same
              cases same
              exact ih

/-- What is picked from the entries, in their order. -/
def Reading.picked {γ : Type} (reading : Reading α) (pick : α → Option γ) : List γ :=
  (reading.entries.map Entry.meaning).filterMap (·.bind pick)

/-- What each entry sets anew is in the end as the last entry set it. -/
theorem last_of_foldlM {γ : Type} (get : β → Option γ) (pick : α → Option γ) {entries : List (Entry α)} {result : β}
    (sets : ∀ former a span next, step former a span = .ok next → get next = (pick a).or (get former))
    (folded : entries.foldlM (advance owner step) start = .ok result) :
    get result = ((entries.map Entry.meaning).filterMap (·.bind pick)).getLast?.or (get start) := by
  induction entries generalizing start with
  | nil =>
      cases folded
      rfl
  | cons entry entries ih =>
      obtain ⟨a, middle, means, stepped, rest⟩ := foldlM_cons_eq_ok_iff.mp folded
      rw [ih rest, sets start a entry.span middle stepped, List.map_cons, means, List.filterMap_cons]
      cases picked : pick a with
      | none => simp [picked]
      | some value => simp [picked, List.getLast?_cons]

end Outcome

end Helper

section Places

/-- The path without its place in a source. -/
def PathText.unplaced (path : PathText) : PathText :=
  { path with tokens := Token.unplacedAll path.tokens }

def Name.unplaced (name : Name) : Name := ⟨name.text, .origin⟩

def ContainerOptions.Entry.unplaced : ContainerOptions.Entry → ContainerOptions.Entry
  | .home path => .home path.unplaced
  | .method name => .method name.unplaced
  | .bound literal => .bound ⟨literal.text, .origin⟩

/-- The predicates of a bound are read from its text, so that they have no place in the source. -/
def ContainerOptions.unplaced (options : ContainerOptions) : ContainerOptions :=
  { options with
    home := options.home.map PathText.unplaced
    method := options.method.map Name.unplaced }

def Strategy.unplaced : Strategy → Strategy
  | .custom path => .custom path.unplaced
  | strategy => strategy

end Places

namespace ContainerOptions

open Helper

variable {attributes others : List Attribute} {meanings otherMeanings : List (Option Entry)}

def Entry.home? : Entry → Option PathText
  | .home path => some path
  | _ => .none

def Entry.method? : Entry → Option Name
  | .method name => some name
  | _ => .none

/-- The predicates of a bound, if its literal is a text of predicates. -/
def Entry.predicates? : Entry → Option (List (List Token))
  | .bound literal => literal.string?.bind fun text => (readBound text).toOption
  | _ => .none

theorem placeless_apply (former : ContainerOptions) (entry : Entry) (span : Span) :
    seen unplaced (apply former entry span) = seen id (apply former.unplaced entry.unplaced .origin) := by
  cases entry with
  | home path => rfl
  | method name => rfl
  | bound literal =>
      have same : Literal.string? ⟨literal.text, .origin⟩ = literal.string? := rfl
      simp only [apply, Entry.unplaced, same]
      cases literal.string? with
      | none => rfl
      | some text =>
          simp only
          cases readBound text with
          | error fault => rfl
          | ok predicates => rfl

theorem seen_of_groups (groups : Groups Entry.vocabulary attributes meanings) :
    seen unplaced (ofAttributes attributes) =
      seen id (resolve .container apply none (meanings.map (Option.map Entry.unplaced))) :=
  groups.follows.seen_interpret placeless_apply

theorem exists_ofAttributes_iff_of_groups (groups : Groups Entry.vocabulary attributes meanings) :
    (∃ options, ofAttributes attributes = .ok options) ↔
      Option.none ∉ meanings ∧ ∀ literal, some (.bound literal) ∈ meanings → Bounding literal := by
  obtain ⟨wellFormed, sameMeanings⟩ := groups.follows.wellFormed_iff
  rw [exists_ofAttributes_iff, reading, wellFormed]
  refine and_congr_right fun known => ?_
  rw [← sameMeanings (wellFormed.mpr known)]
  simp [Reading.Has]

/-- An entry sets what it is for, and leaves the rest. -/
theorem apply_sets {former next : ContainerOptions} {entry : Entry} {span : Span}
    (applied : apply former entry span = .ok next) :
    next.home = entry.home?.or former.home ∧ next.method = entry.method?.or former.method ∧
      next.bound = entry.predicates?.or former.bound := by
  cases entry with
  | home path =>
      cases applied
      exact ⟨rfl, rfl, rfl⟩
  | method name =>
      cases applied
      exact ⟨rfl, rfl, rfl⟩
  | bound literal =>
      simp only [apply] at applied
      cases isText : literal.string? with
      | none =>
          rw [isText] at applied
          cases applied
      | some text =>
          simp only [isText] at applied
          cases read : readBound text with
          | error fault =>
              rw [read] at applied
              cases applied
          | ok predicates =>
              rw [read] at applied
              cases applied
              refine ⟨rfl, rfl, ?_⟩
              simp [Entry.predicates?, isText, read, Except.toOption]

/-- Of each kind of entry the last one counts. -/
theorem last_of_accepted {options : ContainerOptions} (accepted : ofAttributes attributes = .ok options) :
    options.home = ((reading attributes).picked Entry.home?).getLast? ∧
      options.method = ((reading attributes).picked Entry.method?).getLast? ∧
      options.bound = ((reading attributes).picked Entry.predicates?).getLast? := by
  have folded := (interpret_eq_ok_iff.mp accepted).2
  refine ⟨?_, ?_, ?_⟩
  · have last := last_of_foldlM home Entry.home? (fun _ _ _ _ applied => (apply_sets applied).1) folded
    rwa [none, Option.or_none] at last
  · have last := last_of_foldlM method Entry.method? (fun _ _ _ _ applied => (apply_sets applied).2.1) folded
    rwa [none, Option.or_none] at last
  · have last := last_of_foldlM bound Entry.predicates? (fun _ _ _ _ applied => (apply_sets applied).2.2) folded
    rwa [none, Option.or_none] at last

theorem last_of_groups (groups : Groups Entry.vocabulary attributes meanings) {options : ContainerOptions}
    (accepted : ofAttributes attributes = .ok options) :
    options.home = (meanings.filterMap (·.bind Entry.home?)).getLast? ∧
      options.method = (meanings.filterMap (·.bind Entry.method?)).getLast? ∧
      options.bound = (meanings.filterMap (·.bind Entry.predicates?)).getLast? := by
  rw [← groups.follows.wellFormed_iff.2 (wellFormed_of_interpret accepted)]
  exact last_of_accepted accepted

end ContainerOptions

namespace Strategy

open Helper

variable {attributes : List Attribute} {meanings : List (Option Strategy)}

theorem placeless_apply (former entry : Strategy) (span : Span) :
    seen unplaced (apply former entry span) = seen id (apply former.unplaced entry.unplaced .origin) := by
  cases former <;> rfl

theorem seen_of_groups (groups : Groups vocabulary attributes meanings) :
    seen unplaced (ofAttributes attributes) =
      seen id (resolve .field apply .deep (meanings.map (Option.map unplaced))) :=
  groups.follows.seen_interpret placeless_apply

theorem ofAttributes_eq_ok_iff_of_groups (groups : Groups vocabulary attributes meanings) {strategy : Strategy} :
    ofAttributes attributes = .ok strategy ↔ meanings = [] ∧ strategy = .deep ∨ meanings = [some strategy] := by
  have follows := groups.follows
  rw [ofAttributes_eq_ok_iff, reading]
  generalize Helper.ofAttributes vocabulary attributes = entered at follows
  obtain ⟨entries, fault⟩ := entered
  constructor
  · rintro ⟨readable, ⟨empty, isDeep⟩ | ⟨span, single⟩⟩
    · simp only at readable empty follows
      subst readable empty
      cases follows
      exact .inl ⟨rfl, isDeep⟩
    · simp only at readable single follows
      subst readable single
      cases follows with
      | unknown means => cases means
      | known means others =>
          cases others
          cases means
          exact .inr rfl
  · rintro (⟨rfl, isDeep⟩ | rfl)
    · cases follows
      exact ⟨rfl, .inl ⟨rfl, isDeep⟩⟩
    · cases follows with
      | @known entry entries fault meanings a means others =>
          cases others
          obtain ⟨meaning, span⟩ := entry
          cases means
          exact ⟨rfl, .inr ⟨span, rfl⟩⟩

theorem exists_ofAttributes_iff_of_groups (groups : Groups vocabulary attributes meanings) :
    (∃ strategy, ofAttributes attributes = .ok strategy) ↔ meanings.length ≤ 1 ∧ none ∉ meanings := by
  simp only [ofAttributes_eq_ok_iff_of_groups groups]
  match meanings with
  | [] => simp
  | [some strategy] => simp
  | [none] => simp
  | first :: second :: rest => simp

end Strategy

namespace ConstructorOptions

open Helper

variable {attributes : List Attribute} {meanings : List (Option Entry)}

theorem placeless_apply (former : ConstructorOptions) (entry : Entry) (span : Span) :
    seen id (apply former entry span) = seen id (apply former entry .origin) := by
  cases entry <;> rfl

theorem seen_of_groups (groups : Groups Entry.vocabulary attributes meanings) :
    seen id (ofAttributes attributes) = seen id (resolve .constructor apply ⟨false, false⟩ (meanings.map (Option.map id))) :=
  groups.follows.seen_interpret placeless_apply

theorem marks_of_groups (groups : Groups Entry.vocabulary attributes meanings) :
    ((∃ options, ofAttributes attributes = .ok options) ↔ none ∉ meanings) ∧
      ∀ options, ofAttributes attributes = .ok options →
        (options.skip = true ↔ some .skip ∈ meanings) ∧ (options.convenience = true ↔ some .convenience ∈ meanings) := by
  obtain ⟨wellFormed, sameMeanings⟩ := groups.follows.wellFormed_iff
  constructor
  · rw [exists_ofAttributes_iff, reading, wellFormed]
  · intro options accepted
    have marks := marks_of_ofAttributes accepted
    rw [← sameMeanings (wellFormed_of_interpret accepted)]
    simpa [reading, Reading.Has] using marks

end ConstructorOptions

namespace Helper

/-- What helper attributes come to depends on their entries in order, and not on how these are grouped. For a type
the last entry of each kind counts, for a function every mark does, and a field has at most one entry. -/
theorem grouping_irrelevant :
    (∀ (attributes others : List Attribute) (meanings otherMeanings : List (Option ContainerOptions.Entry)),
      Groups ContainerOptions.Entry.vocabulary attributes meanings →
      Groups ContainerOptions.Entry.vocabulary others otherMeanings →
      meanings.map (Option.map ContainerOptions.Entry.unplaced) =
        otherMeanings.map (Option.map ContainerOptions.Entry.unplaced) →
      seen ContainerOptions.unplaced (ContainerOptions.ofAttributes attributes) =
        seen ContainerOptions.unplaced (ContainerOptions.ofAttributes others)) ∧
    (∀ (attributes others : List Attribute) (meanings otherMeanings : List (Option Strategy)),
      Groups Strategy.vocabulary attributes meanings → Groups Strategy.vocabulary others otherMeanings →
      meanings.map (Option.map Strategy.unplaced) = otherMeanings.map (Option.map Strategy.unplaced) →
      seen Strategy.unplaced (Strategy.ofAttributes attributes) =
        seen Strategy.unplaced (Strategy.ofAttributes others)) ∧
    (∀ (attributes others : List Attribute) (meanings : List (Option ConstructorOptions.Entry)),
      Groups ConstructorOptions.Entry.vocabulary attributes meanings →
      Groups ConstructorOptions.Entry.vocabulary others meanings →
      seen id (ConstructorOptions.ofAttributes attributes) = seen id (ConstructorOptions.ofAttributes others)) ∧
    (∀ (attributes : List Attribute) (meanings : List (Option ContainerOptions.Entry)),
      Groups ContainerOptions.Entry.vocabulary attributes meanings →
      ((∃ options, ContainerOptions.ofAttributes attributes = .ok options) ↔
        none ∉ meanings ∧ ∀ literal, some (.bound literal) ∈ meanings → ContainerOptions.Bounding literal) ∧
      ∀ options, ContainerOptions.ofAttributes attributes = .ok options →
        options.home = (meanings.filterMap (·.bind ContainerOptions.Entry.home?)).getLast? ∧
        options.method = (meanings.filterMap (·.bind ContainerOptions.Entry.method?)).getLast? ∧
        options.bound = (meanings.filterMap (·.bind ContainerOptions.Entry.predicates?)).getLast?) ∧
    (∀ (attributes : List Attribute) (meanings : List (Option ConstructorOptions.Entry)),
      Groups ConstructorOptions.Entry.vocabulary attributes meanings →
      ((∃ options, ConstructorOptions.ofAttributes attributes = .ok options) ↔ none ∉ meanings) ∧
      ∀ options, ConstructorOptions.ofAttributes attributes = .ok options →
        (options.skip = true ↔ some .skip ∈ meanings) ∧ (options.convenience = true ↔ some .convenience ∈ meanings)) ∧
    ∀ (attributes : List Attribute) (meanings : List (Option Strategy)),
      Groups Strategy.vocabulary attributes meanings →
      ((∃ strategy, Strategy.ofAttributes attributes = .ok strategy) ↔ meanings.length ≤ 1 ∧ none ∉ meanings) ∧
      ∀ strategy, Strategy.ofAttributes attributes = .ok strategy ↔
        meanings = [] ∧ strategy = .deep ∨ meanings = [some strategy] := by
  refine ⟨?_, ?_, ?_, ?_, ?_, ?_⟩
  · intro attributes others meanings otherMeanings groups otherGroups same
    rw [ContainerOptions.seen_of_groups groups, ContainerOptions.seen_of_groups otherGroups, same]
  · intro attributes others meanings otherMeanings groups otherGroups same
    rw [Strategy.seen_of_groups groups, Strategy.seen_of_groups otherGroups, same]
  · intro attributes others meanings groups otherGroups
    rw [ConstructorOptions.seen_of_groups groups, ConstructorOptions.seen_of_groups otherGroups]
  · intro attributes meanings groups
    exact ⟨ContainerOptions.exists_ofAttributes_iff_of_groups groups,
      fun options accepted => ContainerOptions.last_of_groups groups accepted⟩
  · intro attributes meanings groups
    exact ConstructorOptions.marks_of_groups groups
  · intro attributes meanings groups
    exact ⟨Strategy.exists_ofAttributes_iff_of_groups groups,
      fun strategy => Strategy.ofAttributes_eq_ok_iff_of_groups groups⟩

section Scattered

open Replica.Parser

/-- A helper attribute with these arguments. -/
def helperOf (tokens : List Token) : Attribute :=
  ⟨false, ⟨false, [⟨name, .origin⟩]⟩, .list tokens .origin, []⟩

def foreignAttribute : Attribute :=
  ⟨false, ⟨false, [⟨"doc", .origin⟩]⟩, .value .origin, []⟩

def homeTokens (span : Span) : List Token :=
  .word "crate" span :: .mark '=' false span :: (Path.ofWords (some (span, span)) ⟨"home", span⟩ []).tokens

def methodTokens (span : Span) : List Token :=
  [.word "method" span, .mark '=' false span, .word "twin" span]

def boundTokens (span : Span) : List Token :=
  [.word "bound" span, .mark '=' false span, .literal "\"T: Clone\"" span]

theorem written_home (span : Span) : Written ContainerOptions.Entry.vocabulary (homeTokens span)
    (some (.home (Path.ofWords (some (span, span)) ⟨"home", span⟩ []))) := by
  have free : Ahead.reserved.contains "home" = false := by decide
  have path (rest : List Token) (stops : EntryEnd rest) (level : Level) :=
    @Path.reads_text level rest (some (span, span)) ⟨"home", span⟩ [] (.inr (.inr free)) (by simp) stops.path_ends
  exact written_assigned ⟨"crate", span⟩ (f := ContainerOptions.Entry.home) rfl fun rest stops =>
    Source.reads_leveled (path rest stops)

theorem written_bound (span : Span) : Written ContainerOptions.Entry.vocabulary (boundTokens span)
    (some (.bound ⟨"\"T: Clone\"", span⟩)) :=
  written_assigned ⟨"bound", span⟩ (f := ContainerOptions.Entry.bound) rfl fun _ _ => reads_literal

theorem written_method (span : Span) : Written ContainerOptions.Entry.vocabulary (methodTokens span)
    (some (.method ⟨"twin", span⟩)) := by
  have free : Ahead.reserved.contains "twin" = false := by decide
  have name (rest : List Token) := @reads_name rest ⟨"twin", span⟩ free
  exact written_assigned ⟨"method", span⟩ (f := ContainerOptions.Entry.method) rfl fun rest _ => name rest

/-- Three entries in attributes of their own, with another attribute and one without entries between them. -/
def scattered (span : Span) : List Attribute :=
  [helperOf (homeTokens span), foreignAttribute, helperOf [], helperOf (methodTokens span ++ [.mark ',' false span]),
    helperOf (boundTokens span)]

def merged (span : Span) : List Attribute :=
  [helperOf (homeTokens span ++ .mark ',' false span :: (methodTokens span ++ .mark ',' false span :: boundTokens span))]

def threeEntries (span : Span) : List (Option ContainerOptions.Entry) :=
  [some (.home (Path.ofWords (some (span, span)) ⟨"home", span⟩ [])), some (.method ⟨"twin", span⟩),
    some (.bound ⟨"\"T: Clone\"", span⟩)]

theorem delimits_helperOf (tokens : List Token) : (helperOf tokens).Delimits tokens :=
  Attribute.delimits_iff.mpr ⟨.origin, rfl⟩

theorem groups_scattered (span : Span) :
    Groups ContainerOptions.Entry.vocabulary (scattered span) (threeEntries span) :=
  .helper rfl (delimits_helperOf _) (.last (written_home span)) (.foreign rfl
    (.helper rfl (delimits_helperOf _) .nil
      (.helper rfl (delimits_helperOf _) (.cons (written_method span) false span .nil)
        (.helper rfl (delimits_helperOf _) (.last (written_bound span)) .nil))))

theorem groups_merged (span : Span) : Groups ContainerOptions.Entry.vocabulary (merged span) (threeEntries span) :=
  .helper rfl (delimits_helperOf _) (.cons (written_home span) false span
    (.cons (written_method span) false span (.last (written_bound span)))) .nil

/-- One key without a value, between an attribute of another kind and one without entries. -/
def flagged (word : String) : List Attribute :=
  [foreignAttribute, helperOf [.word word .origin], helperOf []]

theorem groups_flagged {α : Type} {vocabulary : Vocabulary α} {word : String} {meaning : α}
    (known : vocabulary word = some (pure meaning)) : Groups vocabulary (flagged word) [some meaning] :=
  .foreign rfl (.helper rfl (delimits_helperOf _) (.last (written_flag ⟨word, .origin⟩ known))
    (.helper rfl (delimits_helperOf _) .nil .nil))

def elsewhere : Span := ⟨⟨3, 0⟩, ⟨3, 1⟩⟩

theorem grouping_irrelevant_scattered :
    Groups ContainerOptions.Entry.vocabulary (scattered elsewhere) (threeEntries elsewhere) ∧
      Groups ContainerOptions.Entry.vocabulary (merged .origin) (threeEntries .origin) ∧
      seen ContainerOptions.unplaced (ContainerOptions.ofAttributes (scattered elsewhere)) =
        seen ContainerOptions.unplaced (ContainerOptions.ofAttributes (merged .origin)) ∧
      Groups Strategy.vocabulary (flagged "clone") [some .clone] ∧
      Strategy.ofAttributes (flagged "clone") = .ok .clone ∧
      Groups ConstructorOptions.Entry.vocabulary (flagged "skip") [some .skip] ∧
      ∃ options, ConstructorOptions.ofAttributes (flagged "skip") = .ok options ∧ options.skip = true := by
  obtain ⟨container, _, _, _, constructor, field⟩ := grouping_irrelevant
  have cloned : Groups Strategy.vocabulary (flagged "clone") [some .clone] := groups_flagged rfl
  have skipped : Groups ConstructorOptions.Entry.vocabulary (flagged "skip") [some .skip] := groups_flagged rfl
  obtain ⟨accepted, marks⟩ := constructor _ _ skipped
  obtain ⟨options, read⟩ := accepted.mpr (by simp)
  exact ⟨groups_scattered _, groups_merged _, container _ _ _ _ (groups_scattered _) (groups_merged _) rfl, cloned,
    ((field _ _ cloned).2 .clone).mpr (.inr rfl), skipped, options, read, (marks options read).1.mpr (by simp)⟩

end Scattered

end Helper

end Replica
