import Replica.Proofs.Grammar.Printing
import Replica.Proofs.Grammar.Separation

/-!
Readers and the tokens they leave. No reader gives tokens back, and some readers take at least one. Both properties are
classes with one rule for each combinator, so that they are found for a reader from the way it is put together.
-/

namespace Replica

namespace Token

variable {tokens : List Token}

theorem weight_pos (token : Token) : 0 < token.weight := by
  cases token <;> simp [weight]

theorem weightAll_tail_le : weightAll tokens.tail ≤ weightAll tokens := by
  cases tokens with
  | nil => exact Nat.le_refl _
  | cons token rest => exact Nat.le_add_left _ _

theorem weightAll_rest_lt {token : Token} {rest : List Token} : weightAll rest < weightAll (token :: rest) :=
  Nat.lt_add_of_pos_left token.weight_pos

mutual

theorem weightAll_enter (token : Token) (rest : List Token) (endings : List Ending) (front : Front)
    (entered : enter token rest endings = some front) : weightAll front.tokens ≤ token.weight + weightAll rest := by
  unfold enter at entered
  split at entered
  · have inner := weightAll_enterAll _ _ _ _ entered
    simp only [weight]
    omega
  · cases entered
    exact Nat.le_refl _

theorem weightAll_enterAll (tokens rest : List Token) (endings : List Ending) (front : Front)
    (entered : enterAll tokens rest endings = some front) :
    weightAll front.tokens ≤ weightAll tokens + weightAll rest := by
  cases tokens with
  | nil => cases entered
  | cons token more =>
      rw [enterAll, Option.orElse_eq_orElse, Option.orElse_eq_or, Option.or_eq_some_iff] at entered
      rcases entered with here | ⟨_, behind⟩
      · have bound := weightAll_enter _ _ _ _ here
        rw [weightAll_append] at bound
        simp only [weightAll]
        omega
      · have bound := weightAll_enterAll _ _ _ _ behind
        simp only [weightAll]
        omega

end

theorem weightAll_front (tokens : List Token) (endings : List Ending) :
    weightAll (front tokens endings).tokens ≤ weightAll tokens := by
  unfold front
  split
  · rename_i delimiter content rest
    cases entered : enterAll _ [] endings with
    | none => exact Nat.zero_le _
    | some opened => exact weightAll_enterAll _ _ _ _ entered
  · exact Nat.le_refl _

theorem weightAll_visible : weightAll (Ahead.visible tokens) ≤ weightAll tokens :=
  weightAll_front tokens []

end Token

namespace State

variable {s : State} {shown : List Token}

theorem weightAll_pass_lt (present : Ahead.visible s.tokens ≠ []) :
    Token.weightAll (s.pass shown).tokens < Token.weightAll s.tokens := by
  obtain ⟨token, rest, visible⟩ := List.exists_cons_of_ne_nil present
  have bound : Token.weightAll (token :: rest) ≤ Token.weightAll s.tokens := visible ▸ Token.weightAll_visible
  rw [Parser.pass_tokens visible]
  exact Nat.lt_of_lt_of_le Token.weightAll_rest_lt bound

theorem weightAll_pass_le : Token.weightAll (s.pass shown).tokens ≤ Token.weightAll s.tokens := by
  cases visible : Ahead.visible s.tokens with
  | nil =>
      rw [← Token.front_tokens s.tokens s.endings] at visible
      simp only [pass, visible]
      exact Nat.le_refl _
  | cons token rest => exact Nat.le_of_lt (weightAll_pass_lt (by simp [visible]))

end State

namespace Parser

variable {α β : Type}

/-- The reader gives no token back. -/
class Shrinks (p : Parser α) : Prop where
  le : ∀ {s last : State} {a : α}, p s = .ok (a, last) → Token.weightAll last.tokens ≤ Token.weightAll s.tokens

/-- The reader takes at least one token. -/
class Consumes (p : Parser α) : Prop where
  lt : ∀ {s last : State} {a : α}, p s = .ok (a, last) → Token.weightAll last.tokens < Token.weightAll s.tokens

variable {p p' : Parser α} {q : α → Parser β}

instance (priority := low) Consumes.shrinks [consumes : Consumes p] : Shrinks p where
  le := fun read => Nat.le_of_lt (consumes.lt read)

section Sequences

instance shrinks_pure {a : α} : Shrinks (pure a : Parser α) where
  le := by
    rintro s _ _ ⟨⟩
    exact Nat.le_refl _

instance Shrinks.bind [first : Shrinks p] [next : ∀ a, Shrinks (q a)] : Shrinks (p >>= q) where
  le := by
    intro s last b read
    obtain ⟨a, middle, readFirst, readNext⟩ := bind_eq_ok_iff.mp read
    exact Nat.le_trans ((next a).le readNext) (first.le readFirst)

/-- What follows depends on the answer. -/
theorem shrinks_bind [Shrinks p] (next : ∀ a, Shrinks (q a)) : Shrinks (p >>= q) :=
  Shrinks.bind

instance shrinks_ite {c : Prop} [Decidable c] [Shrinks p] [Shrinks p'] : Shrinks (if c then p else p') := by
  split <;> assumption

theorem shrinks_branch {c : Prop} [Decidable c] (present : Shrinks p) (absent : Shrinks p') :
    Shrinks (if c then p else p') :=
  shrinks_ite

instance Shrinks.before {q : Parser β} [Shrinks p] [Shrinks q] : Shrinks (p >>= fun _ => q) :=
  Shrinks.bind

/-- The rule for a sequence, where the answer only chooses how to go on. -/
instance Shrinks.choice {p : Parser Bool} {q q' : Parser α} [Shrinks p] [Shrinks q] [Shrinks q'] :
    Shrinks (p >>= fun seen => if seen = true then q else q') :=
  Shrinks.bind

instance shrinks_map {f : α → β} [Shrinks p] : Shrinks (f <$> p) := by
  rw [map_eq_pure_bind]
  infer_instance

instance Consumes.first [first : Consumes p] [next : ∀ a, Shrinks (q a)] : Consumes (p >>= q) where
  lt := by
    intro s last b read
    obtain ⟨a, middle, readFirst, readNext⟩ := bind_eq_ok_iff.mp read
    exact Nat.lt_of_le_of_lt ((next a).le readNext) (first.lt readFirst)

instance Consumes.next [first : Shrinks p] [next : ∀ a, Consumes (q a)] : Consumes (p >>= q) where
  lt := by
    intro s last b read
    obtain ⟨a, middle, readFirst, readNext⟩ := bind_eq_ok_iff.mp read
    exact Nat.lt_of_lt_of_le ((next a).lt readNext) (first.le readFirst)

instance consumes_ite {c : Prop} [Decidable c] [Consumes p] [Consumes p'] : Consumes (if c then p else p') := by
  split <;> assumption

instance Consumes.firstBefore {q : Parser β} [Consumes p] [Shrinks q] : Consumes (p >>= fun _ => q) :=
  Consumes.first

instance Consumes.nextBefore {q : Parser β} [Shrinks p] [Consumes q] : Consumes (p >>= fun _ => q) :=
  Consumes.next

instance Consumes.choice {p : Parser Bool} {q q' : Parser α} [Shrinks p] [Consumes q] [Consumes q'] :
    Consumes (p >>= fun seen => if seen = true then q else q') :=
  Consumes.next

end Sequences

section Refusals

instance consumes_throw {fault : Fault} : Consumes (throw fault : Parser α) where
  lt := by rintro s last a ⟨⟩

instance consumes_refuse {cause : Cause} : Consumes (refuse cause : Parser α) where
  lt := fun read => absurd read refuse_ne_ok

instance consumes_expect {alternatives : List Expectation} : Consumes (expect alternatives : Parser α) :=
  consumes_refuse

instance consumes_expectKind {text : String} : Consumes (expectKind text : Parser α) :=
  consumes_refuse

instance consumes_failAt {span : Span} {cause : Cause} : Consumes (failAt span cause : Parser α) :=
  consumes_throw

theorem shrinks_refuse {cause : Cause} : Shrinks (refuse cause : Parser α) :=
  Consumes.shrinks

end Refusals

section Looking

instance shrinks_get : Shrinks (get : Parser State) where
  le := by
    rintro s _ _ ⟨⟩
    exact Nat.le_refl _

theorem shrinks_modify {f : State → State}
    (keeps : ∀ s, Token.weightAll (f s).tokens ≤ Token.weightAll s.tokens) : Shrinks (modify f : Parser Unit) where
  le := by
    rintro s _ _ ⟨⟩
    exact keeps s

instance shrinks_peek {ahead : Ahead} : Shrinks (peek ahead) := by
  unfold peek
  infer_instance

instance shrinks_here : Shrinks here := by
  unfold here
  infer_instance

instance shrinks_spanAhead : Shrinks spanAhead := by
  unfold spanAhead
  infer_instance

instance shrinks_reprint {shown : State → List Token} :
    Shrinks (modify fun s => { s with printed := shown s } : Parser Unit) :=
  shrinks_modify fun _ => Nat.le_refl _

instance shrinks_print {tokens : List Token} : Shrinks (print tokens) :=
  shrinks_modify fun _ => Nat.le_refl _

instance shrinks_enclose {mark : Nat} : Shrinks (enclose mark) :=
  shrinks_modify fun _ => Nat.le_refl _

instance shrinks_lookahead : Shrinks (lookahead p) where
  le := by
    intro s last a read
    unfold lookahead at read
    split at read
    · cases read
      exact Nat.le_refl _
    · cases read

end Looking

section Printed

instance Shrinks.withhold [Shrinks p] : Shrinks (withhold p) := by
  unfold Parser.withhold
  infer_instance

instance Consumes.withhold [Consumes p] : Consumes (withhold p) := by
  unfold Parser.withhold
  infer_instance

instance Shrinks.capture [Shrinks p] : Shrinks (capture p) := by
  unfold Parser.capture
  infer_instance

instance Consumes.capture [Consumes p] : Consumes (capture p) := by
  unfold Parser.capture
  infer_instance

instance Shrinks.retold {shown : α → List Token} [Shrinks p] : Shrinks (retold p shown) := by
  unfold Parser.retold
  infer_instance

instance Shrinks.unprinted [Shrinks p] : Shrinks (unprinted p) := by
  unfold Parser.unprinted
  infer_instance

instance Shrinks.verbatimIf {raw : α → Bool} [Shrinks p] : Shrinks (verbatimIf p raw) := by
  unfold Parser.verbatimIf
  infer_instance

instance Consumes.verbatimIf {raw : α → Bool} [Consumes p] : Consumes (verbatimIf p raw) := by
  unfold Parser.verbatimIf
  infer_instance

instance Shrinks.verbatim [Shrinks p] : Shrinks (verbatim p) :=
  Shrinks.verbatimIf

end Printed

/-- From this state the reader takes at least one token. -/
def TakesFrom (s : State) (p : Parser α) : Prop :=
  ∀ last a, p s = .ok (a, last) → Token.weightAll last.tokens < Token.weightAll s.tokens

theorem consumes_get {q : State → Parser β} (takes : ∀ s, TakesFrom s (q s)) : Consumes (get >>= q) where
  lt := by
    intro s last b read
    obtain ⟨_, _, look, read⟩ := bind_eq_ok_iff.mp read
    cases look
    exact takes s last b read

theorem takesFrom_refuse {s : State} {cause : Cause} : TakesFrom s (refuse cause : Parser α) :=
  fun _ _ => consumes_refuse.lt

section Words

theorem takesFrom_keep {s : State} {shown : Token} {a : α} (present : Ahead.visible s.tokens ≠ []) :
    TakesFrom s (do
      keep shown
      return a) := by
  intro last _ read
  obtain ⟨_, _, kept, final⟩ := bind_eq_ok_iff.mp read
  cases kept
  cases final
  exact State.weightAll_pass_lt present

instance shrinks_keep {shown : Token} : Shrinks (keep shown) :=
  shrinks_modify fun _ => State.weightAll_pass_le

instance consumes_keyword {text : String} : Consumes (keyword text) := by
  refine consumes_get fun s => ?_
  split
  next word ahead =>
    split
    · exact takesFrom_keep (visible_ne_nil_of_word? ahead)
    · exact takesFrom_refuse
  next => exact takesFrom_refuse

instance consumes_name : Consumes name := by
  refine consumes_get fun s => ?_
  split
  next word ahead =>
    split
    · exact takesFrom_refuse
    · exact takesFrom_keep (visible_ne_nil_of_word? ahead)
  next => exact takesFrom_refuse

instance consumes_anyWord : Consumes anyWord := by
  refine consumes_get fun s => ?_
  split
  next word ahead => exact takesFrom_keep (visible_ne_nil_of_word? ahead)
  next => exact takesFrom_refuse

instance shrinks_keyword? {text : String} : Shrinks (keyword? text) := by
  unfold keyword?
  infer_instance

instance shrinks_pass {shown : List Token} : Shrinks (modify fun s => s.pass shown : Parser Unit) :=
  shrinks_modify fun _ => State.weightAll_pass_le

instance shrinks_passMarks {cs : List Char} : Shrinks (passMarks cs) := by
  induction cs with
  | nil => exact shrinks_pure
  | cons c cs ih =>
      unfold passMarks
      refine shrinks_bind fun s => ?_
      split <;> infer_instance

instance shrinks_symbol {text : String} : Shrinks (symbol text) := by
  unfold symbol
  refine shrinks_bind fun s => ?_
  simp only
  split <;> infer_instance

instance shrinks_symbol? {text : String} : Shrinks (symbol? text) := by
  unfold symbol?
  infer_instance

instance shrinks_lifetime : Shrinks lifetime := by
  unfold lifetime
  refine shrinks_bind fun s => ?_
  split
  · refine shrinks_bind fun t => ?_
    extract_lets answer behind
    have rest : ∀ passed, Shrinks (behind passed) := by
      intro passed
      refine shrinks_bind fun u => ?_
      split
      · exact shrinks_bind fun _ => shrinks_pure
      · exact shrinks_pure
    split
    · exact shrinks_bind rest
    · exact rest ()
  · infer_instance

instance shrinks_lifetime? : Shrinks lifetime? := by
  unfold lifetime?
  infer_instance

instance shrinks_passTwice {shown : List Token} : Shrinks (modify fun s => (s.pass shown).pass [] : Parser Unit) :=
  shrinks_modify fun _ => Nat.le_trans State.weightAll_pass_le State.weightAll_pass_le

instance shrinks_literal : Shrinks literal := by
  unfold literal
  refine shrinks_bind fun s => ?_
  split <;> infer_instance

end Words

section Groups

variable {s entered : State} {left : State → State} {noted : State → State → State}

/-- A group is left behind, whatever was read in it. -/
theorem takesFrom_group {q : State → α → Parser β} (next : ∀ t a, Shrinks (q t a))
    (less : ∀ t, Token.weightAll (left t).tokens < Token.weightAll s.tokens)
    (same : ∀ t u, (noted t u).tokens = u.tokens) :
    TakesFrom s (do
      set entered
      let a ← p
      let t ← get
      set (left t)
      let b ← q t a
      modify (noted t)
      return b) := by
  intro last b read
  obtain ⟨_, _, inside, read⟩ := bind_eq_ok_iff.mp read
  obtain ⟨a, t, _, read⟩ := bind_eq_ok_iff.mp read
  obtain ⟨_, _, look, read⟩ := bind_eq_ok_iff.mp read
  cases look
  obtain ⟨_, _, behind, read⟩ := bind_eq_ok_iff.mp read
  cases behind
  obtain ⟨c, u, readNext, read⟩ := bind_eq_ok_iff.mp read
  cases read
  show Token.weightAll (noted t u).tokens < Token.weightAll s.tokens
  rw [same]
  exact Nat.lt_of_le_of_lt ((next t a).le readNext) (less t)

instance Consumes.insideThen {delimiter : Delimiter} [next : ∀ a, Shrinks (q a)] :
    Consumes (insideThen delimiter p q) := by
  refine consumes_get fun s => ?_
  extract_lets front
  split
  next d content span rest here =>
    have less : Token.weightAll rest < Token.weightAll s.tokens := by
      have bound : Token.weightAll front.tokens ≤ Token.weightAll s.tokens := Token.weightAll_front s.tokens s.endings
      rw [here] at bound
      exact Nat.lt_of_lt_of_le Token.weightAll_rest_lt bound
    obtain ⟨passed, endings⟩ := Token.settle span rest front.endings
    split
    · exact takesFrom_group (fun _ => next) (fun _ => less) fun _ _ => rfl
    · exact takesFrom_refuse
  next => exact takesFrom_refuse

instance Consumes.inside {delimiter : Delimiter} : Consumes (inside delimiter p) :=
  Consumes.insideThen

instance Consumes.insideInvisible {q : α → List Token → List Token → Parser β}
    [next : ∀ a inner whole, Shrinks (q a inner whole)] : Consumes (insideInvisible p q) := by
  refine consumes_get fun s => ?_
  split
  next content span rest here =>
    have less : Token.weightAll rest < Token.weightAll s.tokens := here ▸ Token.weightAll_rest_lt
    obtain ⟨passed, endings⟩ := Token.settle span rest s.endings
    exact takesFrom_group (fun _ a => next a _ _) (fun _ => less) fun _ _ => rfl
  next => exact takesFrom_refuse

instance consumes_rawGroup : Consumes rawGroup := by
  refine consumes_get fun s => ?_
  split
  next delimiter content span rest here =>
    split
    · exact takesFrom_refuse
    · refine takesFrom_keep ?_
      cases delimiter with
      | invisible => contradiction
      | _ => simp [Ahead.visible, Token.front, here]
  next => exact takesFrom_refuse

/-- How the reader goes on behind the group depends on what it found inside. -/
theorem shrinks_insideThen {delimiter : Delimiter} (next : ∀ a, Shrinks (q a)) :
    Shrinks (insideThen delimiter p q) :=
  Consumes.shrinks

theorem shrinks_insideInvisible {q : α → List Token → List Token → Parser β}
    (next : ∀ a inner whole, Shrinks (q a inner whole)) : Shrinks (insideInvisible p q) :=
  Consumes.shrinks

end Groups

section Loops

instance Shrinks.rounds {round : Parser (Option α)} [Shrinks round] {fuel : Nat} : Shrinks (rounds fuel round) := by
  induction fuel with
  | zero => exact shrinks_refuse
  | succ fuel ih =>
      unfold Parser.rounds
      refine shrinks_bind fun answer => ?_
      cases answer with
      | none => exact shrinks_pure
      | some a => exact shrinks_bind fun _ => shrinks_pure

instance Shrinks.many {round : Parser (Option α)} [Shrinks round] : Shrinks (many round) := by
  unfold Parser.many
  infer_instance

instance Shrinks.manyWhile {ahead : Ahead} [Shrinks p] : Shrinks (manyWhile ahead p) := by
  unfold Parser.manyWhile
  infer_instance

instance Shrinks.upTo {close : String} [Shrinks p] : Shrinks (upTo close p) := by
  unfold Parser.upTo
  infer_instance

instance Shrinks.chainFrom {separator : String} {stop : Ahead} [Shrinks p] {fuel : Nat} :
    Shrinks (chainFrom separator stop p fuel) := by
  induction fuel with
  | zero => exact shrinks_refuse
  | succ fuel ih =>
      unfold Parser.chainFrom
      infer_instance

instance Shrinks.chain {separator : String} {stop : Ahead} [Shrinks p] : Shrinks (chain separator stop p) := by
  unfold Parser.chain
  infer_instance

/-- A reader that takes a token need not be asked whether it did. -/
theorem Consumes.consuming_eq (consumes : Consumes p) : consuming p = p := by
  funext s
  unfold Parser.consuming
  split
  next a t here => rw [if_pos (consumes.lt here), here]
  next fault here => rw [here]

end Loops

end Parser

end Replica
