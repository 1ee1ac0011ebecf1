import Mathlib.Logic.Basic
import Mathlib.Data.List.Forall2

/-!
How results come about: which step of several failed, or what each of them led to.
-/

namespace Replica

theorem List.exists_forall₂ {α β : Type} {related : α → β → Prop} {items : List α}
    (each : ∀ item ∈ items, ∃ result, related item result) : ∃ results, List.Forall₂ related items results := by
  induction items with
  | nil => exact ⟨[], .nil⟩
  | cons item items ih =>
      obtain ⟨⟨result, first⟩, others⟩ := List.forall_mem_cons.mp each
      obtain ⟨results, rest⟩ := ih others
      exact ⟨result :: results, .cons first rest⟩

theorem List.exists_of_forall₂ {α β : Type} {related : α → β → Prop} {items : List α} {results : List β}
    (each : List.Forall₂ related items results) : ∀ item ∈ items, ∃ result ∈ results, related item result := by
  induction each with
  | nil => simp
  | cons first _ ih =>
      refine List.forall_mem_cons.mpr ⟨⟨_, List.mem_cons_self, first⟩, fun item member => ?_⟩
      obtain ⟨result, inside, here⟩ := ih item member
      exact ⟨result, List.mem_cons_of_mem _ inside, here⟩

theorem List.forall₂_of_mem {α β : Type} {related also : α → β → Prop} {items : List α} {results : List β}
    (each : List.Forall₂ related items results)
    (implied : ∀ item ∈ items, ∀ result ∈ results, related item result → also item result) :
    List.Forall₂ also items results := by
  induction each with
  | nil => exact .nil
  | cons first _ ih =>
      refine .cons (implied _ List.mem_cons_self _ List.mem_cons_self first) (ih ?_)
      exact fun item member result inside =>
        implied item (List.mem_cons_of_mem _ member) result (List.mem_cons_of_mem _ inside)

theorem List.map_eq_of_forall₂ {α β γ : Type} {f : α → γ} {g : β → γ} {items : List α} {results : List β}
    (each : List.Forall₂ (fun item result => f item = g result) items results) : items.map f = results.map g := by
  have same : List.Forall₂ (· = ·) (items.map f) (results.map g) := by
    rwa [List.forall₂_map_left_iff, List.forall₂_map_right_iff]
  rwa [List.forall₂_eq_eq_eq] at same

namespace Except

variable {ε ε' α β : Type} {first : Except ε α} {next : α → Except ε β}
  {result : α} {last : β} {error : ε}

theorem bind_eq_ok_iff :
    (first >>= next) = .ok last ↔ ∃ middle, first = .ok middle ∧ next middle = .ok last := by
  cases first <;> simp [bind, Except.bind]

theorem bind_eq_error_iff :
    (first >>= next) = .error error ↔
      first = .error error ∨ ∃ middle, first = .ok middle ∧ next middle = .error error := by
  cases first <;> simp [bind, Except.bind]

theorem mapError_eq_ok_iff {f : ε → ε'} : first.mapError f = .ok result ↔ first = .ok result := by
  cases first with
  | ok value =>
      constructor <;> intro same <;> cases same <;> rfl
  | error error =>
      constructor <;> intro impossible <;> cases impossible

theorem mapError_eq_error_iff {f : ε → ε'} {mapped : ε'} :
    first.mapError f = .error mapped ↔ ∃ error, first = .error error ∧ f error = mapped := by
  cases first with
  | ok value =>
      constructor
      · intro impossible
        cases impossible
      · rintro ⟨_, impossible, _⟩
        cases impossible
  | error error =>
      constructor
      · intro same
        cases same
        exact ⟨error, rfl, rfl⟩
      · rintro ⟨_, same, rfl⟩
        cases same
        rfl

theorem mapM_eq_ok_iff {f : α → Except ε β} {items : List α} {results : List β} :
    items.mapM f = .ok results ↔ List.Forall₂ (fun item result => f item = .ok result) items results := by
  induction items generalizing results with
  | nil => cases results <;> simp [pure, Except.pure]
  | cons item items ih =>
      rw [List.mapM_cons, bind_eq_ok_iff]
      constructor
      · rintro ⟨result, made, rest⟩
        obtain ⟨others, othersMade, final⟩ := bind_eq_ok_iff.mp rest
        cases final
        exact .cons made (ih.mp othersMade)
      · rintro (_ | ⟨made, others⟩)
        exact ⟨_, made, bind_eq_ok_iff.mpr ⟨_, ih.mpr others, rfl⟩⟩

theorem exists_mapM_eq_ok_iff {f : α → Except ε β} {items : List α} :
    (∃ results, items.mapM f = .ok results) ↔ ∀ item ∈ items, ∃ result, f item = .ok result := by
  simp only [mapM_eq_ok_iff]
  constructor
  · rintro ⟨results, each⟩ item member
    obtain ⟨result, _, made⟩ := List.exists_of_forall₂ each item member
    exact ⟨result, made⟩
  · exact List.exists_forall₂

theorem mapM_eq_error_iff {f : α → Except ε β} {items : List α} :
    items.mapM f = .error error ↔
      ∃ item, items.find? (fun item => !(f item).isOk) = some item ∧ f item = .error error := by
  induction items with
  | nil => simp [pure, Except.pure]
  | cons item items ih =>
      rw [List.mapM_cons, bind_eq_error_iff, List.find?_cons]
      cases made : f item with
      | error other => simp [Except.isOk, Except.toBool, made]
      | ok result => simp [Except.isOk, Except.toBool, bind_eq_error_iff, ih, pure, Except.pure]

end Except

end Replica
