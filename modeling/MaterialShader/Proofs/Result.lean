import Mathlib.Data.List.Forall2
import MaterialShader.Failure

/-!
What a computation that succeeded went through.
-/

namespace MaterialShader

open List Result

variable {γ : Type}

section

variable {α β : Type} {x : Result α} {f : α → Result β} {R : α → β → Prop} {items : List α}
  {results : List β}

theorem Result.bind_ok {b : β} : x >>= f = .ok b ↔ ∃ a, x = .ok a ∧ f a = .ok b := by
  cases x <;> simp [bind, Except.bind]

theorem Result.map_ok {f : α → β} {b : β} : x.map f = .ok b ↔ ∃ a, x = .ok a ∧ f a = b := by
  cases x <;> simp [Except.map]

theorem Result.pure_ok {a b : α} : (pure a : Result α) = .ok b ↔ a = b := by
  simp [pure, Except.pure]

@[simp] theorem Result.inside_ok {p : Place} {a : α} : x.inside p = .ok a ↔ x = .ok a := by
  cases x <;> simp [Result.inside]

@[simp] theorem orFail_ok {f : Fault} {x : Option α} {a : α} :
    orFail f x = .ok a ↔ x = some a := by
  cases x <;> simp [orFail, fail]

theorem Result.toOption_eq_some {a : α} : x.toOption = some a ↔ x = .ok a := by
  cases x <;> simp [Except.toOption]

theorem exists_of_mem_right (all : List.Forall₂ R items results) {b : β} (member : b ∈ results) :
    ∃ a ∈ items, R a b := by
  induction all with
  | nil => cases member
  | @cons a c _ _ here _ ih =>
    obtain rfl | member := mem_cons.1 member
    · exact ⟨a, .head _, here⟩
    · obtain ⟨a', later, holds⟩ := ih member
      exact ⟨a', .tail _ later, holds⟩

theorem forall₂_compose {S : β → γ → Prop} {T : α → γ → Prop}
    (both : ∀ a b c, R a b → S b c → T a c) {middle : List β} {results : List γ}
    (first : List.Forall₂ R items middle) (second : List.Forall₂ S middle results) :
    List.Forall₂ T items results := by
  induction first generalizing results with
  | nil =>
    cases second
    exact .nil
  | cons here _ ih =>
    cases second with
    | cons here' later => exact .cons (both _ _ _ here here') (ih later)

theorem Result.mapM_ok (run : items.mapM f = .ok results) :
    List.Forall₂ (fun a b => f a = .ok b) items results := by
  induction items generalizing results with
  | nil =>
    cases pure_ok.1 run
    exact .nil
  | cons a rest ih =>
    rw [mapM_cons] at run
    obtain ⟨b, first, run⟩ := bind_ok.1 run
    obtain ⟨others, later, run⟩ := bind_ok.1 run
    cases pure_ok.1 run
    exact .cons first (ih later)

theorem Result.mapM_cases (f : α → Result β) (items : List α) :
    (∃ out, items.mapM f = .ok out) ∧ (∀ a ∈ items, ∃ b, f a = .ok b) ∨
      ∃ a ∈ items, ∃ e, f a = .error e ∧ items.mapM f = .error e := by
  induction items with
  | nil => exact .inl ⟨⟨[], rfl⟩, by simp⟩
  | cons a rest ih =>
    rw [mapM_cons]
    cases first : f a with
    | error e => exact .inr ⟨a, mem_cons_self, e, first, rfl⟩
    | ok b =>
      obtain ⟨⟨out, ok⟩, each⟩ | ⟨c, member, e, fails, error⟩ := ih
      · exact .inl ⟨⟨b :: out, by rw [ok]; rfl⟩, forall_mem_cons.2 ⟨⟨b, first⟩, each⟩⟩
      · exact .inr ⟨c, .tail _ member, e, fails, by rw [error]; rfl⟩

theorem map_eq_of_forall₂ {old : α → γ} {new : β → γ} (same : ∀ a b, R a b → new b = old a)
    (all : List.Forall₂ R items results) : results.map new = items.map old := by
  induction all with
  | nil => rfl
  | cons here _ ih => rw [map_cons, map_cons, same _ _ here, ih]

theorem Result.mapM_ok_map {old : α → γ} {new : β → γ} (same : ∀ a b, f a = .ok b → new b = old a)
    (run : items.mapM f = .ok results) : results.map new = items.map old :=
  map_eq_of_forall₂ same (mapM_ok run)

end

end MaterialShader
