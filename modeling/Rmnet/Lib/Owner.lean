import Mathlib.Logic.Function.Basic

/-!
# What threads own

Each thread owns at most one thing, `own t`.  Things with the same key are one object, and `Once` says that no two
threads own one object.

* `held_update` — what is owned when a thread goes on.
* `Once.take`, `Once.give`, `Once.move` — a thread comes to own an object, gives it up, or goes on with it.
* `Once.only` — what a thread owns is owned in one way.
-/

namespace Owner

variable {τ α κ : Type*}

/-- Some thread owns this. -/
def Held (own : τ → Option α) (x : α) : Prop := ∃ t, own t = some x

/-- No two threads own one object. -/
def Once (key : α → κ) (own : τ → Option α) : Prop :=
  ∀ t t' x x', own t = some x → own t' = some x' → key x = key x' → t = t'

section

variable [DecidableEq τ] {key : α → κ} {own : τ → Option α} {t : τ} {x : α}

/-- What is owned when a thread goes on. -/
theorem held_update (h : Once key own) (v : Option α) (x : α) :
    Held (Function.update own t v) x ↔ v = some x ∨ own t ≠ some x ∧ Held own x := by
  constructor
  · rintro ⟨t', ht'⟩
    by_cases htt : t' = t
    · subst htt
      rw [Function.update_self] at ht'
      exact .inl ht'
    · rw [Function.update_of_ne htt] at ht'
      exact .inr ⟨fun ht => htt (h t' t x x ht' ht rfl), t', ht'⟩
  · rintro (hv | ⟨ht, t', ht'⟩)
    · exact ⟨t, by rw [Function.update_self]; exact hv⟩
    · have htt : t' ≠ t := by
        rintro rfl
        exact ht ht'
      exact ⟨t', by rw [Function.update_of_ne htt]; exact ht'⟩

/-- A thread goes on with an object that no other thread owns. -/
theorem Once.replace (h : Once key own) {y : α} (hy : ∀ t' x, t' ≠ t → own t' = some x → key x ≠ key y) :
    Once key (Function.update own t (some y)) := by
  intro t₁ t₂ x₁ x₂ h₁ h₂ heq
  by_cases ht₁ : t₁ = t
  · by_cases ht₂ : t₂ = t
    · rw [ht₁, ht₂]
    · rw [ht₁, Function.update_self] at h₁
      rw [Function.update_of_ne ht₂] at h₂
      obtain rfl := Option.some.inj h₁
      exact absurd heq.symm (hy t₂ x₂ ht₂ h₂)
  · rw [Function.update_of_ne ht₁] at h₁
    by_cases ht₂ : t₂ = t
    · rw [ht₂, Function.update_self] at h₂
      obtain rfl := Option.some.inj h₂
      exact absurd heq (hy t₁ x₁ ht₁ h₁)
    · rw [Function.update_of_ne ht₂] at h₂
      exact h t₁ t₂ x₁ x₂ h₁ h₂ heq

/-- A thread comes to own what nobody does. -/
theorem Once.take (h : Once key own) (hx : ∀ y, key y = key x → ¬ Held own y) :
    Once key (Function.update own t (some x)) :=
  h.replace fun t' y _ hy heq => hx y heq ⟨t', hy⟩

/-- A thread goes on with what it owns. -/
theorem Once.move (h : Once key own) {y : α} (ht : own t = some x) (hxy : key y = key x) :
    Once key (Function.update own t (some y)) :=
  h.replace fun t' z htt hz heq => htt (h t' t z x hz ht (heq.trans hxy))

/-- A thread gives up what it owns. -/
theorem Once.give (h : Once key own) : Once key (Function.update own t none) := by
  have hne : ∀ t' x, Function.update own t none t' = some x → own t' = some x := by
    intro t' x ht'
    by_cases htt : t' = t
    · rw [htt, Function.update_self] at ht'
      cases ht'
    · rwa [Function.update_of_ne htt] at ht'
  exact fun t₁ t₂ x₁ x₂ h₁ h₂ heq => h t₁ t₂ x₁ x₂ (hne t₁ x₁ h₁) (hne t₂ x₂ h₂) heq

omit [DecidableEq τ] in
/-- What a thread owns is owned in one way. -/
theorem Once.only (h : Once key own) {y : α} (ht : own t = some x) (hy : Held own y) (hxy : key y = key x) : y = x := by
  obtain ⟨t', ht'⟩ := hy
  obtain rfl := h t' t y x ht' ht hxy
  exact Option.some.inj (ht'.symm.trans ht)

end

end Owner
