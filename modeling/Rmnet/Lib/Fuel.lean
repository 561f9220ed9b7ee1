import Mathlib.Computability.StateTransition

/-!
# Loops with fuel, and what they run to

A loop is a partial step function: `none` is leaving the loop.  Mathlib's `StateTransition.eval` is what the loop
runs to, if it ends.  `run` is the loop with a bound on its passes, as a program text gets when its termination is
not plain; it is none when the bound is used up.

* `run_mem_eval` — what a bounded run arrives at is what the loop runs to;
* `run_of_measure` — a loop with a decreasing measure ends, within as many passes as the measure counts;
* `reaches_invariant` — what a pass keeps holds along the loop.
-/

namespace Fuel

open StateTransition

variable {σ : Type*}

/-- The loop for at most as many passes as there is fuel. -/
def run (f : σ → Option σ) : ℕ → σ → Option σ
  | 0, _ => none
  | fuel + 1, s =>
      match f s with
      | none => some s
      | some t => run f fuel t

theorem run_mem_eval {f : σ → Option σ} (fuel : ℕ) :
    ∀ {s e : σ}, run f fuel s = some e → e ∈ eval f s := by
  induction fuel with
  | zero =>
    intro s e h
    cases h
  | succ fuel ih =>
    intro s e h
    rw [run] at h
    cases hs : f s with
    | none =>
      rw [hs] at h
      cases h
      exact mem_eval.mpr ⟨.refl, hs⟩
    | some t =>
      rw [hs] at h
      obtain ⟨hreach, hend⟩ := mem_eval.mp (ih h)
      exact mem_eval.mpr ⟨.head hs hreach, hend⟩

/-- **Termination.**  A measure that every pass decreases bounds the fuel that is needed. -/
theorem run_of_measure {f : σ → Option σ} (μ : σ → ℕ) (hμ : ∀ s t, f s = some t → μ t < μ s) (fuel : ℕ) :
    ∀ s, μ s < fuel → ∃ e ∈ eval f s, run f fuel s = some e := by
  suffices h : ∀ s, μ s < fuel → ∃ e, run f fuel s = some e by
    intro s hs
    obtain ⟨e, he⟩ := h s hs
    exact ⟨e, run_mem_eval fuel he, he⟩
  induction fuel with
  | zero =>
    intro s hs
    exact absurd hs (Nat.not_lt_zero _)
  | succ fuel ih =>
    intro s hs
    rw [run]
    cases hf : f s with
    | none => exact ⟨s, rfl⟩
    | some t =>
      have hlt := hμ s t hf
      exact ih t (by omega)

/-- What a pass keeps holds along the loop. -/
theorem reaches_invariant {f : σ → Option σ} {I : σ → Prop} (hI : ∀ s t, I s → f s = some t → I t) {s t : σ}
    (h : Reaches f s t) (hs : I s) : I t := by
  induction h with
  | refl => exact hs
  | tail _ hstep ih => exact hI _ _ ih hstep

end Fuel
