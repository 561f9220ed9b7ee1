import Mathlib.Algebra.BigOperators.Group.List.Basic
import Mathlib.Algebra.Order.BigOperators.Group.List
import Mathlib.Algebra.Order.Ring.Nat
import Rmnet.Lib.Transition

/-!
# Credit that is charged after the fact

Some steps of a system spend: what they spend on has a cost, which is taken off a credit, down to zero.  A gated
item is spent on only while some credit is left.  Its cost may be larger than what is left, so the gate bounds what is
spent before a gated item, not what is spent in all.

* `Metered.left` — the credit after a run.
* `Metered.before_gated` — what is spent before a gated item is less than the credit.
* `Metered.gated_lt` — the gated items overdraw the credit by less than the largest cost.
-/

namespace Credit

open Transition

variable {σ ℓ κ : Type*} {step : σ → ℓ → σ → Prop} {ok : σ → ℓ → Prop} {credit : σ → ℕ}
  {item : σ × ℓ → Option κ} {cost : κ → ℕ} {gated : κ → Bool}

/-- Steps that meet `ok` take the cost of what they spend on off the credit, and find some left for a gated item. -/
structure Metered (step : σ → ℓ → σ → Prop) (ok : σ → ℓ → Prop) (credit : σ → ℕ) (item : σ × ℓ → Option κ)
    (cost : κ → ℕ) (gated : κ → Bool) : Prop where
  free : ∀ s l s', step s l s' → ok s l → item (s, l) = none → credit s' = credit s
  pays : ∀ s l s' k, step s l s' → ok s l → item (s, l) = some k → credit s' = credit s - cost k
  gate : ∀ s l s' k, step s l s' → ok s l → item (s, l) = some k → gated k = true → 0 < credit s

/-- A run up to one of its steps ends where that step starts. -/
theorem exec_before {init : σ → Prop} {s : σ} {h pre post : List (σ × ℓ)} {x : σ × ℓ} (hex : Exec init step h s)
    (hh : h = pre ++ x :: post) : Exec init step pre x.1 := by
  induction hex generalizing post with
  | start _ => simp at hh
  | @next h s s' l hex _ ih =>
    rcases List.eq_nil_or_concat post with rfl | ⟨post, y, rfl⟩
    · obtain ⟨rfl, hx⟩ := List.append_inj' hh rfl
      obtain rfl := List.singleton_inj.mp hx
      exact hex
    · rw [List.concat_eq_append, ← List.cons_append, ← List.append_assoc] at hh
      exact ih (List.append_inj' hh rfl).1

section

variable (hm : Metered step ok credit item cost gated) {s₀ s : σ} {h : List (σ × ℓ)}

include hm

/-- The credit left after a run. -/
theorem Metered.left (hex : Exec (· = s₀) step h s) (hok : ∀ x ∈ h, ok x.1 x.2) :
    credit s = credit s₀ - ((h.filterMap item).map cost).sum := by
  induction hex with
  | start hs => simp [hs]
  | @next h s s' l _ hs ih =>
    have hprev := ih fun x hx => hok x (List.mem_append_left _ hx)
    have hlast := hok (s, l) (by simp)
    rw [List.filterMap_append, List.map_append, List.sum_append, ← Nat.sub_sub, ← hprev]
    cases hk : item (s, l) with
    | none => simpa [hk] using hm.free s l s' hs hlast hk
    | some k => simpa [hk] using hm.pays s l s' k hs hlast hk

/-- **What is spent before a gated item is less than the credit.** -/
theorem Metered.before_gated (hex : Exec (· = s₀) step h s) (hok : ∀ x ∈ h, ok x.1 x.2) {pre post : List κ} {k : κ}
    (hh : h.filterMap item = pre ++ k :: post) (hk : gated k = true) : (pre.map cost).sum < credit s₀ := by
  obtain ⟨before, after, rfl, hbefore, hafter⟩ := List.filterMap_eq_append_iff.mp hh
  obtain ⟨free, x, after, rfl, hfree, hx, -⟩ := List.filterMap_eq_cons_iff.mp hafter
  -- the credit that the step of `k` finds
  rw [← List.append_assoc] at hex hok
  obtain ⟨s', hs⟩ := hex.taken x (by simp)
  have hpos := hm.gate x.1 x.2 s' k hs (hok x (by simp)) hx hk
  rw [hm.left (exec_before hex rfl) fun y hy => hok y (List.mem_append_left _ hy), List.filterMap_append, hbefore,
    List.filterMap_eq_nil_iff.mpr hfree, List.append_nil] at hpos
  omega

/-- **The gated items overdraw the credit by less than the largest cost.** -/
theorem Metered.gated_lt (hex : Exec (· = s₀) step h s) (hok : ∀ x ∈ h, ok x.1 x.2) {n : ℕ}
    (hmax : ∀ k ∈ h.filterMap item, cost k ≤ n) (hne : (h.filterMap item).filter gated ≠ []) :
    (((h.filterMap item).filter gated).map cost).sum < credit s₀ + n := by
  obtain ⟨init, k, hinit⟩ := (List.eq_nil_or_concat _).resolve_left hne
  rw [List.concat_eq_append] at hinit
  -- the last gated item, and what is spent before it
  obtain ⟨pre, rest, hh, hpre, hrest⟩ := List.filter_eq_append_iff.mp hinit
  obtain ⟨mid, post, rfl, -, hk, -⟩ := List.filter_eq_cons_iff.mp hrest
  have hall : h.filterMap item = (pre ++ mid) ++ k :: post := by rw [hh, List.append_assoc]
  have hlt := hm.before_gated hex hok hall hk
  have hsub : (init.map cost).sum ≤ ((pre ++ mid).map cost).sum := by
    rw [← hpre]
    exact ((List.filter_sublist.trans (List.sublist_append_left _ _)).map cost).sum_le_sum fun _ _ => Nat.zero_le _
  have hlast := hmax k (by simp [hh])
  rw [hinit, List.map_append, List.sum_append, List.map_singleton, List.sum_singleton]
  omega

end

end Credit
