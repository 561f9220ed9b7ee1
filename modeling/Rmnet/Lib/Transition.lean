import Mathlib.Logic.Basic
import Mathlib.Data.List.Basic

/-!
# Runs of a labelled transition system, and the two invariant rules

A system is an initial predicate and a labelled step relation.  `Exec` is a run that remembers the
pre-state and label of each of its steps, which is how a result "in every run whose steps all meet the
condition" is stated.  Where the step is a partial function, `runList` is the run over a list of operations
and `runList_invariant` its rule.
-/

namespace Transition

variable {σ ℓ : Type*}

/-- A run with its history: the pre-state and label of every step taken, and the state arrived at. -/
inductive Exec (init : σ → Prop) (step : σ → ℓ → σ → Prop) : List (σ × ℓ) → σ → Prop
  | start {s : σ} : init s → Exec init step [] s
  | next {h : List (σ × ℓ)} {s s' : σ} {l : ℓ} :
      Exec init step h s → step s l s' → Exec init step (h ++ [(s, l)]) s'

/-- Every entry of the history is a step that was taken. -/
theorem Exec.taken {init : σ → Prop} {step : σ → ℓ → σ → Prop} {h : List (σ × ℓ)} {s : σ}
    (hex : Exec init step h s) : ∀ x ∈ h, ∃ s', step x.1 x.2 s' := by
  induction hex with
  | start hs => exact fun x hx => absurd hx List.not_mem_nil
  | @next h s s' l hex hs ih =>
    intro x hx
    rcases List.mem_append.mp hx with hx | hx
    · exact ih x hx
    · rw [List.mem_singleton.mp hx]
      exact ⟨s', hs⟩

/-- A run is a run of a step relation that allows more. -/
theorem Exec.mono {init : σ → Prop} {step step' : σ → ℓ → σ → Prop} (hstep : ∀ s l s', step s l s' → step' s l s')
    {h : List (σ × ℓ)} {s : σ} (hex : Exec init step h s) : Exec init step' h s := by
  induction hex with
  | start hs => exact .start hs
  | next _ hs ih => exact ih.next (hstep _ _ _ hs)

/-- **The conditional invariant rule.**  `I` holds initially and every step that meets the side condition keeps
it; then it holds in all states of a run whose steps all meet the condition. -/
theorem Exec.invariant {init : σ → Prop} {step : σ → ℓ → σ → Prop} {I : σ → Prop} {ok : σ → ℓ → Prop}
    (hinit : ∀ s, init s → I s) (hstep : ∀ s l s', I s → step s l s' → ok s l → I s')
    {h : List (σ × ℓ)} {s : σ} (hex : Exec init step h s) (hok : ∀ x ∈ h, ok x.1 x.2) :
    ∀ x ∈ h.map Prod.fst ++ [s], I x := by
  induction hex with
  | start hs =>
    intro x hx
    rw [List.map_nil, List.nil_append, List.mem_singleton] at hx
    rw [hx]
    exact hinit _ hs
  | @next h s s' l hex hs ih =>
    have hprev := ih fun x hx => hok x (List.mem_append_left _ hx)
    have hlast : I s' := hstep s l s' (hprev s (by simp)) hs (hok (s, l) (by simp))
    intro x hx
    rw [List.map_append] at hx
    rcases List.mem_append.mp hx with hx | hx
    · exact hprev x hx
    · rw [List.mem_singleton.mp hx]
      exact hlast

/-- **The conditional invariant rule, exact.**  `I` holds initially, every step that meets the side
condition `ok` keeps it, and it gives `P`; a step that breaks the condition breaks `P`.  Then a run has
`P` in all its states exactly when all its steps meet the condition. -/
theorem Exec.forall_iff {init : σ → Prop} {step : σ → ℓ → σ → Prop} {I P : σ → Prop}
    {ok : σ → ℓ → Prop} (hinit : ∀ s, init s → I s) (hP : ∀ s, I s → P s)
    (hstep : ∀ s l s', I s → step s l s' → ok s l → I s')
    (hbad : ∀ s l s', I s → step s l s' → ¬ ok s l → ¬ P s') {h : List (σ × ℓ)} {s : σ}
    (hex : Exec init step h s) :
    ((∀ x ∈ h.map Prod.fst ++ [s], P x) ↔ ∀ x ∈ h, ok x.1 x.2) ∧ ((∀ x ∈ h, ok x.1 x.2) → I s) := by
  induction hex with
  | start hs =>
    refine ⟨⟨fun _ => by simp, fun _ => ?_⟩, fun _ => hinit _ hs⟩
    simpa using hP _ (hinit _ hs)
  | @next h s s' l hex hs ih =>
    obtain ⟨hiff, hI⟩ := ih
    have hI' : (∀ x ∈ h ++ [(s, l)], ok x.1 x.2) → I s' := by
      intro hall
      have hprev : ∀ x ∈ h, ok x.1 x.2 := fun x hx => hall x (by simp [hx])
      exact hstep s l s' (hI hprev) hs (hall (s, l) (by simp))
    refine ⟨⟨?_, ?_⟩, hI'⟩
    · intro hall
      have hprev : ∀ x ∈ h, ok x.1 x.2 := by
        refine hiff.mp fun x hx => hall x ?_
        simp only [List.map_append, List.map_cons, List.map_nil, List.mem_append] at hx ⊢
        exact .inl hx
      have hlast : ok s l := by
        by_contra hno
        exact hbad s l s' (hI hprev) hs hno (hall s' (by simp))
      intro x hx
      rcases List.mem_append.mp hx with hx | hx
      · exact hprev x hx
      · rw [List.mem_singleton.mp hx]
        exact hlast
    · intro hall x hx
      have hprev := hiff.mpr fun x hx => hall x (by simp [hx])
      rw [List.map_append] at hx
      rcases List.mem_append.mp hx with hx | hx
      · exact hprev x hx
      · rw [List.mem_singleton.mp hx]
        exact hP _ (hI' hall)

/-- The run of a partial step function over a list of operations. -/
def runList (step : σ → ℓ → Option σ) : σ → List ℓ → Option σ
  | s, [] => some s
  | s, o :: os => (step s o).bind fun s' => runList step s' os

/-- **The run rule, with history.**  `I` relates a state to the operations run so far; if a step extends
it by one operation, a whole run extends it by all of them. -/
theorem runList_invariant {step : σ → ℓ → Option σ} {I : List ℓ → σ → Prop}
    (hstep : ∀ done s o s', I done s → step s o = some s' → I (done ++ [o]) s') :
    ∀ (os : List ℓ) (done : List ℓ) (s s' : σ),
      I done s → runList step s os = some s' → I (done ++ os) s' := by
  intro os
  induction os with
  | nil =>
    intro done s s' hI hrun
    simp only [runList, Option.some.injEq] at hrun
    subst hrun
    simpa using hI
  | cons o os ih =>
    intro done s s' hI hrun
    simp only [runList, Option.bind_eq_some_iff] at hrun
    obtain ⟨s₁, hs, hrest⟩ := hrun
    have h := ih (done ++ [o]) s₁ s' (hstep done s o s₁ hI hs) hrest
    simpa using h

/-- A run goes on with a list of operations, all of which meet a condition. -/
theorem Exec.extend {init : σ → Prop} {step : σ → ℓ → Option σ} {k : σ → ℓ → Prop} (os : List ℓ)
    (hos : ∀ o ∈ os, ∀ s, k s o) : ∀ {h : List (σ × ℓ)} {s s' : σ},
      Exec init (fun s o s' => step s o = some s') h s → (∀ x ∈ h, k x.1 x.2) → runList step s os = some s' →
      ∃ h', Exec init (fun s o s' => step s o = some s') h' s' ∧ ∀ x ∈ h', k x.1 x.2 := by
  induction os with
  | nil =>
    intro h s s' hex hok hrun
    obtain rfl := Option.some.inj hrun
    exact ⟨h, hex, hok⟩
  | cons o os ih =>
    intro h s s' hex hok hrun
    obtain ⟨s₁, hs, hrest⟩ := Option.bind_eq_some_iff.mp hrun
    refine ih (fun o' ho' => hos o' (List.mem_cons_of_mem o ho')) (hex.next hs) (fun x hx => ?_) hrest
    rcases List.mem_append.mp hx with hx | hx
    · exact hok x hx
    · rw [List.mem_singleton.mp hx]
      exact hos o List.mem_cons_self s

end Transition
