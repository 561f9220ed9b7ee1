import Mathlib.Data.List.Nodup
import Mathlib.Logic.Function.Basic

/-!
# A ledger of requests and their confirmations

Requests carry tokens.  A request is confirmed at once, or its token is held in a slot and confirmed from
there later; a slot may also let go of its token unconfirmed.  As long as every request brings a new token and
a slot lets go of the token that it confirms, no token is confirmed twice.

`Move` says what happens to the slots, with the tokens requested and confirmed; `Step` is a move with its two
logs; `Sound` is the invariant.
-/

namespace Ledger

variable {σ τ : Type*}

/-- The tokens that a slot may hold, and the logs of the tokens requested and confirmed. -/
structure Book (σ τ : Type*) where
  requested : List τ
  confirmed : List τ
  held : σ → Option τ

/-- What a step does to the slots, with the tokens that it requests and that it confirms. -/
inductive Move [DecidableEq σ] (held : σ → Option τ) : (σ → Option τ) → List τ → List τ → Prop
  /-- Any number of slots let go. -/
  | release (held' : σ → Option τ) : (∀ s, held' s = held s ∨ held' s = none) → Move held held' [] []
  /-- A held token is confirmed. -/
  | confirm (s : σ) (t : τ) : held s = some t → Move held (Function.update held s none) [] [t]
  /-- A new token is held. -/
  | hold (s : σ) (t : τ) : Move held (Function.update held s (some t)) [t] []
  /-- A new token is confirmed at once. -/
  | refuse (t : τ) : Move held held [t] [t]
  /-- A new token is dropped. -/
  | drop (t : τ) : Move held held [t] []

/-- One step: a move, whose requests bring new tokens. -/
def Step [DecidableEq σ] (b b' : Book σ τ) : Prop :=
  ∃ req cnf, Move b.held b'.held req cnf ∧ (∀ t ∈ req, t ∉ b.requested) ∧
    b'.requested = b.requested ++ req ∧ b'.confirmed = b.confirmed ++ cnf

/-- The invariant: a token that is held has been requested, has not been confirmed, and is held once. -/
structure Sound (b : Book σ τ) : Prop where
  nodup : b.confirmed.Nodup
  requested : ∀ t ∈ b.confirmed, t ∈ b.requested
  held_requested : ∀ s t, b.held s = some t → t ∈ b.requested
  held_open : ∀ s t, b.held s = some t → t ∉ b.confirmed
  held_once : ∀ s s' t, b.held s = some t → b.held s' = some t → s = s'

/-- An empty book. -/
theorem sound_empty {b : Book σ τ} (hcnf : b.confirmed = []) (hheld : ∀ s, b.held s = none) : Sound b := by
  refine ⟨by rw [hcnf]; exact List.nodup_nil, by simp [hcnf], ?_, ?_, ?_⟩
  all_goals simp [hheld]

section

variable {b b' : Book σ τ}

/-- Fewer tokens held, more requested, none confirmed. -/
theorem Sound.shrink (h : Sound b) (hcnf : b'.confirmed = b.confirmed)
    (hreq : ∀ t ∈ b.requested, t ∈ b'.requested)
    (hheld : ∀ s t, b'.held s = some t → b.held s = some t) : Sound b' where
  nodup := by
    rw [hcnf]
    exact h.nodup
  requested := by
    rw [hcnf]
    exact fun t ht => hreq t (h.requested t ht)
  held_requested := fun s t ht => hreq t (h.held_requested s t (hheld s t ht))
  held_open := by
    rw [hcnf]
    exact fun s t ht => h.held_open s t (hheld s t ht)
  held_once := fun s s' t ht ht' => h.held_once s s' t (hheld s t ht) (hheld s' t ht')

/-- One more token is confirmed, which is new to that log and held by no slot. -/
theorem Sound.log (h : Sound b) {t : τ} (hnew : t ∉ b.confirmed) (hreq : t ∈ b.requested)
    (hheld : ∀ s, b.held s ≠ some t) : Sound { b with confirmed := b.confirmed ++ [t] } where
  nodup := by
    rw [List.nodup_append]
    refine ⟨h.nodup, List.nodup_singleton t, fun x hx y hy hxy => hnew ?_⟩
    rw [← List.mem_singleton.mp hy, ← hxy]
    exact hx
  requested := by
    intro x hx
    rcases List.mem_append.mp hx with hx | hx
    · exact h.requested x hx
    · rw [List.mem_singleton.mp hx]
      exact hreq
  held_requested := h.held_requested
  held_open := by
    intro s x hs hx
    rcases List.mem_append.mp hx with hx | hx
    · exact h.held_open s x hs hx
    · rw [List.mem_singleton.mp hx] at hs
      exact hheld s hs
  held_once := h.held_once

variable [DecidableEq σ]

/-- A new token is held. -/
theorem Sound.hold (h : Sound b) {t : τ} (hnew : t ∉ b.requested) (s : σ) :
    Sound { b with requested := b.requested ++ [t], held := Function.update b.held s (some t) } := by
  have hfresh : ∀ s', b.held s' ≠ some t := fun s' hs => hnew (h.held_requested s' t hs)
  have hcases : ∀ s' x, Function.update b.held s (some t) s' = some x →
      (s' = s ∧ x = t) ∨ (s' ≠ s ∧ b.held s' = some x) := by
    intro s' x hx
    by_cases hs : s' = s
    · subst hs
      rw [Function.update_self, Option.some.injEq] at hx
      exact .inl ⟨rfl, hx.symm⟩
    · rw [Function.update_of_ne hs] at hx
      exact .inr ⟨hs, hx⟩
  refine ⟨h.nodup, fun x hx => List.mem_append_left _ (h.requested x hx), ?_, ?_, ?_⟩
  · intro s' x hx
    rcases hcases s' x hx with ⟨-, rfl⟩ | ⟨-, hold⟩
    · exact List.mem_append_right _ (List.mem_singleton.mpr rfl)
    · exact List.mem_append_left _ (h.held_requested s' x hold)
  · intro s' x hx hcnf
    rcases hcases s' x hx with ⟨-, rfl⟩ | ⟨-, hold⟩
    · exact hnew (h.requested x hcnf)
    · exact h.held_open s' x hold hcnf
  · intro s₁ s₂ x h₁ h₂
    rcases hcases s₁ x h₁ with ⟨hs₁, hx₁⟩ | ⟨-, hold₁⟩
    · rcases hcases s₂ x h₂ with ⟨hs₂, -⟩ | ⟨-, hold₂⟩
      · rw [hs₁, hs₂]
      · exact absurd (hx₁ ▸ hold₂) (hfresh s₂)
    · rcases hcases s₂ x h₂ with ⟨-, hx₂⟩ | ⟨-, hold₂⟩
      · exact absurd (hx₂ ▸ hold₁) (hfresh s₁)
      · exact h.held_once s₁ s₂ x hold₁ hold₂

/-- **One step keeps the book sound.** -/
theorem Sound.step (h : Sound b) (hs : Step b b') : Sound b' := by
  obtain ⟨req, cnf, hmove, hnew, hreq, hcnf⟩ := hs
  obtain ⟨req', cnf', held'⟩ := b'
  simp only at hmove hreq hcnf
  subst hreq hcnf
  -- a token that is only requested
  have hmore : ∀ t, Sound { b with requested := b.requested ++ [t] } := fun t =>
    h.shrink rfl (fun x hx => List.mem_append_left _ hx) fun _ _ hx => hx
  cases hmove with
  | release _ hle =>
    rw [List.append_nil, List.append_nil]
    refine h.shrink rfl (fun _ hx => hx) fun s t ht => ?_
    change held' s = some t at ht
    rcases hle s with hs | hs
    · rw [← hs]
      exact ht
    · rw [hs] at ht
      cases ht
  | confirm s t hheld =>
    rw [List.append_nil]
    -- the slot lets go first
    have hlet : Sound { b with held := Function.update b.held s none } := by
      refine h.shrink rfl (fun _ hx => hx) fun s' x hx => ?_
      change Function.update b.held s none s' = some x at hx
      by_cases hs : s' = s
      · subst hs
        rw [Function.update_self] at hx
        cases hx
      · rwa [Function.update_of_ne hs] at hx
    refine hlet.log (h.held_open s t hheld) (h.held_requested s t hheld) fun s' hs' => ?_
    change Function.update b.held s none s' = some t at hs'
    by_cases hs : s' = s
    · subst hs
      rw [Function.update_self] at hs'
      cases hs'
    · rw [Function.update_of_ne hs] at hs'
      exact hs (h.held_once s' s t hs' hheld)
  | hold s t =>
    rw [List.append_nil]
    exact h.hold (hnew t (List.mem_singleton.mpr rfl)) s
  | refuse t =>
    have hnt : t ∉ b.requested := hnew t (List.mem_singleton.mpr rfl)
    exact (hmore t).log (fun ht => hnt (h.requested t ht))
      (List.mem_append_right _ (List.mem_singleton.mpr rfl)) fun s hs => hnt (h.held_requested s t hs)
  | drop t =>
    rw [List.append_nil]
    exact hmore t

end

/-- **A move of some of the slots is a move of all of them.** -/
theorem Move.lift {ι : Type*} [DecidableEq ι] [DecidableEq σ] {f : ι → σ} (hf : Function.Injective f)
    {held held' : σ → Option τ} {req cnf : List τ} (h : Move (held ∘ f) (held' ∘ f) req cnf)
    (hrest : ∀ s, (∀ i, f i ≠ s) → held' s = held s) : Move held held' req cnf := by
  -- a point update below is a point update above
  have hupd : ∀ i o, held' ∘ f = Function.update (held ∘ f) i o → held' = Function.update held (f i) o := by
    intro i o hi
    funext s
    by_cases hs : ∃ j, f j = s
    · obtain ⟨j, rfl⟩ := hs
      have hj := congrFun hi j
      rw [Function.comp_apply] at hj
      rw [hj]
      by_cases hji : j = i
      · subst hji
        rw [Function.update_self, Function.update_self]
      · rw [Function.update_of_ne hji, Function.update_of_ne (hf.ne hji), Function.comp_apply]
    · rw [Function.update_of_ne fun hi => hs ⟨i, hi.symm⟩]
      exact hrest s fun j hj => hs ⟨j, hj⟩
  have hsame : held' ∘ f = held ∘ f → held' = held := by
    intro hi
    funext s
    by_cases hs : ∃ j, f j = s
    · obtain ⟨j, rfl⟩ := hs
      exact congrFun hi j
    · exact hrest s fun j hj => hs ⟨j, hj⟩
  generalize hlow : held' ∘ f = low at h
  cases h with
  | release _ hle =>
    refine .release held' fun s => ?_
    by_cases hs : ∃ j, f j = s
    · obtain ⟨j, rfl⟩ := hs
      have hj := hle j
      rw [← hlow] at hj
      exact hj
    · exact .inl (hrest s fun j hj => hs ⟨j, hj⟩)
  | confirm i t hi =>
    rw [hupd i none hlow]
    exact .confirm (f i) t hi
  | hold i t =>
    rw [hupd i (some t) hlow]
    exact .hold (f i) t
  | refuse t =>
    rw [hsame hlow]
    exact .refuse t
  | drop t =>
    rw [hsame hlow]
    exact .drop t

end Ledger
