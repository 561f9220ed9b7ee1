import Mathlib.Control.Monad.Writer

/-!
# Computations that note the indices they use

A computation that looks up a table is written a second time in the writer monad, with `probe` where it looks up.
Its `value` is then the computation as it was, and its `indices` are those used.  `Within` is a property of all of
them; it goes through `pure`, `bind` and the loops by the rules here.
-/

namespace Probe

universe u

variable {ι α β : Type u}

/-- A computation with the list of the indices that it uses. -/
abbrev Probed (ι α : Type u) : Type u := Writer (List ι) α

/-- Look up `i` in a table. -/
def probe (table : ι → α) (i : ι) : Probed ι α := do
  tell [i]
  pure (table i)

/-- Go over the entries of a table at `is`. -/
def probeAll (is : List ι) : Probed ι PUnit := tell is

/-- The result. -/
def value (p : Probed ι α) : α := p.run.1

/-- The indices. -/
def indices (p : Probed ι α) : List ι := p.run.2

/-- All indices have the property. -/
def Within (P : ι → Prop) (p : Probed ι α) : Prop := ∀ i ∈ indices p, P i

@[simp] theorem value_pure (a : α) : value (pure a : Probed ι α) = a := rfl

@[simp] theorem value_bind (p : Probed ι α) (f : α → Probed ι β) : value (p >>= f) = value (f (value p)) := rfl

@[simp] theorem value_map (f : α → β) (p : Probed ι α) : value (f <$> p) = f (value p) := rfl

@[simp] theorem value_probe (table : ι → α) (i : ι) : value (probe table i) = table i := rfl

@[simp] theorem indices_pure (a : α) : indices (pure a : Probed ι α) = [] := rfl

@[simp] theorem indices_bind (p : Probed ι α) (f : α → Probed ι β) :
    indices (p >>= f) = indices p ++ indices (f (value p)) := rfl

@[simp] theorem indices_map (f : α → β) (p : Probed ι α) : indices (f <$> p) = indices p := rfl

@[simp] theorem indices_probe (table : ι → α) (i : ι) : indices (probe table i) = [i] := rfl

theorem value_ite (c : Prop) [Decidable c] (p q : Probed ι α) :
    value (if c then p else q) = if c then value p else value q :=
  apply_ite value c p q

section

variable {P : ι → Prop}

@[simp] theorem within_pure (a : α) : Within P (pure a : Probed ι α) := fun _ hi => absurd hi List.not_mem_nil

@[simp] theorem within_map {f : α → β} {p : Probed ι α} : Within P (f <$> p) ↔ Within P p := Iff.rfl

@[simp] theorem within_probe {table : ι → α} {i : ι} : Within P (probe table i) ↔ P i := List.forall_mem_singleton

@[simp] theorem within_probeAll {is : List ι} : Within P (probeAll is) ↔ ∀ i ∈ is, P i := Iff.rfl

@[simp] theorem within_bind {p : Probed ι α} {f : α → Probed ι β} :
    Within P (p >>= f) ↔ Within P p ∧ Within P (f (value p)) := by
  unfold Within
  rw [indices_bind]
  exact List.forall_mem_append

/-- A lookup, and what is done with what it finds. -/
theorem within_probe_bind {table : ι → β} {i : ι} {f : β → Probed ι α} (hi : P i) (hf : Within P (f (table i))) :
    Within P (probe table i >>= f) :=
  within_bind.mpr ⟨within_probe.mpr hi, hf⟩

theorem within_ite {c : Prop} [Decidable c] {p q : Probed ι α} (hp : c → Within P p) (hq : ¬ c → Within P q) :
    Within P (if c then p else q) := by
  split
  · rename_i hc
    exact hp hc
  · rename_i hc
    exact hq hc

end

/-! ### Loops -/

section

variable {γ : Type*} (f : α → γ → Probed ι α)

theorem value_foldlM (l : List γ) : ∀ a, value (l.foldlM f a) = l.foldl (fun a x => value (f a x)) a := by
  induction l with
  | nil => exact fun _ => rfl
  | cons x l ih =>
    intro a
    rw [List.foldlM_cons, value_bind, ih, List.foldl_cons]

theorem within_foldlM {P : ι → Prop} (hf : ∀ a x, Within P (f a x)) (l : List γ) :
    ∀ a, Within P (l.foldlM f a) := by
  induction l with
  | nil => exact fun a => within_pure a
  | cons x l ih =>
    intro a
    rw [List.foldlM_cons, within_bind]
    exact ⟨hf a x, ih _⟩

end

end Probe
