import Mathlib.Data.List.Perm.Basic
import Mathlib.Data.List.Range
import Mathlib.Data.List.Count
import Mathlib.Logic.Function.Basic

/-!
# Objects with reference counts

Objects are numbered in the order of their allocation.  A new object has one reference; `get` adds one, and `put`
gives one up and frees the object with the last.  Nothing stops a `put` too many: that there is none is what
`Held c hs` says, by which `hs` lists the references that are held, one entry each.

* `Held.alloc`, `Held.get`, `Held.put` — the three operations, on the list of references.
* `Held.free_of_nil` — when no reference is held, every object has been freed exactly once.
-/

namespace Refcount

/-- The next object, the count of each object, and the objects that have been freed, in order. -/
structure Counts where
  next : ℕ
  refs : ℕ → ℕ
  freed : List ℕ

/-- A new object. -/
def Counts.alloc (c : Counts) : Counts := { c with next := c.next + 1, refs := Function.update c.refs c.next 1 }

/-- One more reference. -/
def Counts.get (c : Counts) (p : ℕ) : Counts := { c with refs := Function.update c.refs p (c.refs p + 1) }

/-- One reference less, and the last one frees the object. -/
def Counts.put (c : Counts) (p : ℕ) : Counts :=
  { c with
    refs := Function.update c.refs p (c.refs p - 1)
    freed := if c.refs p = 1 then c.freed ++ [p] else c.freed }

/-- `n` new objects. -/
def Counts.allocMany (c : Counts) : ℕ → Counts
  | 0 => c
  | n + 1 => (c.alloc).allocMany n

/-- No objects yet. -/
def Counts.empty : Counts := { next := 0, refs := fun _ => 0, freed := [] }

/-- The references that are held are those of `hs`, and the objects without one have been freed, once. -/
structure Held (c : Counts) (hs : List ℕ) : Prop where
  refs : ∀ p, c.refs p = hs.count p
  lt : ∀ p ∈ hs, p < c.next
  freed : ∀ p, p ∈ c.freed ↔ p < c.next ∧ p ∉ hs
  once : c.freed.Nodup

theorem held_empty : Held Counts.empty [] :=
  ⟨fun _ => rfl, by simp, by simp [Counts.empty], List.nodup_nil⟩

section

variable {c : Counts} {hs hs' : List ℕ}

theorem Held.perm (h : Held c hs) (hp : hs.Perm hs') : Held c hs' where
  refs := fun p => (h.refs p).trans (hp.count_eq p)
  lt := fun p hmem => h.lt p (hp.mem_iff.mpr hmem)
  freed := fun p => by rw [h.freed p, hp.mem_iff]
  once := h.once

/-- A new object is held by whoever allocated it. -/
theorem Held.alloc (h : Held c hs) : Held c.alloc (c.next :: hs) where
  refs := by
    intro p
    simp only [Counts.alloc]
    by_cases hp : p = c.next
    · subst hp
      have hnew : c.next ∉ hs := fun hmem => Nat.lt_irrefl _ (h.lt _ hmem)
      rw [Function.update_self, List.count_cons_self, List.count_eq_zero_of_not_mem hnew]
    · rw [Function.update_of_ne hp, List.count_cons_of_ne (Ne.symm hp)]
      exact h.refs p
  lt := by
    intro p hp
    rcases List.mem_cons.mp hp with rfl | hp
    · exact Nat.lt_succ_self _
    · exact Nat.lt_succ_of_lt (h.lt p hp)
  freed := by
    intro p
    simp only [Counts.alloc, List.mem_cons, not_or]
    rw [h.freed p]
    constructor
    · rintro ⟨hlt, hno⟩
      exact ⟨by omega, by omega, hno⟩
    · rintro ⟨hlt, hne, hno⟩
      exact ⟨by omega, hno⟩
  once := h.once

theorem Held.get (h : Held c hs) {p : ℕ} (hp : p ∈ hs) : Held (c.get p) (p :: hs) where
  refs := by
    intro q
    simp only [Counts.get]
    by_cases hq : q = p
    · subst hq
      rw [Function.update_self, List.count_cons_self, h.refs]
    · rw [Function.update_of_ne hq, List.count_cons_of_ne (Ne.symm hq)]
      exact h.refs q
  lt := by
    intro q hq
    rcases List.mem_cons.mp hq with rfl | hq
    · exact h.lt _ hp
    · exact h.lt q hq
  freed := by
    intro q
    have hmem : q ∈ p :: hs ↔ q ∈ hs := by
      rw [List.mem_cons]
      exact ⟨fun hq => hq.elim (fun hq => hq ▸ hp) id, .inr⟩
    rw [hmem]
    exact h.freed q
  once := h.once

/-- A reference that is held can be given up. -/
theorem Held.put {p : ℕ} (h : Held c (p :: hs)) : Held (c.put p) hs := by
  have hp : c.refs p = hs.count p + 1 := by rw [h.refs, List.count_cons_self]
  -- the last reference, or not
  have hlast : c.refs p = 1 ↔ p ∉ hs := by
    rw [hp, Nat.succ_inj, List.count_eq_zero]
  have hkept : p ∉ c.freed := by
    rw [h.freed]
    exact fun hf => hf.2 List.mem_cons_self
  refine ⟨?_, fun q hq => h.lt q (List.mem_cons_of_mem p hq), ?_, ?_⟩
  · intro q
    simp only [Counts.put]
    by_cases hq : q = p
    · subst hq
      rw [Function.update_self, hp, Nat.add_sub_cancel]
    · rw [Function.update_of_ne hq, h.refs, List.count_cons_of_ne (Ne.symm hq)]
  · intro q
    have hold := h.freed q
    rw [List.mem_cons, not_or] at hold
    have hnext : (c.put p).next = c.next := rfl
    rw [hnext]
    simp only [Counts.put]
    by_cases hq : q = p
    · subst hq
      by_cases hl : c.refs q = 1
      · rw [if_pos hl, List.mem_append, List.mem_singleton]
        exact ⟨fun _ => ⟨h.lt q List.mem_cons_self, hlast.mp hl⟩, fun _ => .inr rfl⟩
      · rw [if_neg hl]
        exact ⟨fun hf => absurd hf hkept, fun hno => absurd (hlast.mpr hno.2) hl⟩
    · have hmem : q ∈ (if c.refs p = 1 then c.freed ++ [p] else c.freed) ↔ q ∈ c.freed := by
        split
        · rw [List.mem_append, List.mem_singleton, or_iff_left hq]
        · exact Iff.rfl
      rw [hmem, hold]
      exact ⟨fun hx => ⟨hx.1, hx.2.2⟩, fun hx => ⟨hx.1, hq, hx.2⟩⟩
  · simp only [Counts.put]
    split
    · rw [List.nodup_append]
      refine ⟨h.once, List.pairwise_singleton _ p, fun a ha b hb => ?_⟩
      rw [List.mem_singleton.mp hb]
      rintro rfl
      exact hkept ha
    · exact h.once

/-- Several references are given up, one after the other. -/
theorem Held.putAll (ps : List ℕ) : ∀ {c : Counts}, Held c (ps ++ hs) → Held (ps.foldl Counts.put c) hs := by
  induction ps with
  | nil => exact fun h => h
  | cons p ps ih => exact fun h => ih (Held.put h)

/-- New objects in a row. -/
theorem Held.allocMany (n : ℕ) : ∀ {c : Counts} {hs : List ℕ}, Held c hs →
    Held (c.allocMany n) (List.range' c.next n ++ hs) := by
  induction n with
  | zero => exact fun h => h
  | succ n ih =>
    intro c hs h
    refine (ih h.alloc).perm ?_
    rw [List.range'_succ, List.cons_append]
    exact List.perm_middle

/-- **When no reference is held, every object has been freed exactly once.** -/
theorem Held.free_of_nil (h : Held c []) : c.freed.Perm (List.range c.next) ∧ ∀ p, c.refs p = 0 := by
  refine ⟨?_, h.refs⟩
  rw [List.perm_ext_iff_of_nodup h.once List.nodup_range]
  intro p
  rw [h.freed, List.mem_range]
  simp

end

end Refcount
