import Mathlib.Data.Finset.Lattice.Fold
import Mathlib.Data.Finset.Lattice.Lemmas
import Mathlib.Data.Finset.SDiff
import Mathlib.Order.Lattice.Nat

/-!
# Allocation that may fail, and what a call owns

The live objects, and whether each of the coming allocations succeeds.  `Owns l s h` says that `h` has the
objects of `l`, those of `s`, and no others.  Code that starts with `l` shows what it has allocated by `s`;
once `s` is empty it has undone all of it.
-/

namespace Alloc

/-- The live objects by address, and the outcomes of the allocations to come. -/
structure Heap where
  live : Finset ℕ
  outcome : ℕ → Bool

/-- Allocate one object, at an address that is not in use. -/
def alloc (h : Heap) : Heap × Option ℕ :=
  let a := h.live.sup id + 1
  let rest := fun n => h.outcome (n + 1)
  if h.outcome 0 then ({ live := insert a h.live, outcome := rest }, some a)
  else ({ live := h.live, outcome := rest }, none)

/-- Free one object. -/
def free (h : Heap) (a : ℕ) : Heap := { h with live := h.live.erase a }

/-- The objects of `l` and of `s`, which are not the same, are all that is live. -/
structure Owns (l s : Finset ℕ) (h : Heap) : Prop where
  disjoint : Disjoint l s
  live : h.live = l ∪ s

theorem Owns.start (h : Heap) : Owns h.live ∅ h := ⟨Finset.disjoint_empty_right _, (Finset.union_empty _).symm⟩

/-- Whoever owns nothing has undone everything. -/
theorem Owns.undone {l : Finset ℕ} {h : Heap} (ho : Owns l ∅ h) : h.live = l := by
  rw [ho.live, Finset.union_empty]

/-- The fresh address is above every address in use. -/
theorem fresh_not_mem (s : Finset ℕ) : s.sup id + 1 ∉ s := by
  intro hmem
  have hle : id (s.sup id + 1) ≤ s.sup id := Finset.le_sup hmem
  exact Nat.not_succ_le_self _ hle

theorem alloc_fail {h : Heap} (hf : h.outcome 0 = false) :
    alloc h = ({ live := h.live, outcome := fun n => h.outcome (n + 1) }, none) := by
  simp only [alloc, hf, Bool.false_eq_true, if_false]

/-- A successful allocation adds one object to those of the owner. -/
theorem alloc_success {h : Heap} (hs : h.outcome 0 = true) :
    ∃ a h', alloc h = (h', some a) ∧ h'.outcome = (fun n => h.outcome (n + 1)) ∧ a ∉ h.live ∧
      ∀ l s, Owns l s h → a ∉ s ∧ Owns l (insert a s) h' := by
  refine ⟨h.live.sup id + 1, { live := insert (h.live.sup id + 1) h.live, outcome := fun n => h.outcome (n + 1) },
    by simp only [alloc, hs, if_true], rfl, fresh_not_mem _, ?_⟩
  intro l s ho
  have hfresh := fresh_not_mem h.live
  rw [ho.live, Finset.mem_union, not_or] at hfresh
  rw [← ho.live] at hfresh
  refine ⟨hfresh.2, ?_, ?_⟩
  · rw [Finset.disjoint_insert_right]
    exact ⟨hfresh.1, ho.disjoint⟩
  · show insert (h.live.sup id + 1) h.live = l ∪ insert (h.live.sup id + 1) s
    rw [Finset.union_insert, ← ho.live]

/-- Freeing an own object leaves the other ones. -/
theorem Owns.free {l s : Finset ℕ} {h : Heap} (ho : Owns l s h) {a : ℕ} (ha : a ∈ s) :
    Owns l (s.erase a) (free h a) := by
  refine ⟨ho.disjoint.mono_right (Finset.erase_subset a s), ?_⟩
  have hal : a ∉ l := Finset.disjoint_right.mp ho.disjoint ha
  show h.live.erase a = _
  rw [ho.live, Finset.erase_union_distrib, Finset.erase_eq_of_notMem hal]

/-- Freeing a list of own objects, one by one. -/
theorem Owns.freeAll {l : Finset ℕ} (as : List ℕ) (hnd : as.Nodup) : ∀ {s : Finset ℕ} {h : Heap}, Owns l s h →
    (∀ a ∈ as, a ∈ s) → Owns l (s \ as.toFinset) (as.foldl Alloc.free h) := by
  induction as with
  | nil =>
    intro s h ho _
    simpa using ho
  | cons a as ih =>
    intro s h ho hmem
    obtain ⟨hnot, hnd'⟩ := List.nodup_cons.mp hnd
    have hne : ∀ b ∈ as, b ∈ s.erase a := by
      intro b hb
      refine Finset.mem_erase.mpr ⟨?_, hmem b (List.mem_cons_of_mem a hb)⟩
      rintro rfl
      exact hnot hb
    have hrest := ih hnd' (ho.free (hmem a List.mem_cons_self)) hne
    have hset : s \ (a :: as).toFinset = s.erase a \ as.toFinset := by
      rw [List.toFinset_cons, Finset.sdiff_insert, Finset.erase_sdiff_comm]
    rw [hset]
    exact hrest

end Alloc
