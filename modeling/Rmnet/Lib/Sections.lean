import Mathlib.Algebra.BigOperators.Group.List.Basic
import Mathlib.Algebra.Order.Ring.Nat

/-!
# Sections that somebody waits for

Readers enter sections, go on in them and leave.  Whoever synchronizes waits for those that are in a section at that
moment, and not for those that enter later.

* `Sections.has_synchronize`, `Sections.has_of_step` — who is in a section.
* `Sections.weight_step` — a step of a reader changes how much is left by its own share.
-/

namespace Reading

/-- The readers in a section: those that somebody waits for, and those that have entered since. -/
structure Sections (R : Type*) where
  recent : List R
  old : List R

/-- Nobody is in a section. -/
def Sections.empty {R : Type*} : Sections R := { recent := [], old := [] }

variable {R : Type*} {x : Sections R} {r s : R} {size : R → ℕ}

/-- The reader is in a section. -/
def Sections.Has (x : Sections R) (r : R) : Prop := r ∈ x.recent ∨ r ∈ x.old

/-- A reader enters. -/
def Sections.enter (x : Sections R) (r : R) : Sections R := { x with recent := r :: x.recent }

/-- Somebody begins to wait for those that are in a section. -/
def Sections.synchronize (x : Sections R) : Sections R := { recent := [], old := x.recent ++ x.old }

/-- The readers that somebody waits for, or the others. -/
def Sections.side (x : Sections R) (old : Bool) : List R := if old then x.old else x.recent

/-- A reader goes on as `next`, or leaves. -/
def Sections.step [DecidableEq R] (x : Sections R) (old : Bool) (r : R) (next : Option R) : Sections R :=
  if old then { x with old := next.toList ++ x.old.erase r } else { x with recent := next.toList ++ x.recent.erase r }

/-- What the readers of a list have still to do. -/
def weight (size : R → ℕ) (l : List R) : ℕ := (l.map size).sum

/-- What all readers have still to do. -/
def Sections.total (x : Sections R) (size : R → ℕ) : ℕ := weight size x.recent + weight size x.old

theorem has_enter : (x.enter r).Has s ↔ s = r ∨ x.Has s := by
  rw [Sections.Has, Sections.enter, List.mem_cons, or_assoc]
  rfl

theorem has_synchronize : x.synchronize.Has s ↔ x.Has s := by
  simp [Sections.Has, Sections.synchronize]

/-- Who is in a section after a step was in one before, or is the reader that has gone on. -/
theorem has_of_step [DecidableEq R] {old : Bool} {next : Option R} (h : (x.step old r next).Has s) :
    next = some s ∨ x.Has s := by
  unfold Sections.step Sections.Has at h
  split at h
  · rcases h with h | h
    · exact .inr (.inl h)
    · rcases List.mem_append.mp h with h | h
      · exact .inl (Option.mem_toList.mp h)
      · exact .inr (.inr (List.mem_of_mem_erase h))
  · rcases h with h | h
    · rcases List.mem_append.mp h with h | h
      · exact .inl (Option.mem_toList.mp h)
      · exact .inr (.inl (List.mem_of_mem_erase h))
    · exact .inr (.inr h)

/-- Those that nobody waits for were such before, but for the reader that has gone on. -/
theorem recent_of_step [DecidableEq R] {old : Bool} {next : Option R} (h : s ∈ (x.step old r next).recent) :
    next = some s ∨ s ∈ x.recent := by
  unfold Sections.step at h
  split at h
  · exact .inr h
  · rcases List.mem_append.mp h with h | h
    · exact .inl (Option.mem_toList.mp h)
    · exact .inr (List.mem_of_mem_erase h)

theorem has_of_side {old : Bool} (h : r ∈ x.side old) : x.Has r := by
  cases old with
  | true => exact .inr h
  | false => exact .inl h

/-- Nothing is left to do when nobody has anything to do. -/
theorem weight_eq_zero {l : List R} : weight size l = 0 ↔ ∀ r ∈ l, size r = 0 := by
  induction l with
  | nil => simp [weight]
  | cons s l ih =>
    have hcons : weight size (s :: l) = size s + weight size l := List.sum_cons
    rw [hcons, Nat.add_eq_zero_iff, ih, List.forall_mem_cons]

theorem total_eq_zero : x.total size = 0 ↔ ∀ r, x.Has r → size r = 0 := by
  rw [Sections.total, Nat.add_eq_zero_iff, weight_eq_zero, weight_eq_zero]
  exact ⟨fun h r hr => hr.elim (h.1 r) (h.2 r), fun h => ⟨fun r hr => h r (.inl hr), fun r hr => h r (.inr hr)⟩⟩

/-- **What a step changes**: the share of the reader that takes it. -/
theorem weight_step [DecidableEq R] (size : R → ℕ) {l : List R} (hr : r ∈ l) (next : Option R) :
    weight size (next.toList ++ l.erase r) + size r = weight size l + (next.map size).getD 0 := by
  have herase : size r + weight size (l.erase r) = weight size l := List.sum_map_erase size hr
  have happend : weight size (next.toList ++ l.erase r) = (next.map size).getD 0 + weight size (l.erase r) := by
    rw [weight, List.map_append, List.sum_append]
    cases next with
    | none => rfl
    | some s => simp [weight]
  omega

/-- The same, for all readers. -/
theorem total_step [DecidableEq R] (size : R → ℕ) {old : Bool} (hr : r ∈ x.side old) (next : Option R) :
    (x.step old r next).total size + size r = x.total size + (next.map size).getD 0 := by
  unfold Sections.step Sections.total
  cases old with
  | true =>
    have h := weight_step size (l := x.old) hr next
    simp only [if_true]
    omega
  | false =>
    have h := weight_step size (l := x.recent) hr next
    simp only [Bool.false_eq_true, if_false]
    omega

end Reading
