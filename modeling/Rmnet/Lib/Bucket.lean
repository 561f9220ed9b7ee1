import Mathlib.Data.List.Flatten
import Mathlib.Data.List.Nodup
import Mathlib.Data.List.Perm.Basic
import Mathlib.Logic.Function.Basic

/-!
# Tables of buckets

A table with one list per index, as a chained hash table has.  `Represents tab own` says that every bucket
holds at most the one entry that the partial map `own` gives to its index.  The operations on a bucket are
then operations on the map, and the list of all entries over a list of indices follows both.
-/

namespace Bucket

variable {ι α : Type*}

/-- Every bucket holds what the partial map gives to its index. -/
def Represents (tab : ι → List α) (own : ι → Option α) : Prop := ∀ i, tab i = (own i).toList

/-- The entries of the buckets of `l`, in the order of `l`. -/
def entries (l : List ι) (tab : ι → List α) : List α := l.flatMap tab

theorem represents_empty : Represents (fun _ : ι => ([] : List α)) fun _ => none := fun _ => rfl

/-- A search for an entry that is right for the index finds the entry of the index. -/
theorem Represents.find? {tab : ι → List α} {own : ι → Option α} (h : Represents tab own) {i : ι}
    {p : α → Bool} (hp : ∀ x, own i = some x → p x = true) : (tab i).find? p = own i := by
  rw [h i]
  cases hi : own i with
  | none => rfl
  | some x => simp [hp x hi]

/-- Removing the first entry that is right for the index empties the bucket. -/
theorem Represents.eraseP {tab : ι → List α} {own : ι → Option α} (h : Represents tab own) {i : ι}
    {p : α → Bool} (hp : ∀ x, own i = some x → p x = true) : (tab i).eraseP p = [] := by
  rw [h i]
  cases hi : own i with
  | none => rfl
  | some x => simp [hp x hi]

/-- The keys of the entries are the indices that the map has an entry for. -/
theorem Represents.map_entries {tab : ι → List α} {own : ι → Option α} (h : Represents tab own)
    {key : α → ι} (hkey : ∀ i x, own i = some x → key x = i) (l : List ι) :
    (entries l tab).map key = l.filter fun i => (own i).isSome := by
  induction l with
  | nil => rfl
  | cons i l ih =>
    simp only [entries, List.flatMap_cons, List.map_append] at ih ⊢
    rw [ih, h i]
    cases hi : own i with
    | none => simp [hi]
    | some x => simp [hi, hkey i x hi]

theorem Represents.nodup_keys {tab : ι → List α} {own : ι → Option α} (h : Represents tab own)
    {key : α → ι} (hkey : ∀ i x, own i = some x → key x = i) {l : List ι} (hl : l.Nodup) :
    ((entries l tab).map key).Nodup := by
  rw [h.map_entries hkey]
  exact hl.filter _

theorem Represents.length_le {tab : ι → List α} {own : ι → Option α} (h : Represents tab own)
    {key : α → ι} (hkey : ∀ i x, own i = some x → key x = i) (l : List ι) :
    (entries l tab).length ≤ l.length := by
  have hlen := congrArg List.length (h.map_entries hkey l)
  rw [List.length_map] at hlen
  rw [hlen]
  exact List.length_filter_le _ _

theorem mem_entries {tab : ι → List α} {l : List ι} {x : α} : x ∈ entries l tab ↔ ∃ i ∈ l, x ∈ tab i :=
  List.mem_flatMap

section

variable [DecidableEq ι]

theorem Represents.push {tab : ι → List α} {own : ι → Option α} (h : Represents tab own) {i : ι} (x : α)
    (hi : own i = none) :
    Represents (Function.update tab i (x :: tab i)) (Function.update own i (some x)) := by
  intro j
  by_cases hj : j = i
  · subst hj
    rw [Function.update_self, Function.update_self, h j, hi]
    rfl
  · rw [Function.update_of_ne hj, Function.update_of_ne hj]
    exact h j

theorem Represents.clear {tab : ι → List α} {own : ι → Option α} (h : Represents tab own) (i : ι) :
    Represents (Function.update tab i []) (Function.update own i none) := by
  intro j
  by_cases hj : j = i
  · subst hj
    rw [Function.update_self, Function.update_self]
    rfl
  · rw [Function.update_of_ne hj, Function.update_of_ne hj]
    exact h j

theorem entries_update_of_notMem (tab : ι → List α) {i : ι} (b : List α) {l : List ι} (hi : i ∉ l) :
    entries l (Function.update tab i b) = entries l tab := by
  unfold entries
  refine List.flatMap_congr fun j hj => ?_
  rw [Function.update_of_ne]
  rintro rfl
  exact hi hj

/-- An entry in front of one bucket is one more entry in the table. -/
theorem entries_push (tab : ι → List α) {i : ι} (x : α) {l : List ι} (hl : l.Nodup) (hi : i ∈ l) :
    (entries l (Function.update tab i (x :: tab i))).Perm (x :: entries l tab) := by
  induction l with
  | nil => cases hi
  | cons j l ih =>
    rw [List.nodup_cons] at hl
    by_cases hj : i = j
    · subst hj
      have hrest := entries_update_of_notMem tab (x :: tab i) hl.1
      simp only [entries] at hrest
      simp only [entries, List.flatMap_cons, Function.update_self, hrest]
      exact List.Perm.refl _
    · have hmem : i ∈ l := (List.mem_cons.mp hi).resolve_left hj
      simp only [entries, List.flatMap_cons, Function.update_of_ne (Ne.symm hj)]
      exact ((ih hl.2 hmem).append_left (tab j)).trans List.perm_middle

/-- Clearing an occupied bucket takes its entry out of the table. -/
theorem Represents.entries_clear {tab : ι → List α} {own : ι → Option α} (h : Represents tab own) {i : ι}
    {x : α} (hx : own i = some x) {l : List ι} (hl : l.Nodup) (hi : i ∈ l) :
    (entries l tab).Perm (x :: entries l (Function.update tab i [])) := by
  have htab : tab i = [x] := by rw [h i, hx]; rfl
  have hp := entries_push (Function.update tab i []) x hl hi
  rwa [Function.update_self, Function.update_idem, ← htab, Function.update_eq_self] at hp

end

end Bucket
