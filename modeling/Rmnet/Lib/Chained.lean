import Mathlib.Data.List.Nodup
import Mathlib.Logic.Function.Basic

/-!
# Chained hash tables

A table has one chain of entries for each bucket, and an entry lies in the bucket that its key hashes to.  `Placed`
says so, and that a chain has no key twice; then a key has at most one entry in the table.  Changing the entry of a
key and putting a new entry in front of a chain keep this.

* `Placed.unique` — an entry is determined by its key;
* `Placed.modify`, `Placed.insert` — the two operations;
* `mem_modifyKey` — what a chain holds once the entry of a key is changed.
-/

namespace Chained

variable {ι κ α : Type*} {key : α → κ} {hash : κ → ι} {tab : ι → List α}

/-- Every entry lies in the bucket of its key, and no chain has a key twice. -/
structure Placed (key : α → κ) (hash : κ → ι) (tab : ι → List α) : Prop where
  bucket : ∀ i, ∀ x ∈ tab i, hash (key x) = i
  nodup : ∀ i, ((tab i).map key).Nodup

theorem placed_empty : Placed key hash fun _ => [] :=
  ⟨fun _ _ hx => absurd hx List.not_mem_nil, fun _ => List.nodup_nil⟩

/-- In a chain without a key twice, an entry is determined by its key. -/
theorem eq_of_key {xs : List α} (hn : (xs.map key).Nodup) {x y : α} (hx : x ∈ xs) (hy : y ∈ xs)
    (hk : key x = key y) : x = y :=
  List.inj_on_of_nodup_map hn hx hy hk

/-- An entry is determined by its key. -/
theorem Placed.unique (h : Placed key hash tab) {i j : ι} {x y : α} (hx : x ∈ tab i) (hy : y ∈ tab j)
    (hk : key x = key y) : i = j ∧ x = y := by
  have hij : i = j := by rw [← h.bucket i x hx, ← h.bucket j y hy, hk]
  subst hij
  exact ⟨rfl, eq_of_key (h.nodup i) hx hy hk⟩

section

variable [DecidableEq ι]

/-- A chain is replaced. -/
theorem Placed.update (h : Placed key hash tab) {i : ι} {xs : List α} (hb : ∀ x ∈ xs, hash (key x) = i)
    (hn : (xs.map key).Nodup) : Placed key hash (Function.update tab i xs) := by
  refine ⟨fun j x hx => ?_, fun j => ?_⟩
  · by_cases hj : j = i
    · subst hj
      rw [Function.update_self] at hx
      exact hb x hx
    · rw [Function.update_of_ne hj] at hx
      exact h.bucket j x hx
  · by_cases hj : j = i
    · subst hj
      rw [Function.update_self]
      exact hn
    · rw [Function.update_of_ne hj]
      exact h.nodup j

/-- A new entry goes in front of the chain of its key. -/
theorem Placed.insert (h : Placed key hash tab) {x : α} (hnew : ∀ y ∈ tab (hash (key x)), key y ≠ key x) :
    Placed key hash (Function.update tab (hash (key x)) (x :: tab (hash (key x)))) := by
  refine h.update (fun y hy => ?_) ?_
  · rcases List.mem_cons.mp hy with rfl | hy
    · rfl
    · exact h.bucket _ y hy
  · rw [List.map_cons, List.nodup_cons]
    refine ⟨fun hmem => ?_, h.nodup _⟩
    obtain ⟨y, hy, hk⟩ := List.mem_map.mp hmem
    exact hnew y hy hk

end

variable [DecidableEq κ]

/-- The first entry with a key is changed. -/
def modifyKey (key : α → κ) (k : κ) (f : α → α) : List α → List α
  | [] => []
  | x :: xs => if key x = k then f x :: xs else x :: modifyKey key k f xs

theorem map_modifyKey {f : α → α} (hf : ∀ x, key (f x) = key x) (k : κ) (xs : List α) :
    (modifyKey key k f xs).map key = xs.map key := by
  induction xs with
  | nil => rfl
  | cons x xs ih =>
    rw [modifyKey]
    split
    · rw [List.map_cons, List.map_cons, hf]
    · rw [List.map_cons, List.map_cons, ih]

/-- What a chain holds once the entry of a key is changed. -/
theorem mem_modifyKey {f : α → α} {k : κ} {xs : List α} (hn : (xs.map key).Nodup) {y : α}
    (hy : y ∈ modifyKey key k f xs) : (∃ x ∈ xs, key x = k ∧ y = f x) ∨ (y ∈ xs ∧ key y ≠ k) := by
  induction xs with
  | nil => cases hy
  | cons x xs ih =>
    rw [List.map_cons, List.nodup_cons] at hn
    rw [modifyKey] at hy
    split at hy
    · rename_i hk
      rcases List.mem_cons.mp hy with rfl | hy
      · exact .inl ⟨x, List.mem_cons_self, hk, rfl⟩
      · refine .inr ⟨List.mem_cons_of_mem _ hy, fun hyk => hn.1 ?_⟩
        rw [hk, ← hyk]
        exact List.mem_map_of_mem hy
    · rename_i hk
      rcases List.mem_cons.mp hy with rfl | hy
      · exact .inr ⟨List.mem_cons_self, hk⟩
      · rcases ih hn.2 hy with ⟨z, hz, hzk, rfl⟩ | ⟨hz, hzk⟩
        · exact .inl ⟨z, List.mem_cons_of_mem _ hz, hzk, rfl⟩
        · exact .inr ⟨List.mem_cons_of_mem _ hz, hzk⟩

/-- The entry of a key is changed. -/
theorem Placed.modify [DecidableEq ι] (h : Placed key hash tab) {f : α → α} (hf : ∀ x, key (f x) = key x) (k : κ) :
    Placed key hash (Function.update tab (hash k) (modifyKey key k f (tab (hash k)))) := by
  refine h.update (fun y hy => ?_) (by rw [map_modifyKey hf]; exact h.nodup _)
  rcases mem_modifyKey (h.nodup _) hy with ⟨x, hx, -, rfl⟩ | ⟨hy, -⟩
  · rw [hf]
    exact h.bucket _ x hx
  · exact h.bucket _ y hy

end Chained
