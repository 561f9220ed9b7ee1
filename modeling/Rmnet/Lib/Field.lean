import Mathlib.Data.List.TakeDrop
import Mathlib.Data.List.GetD
import Rmnet.Lib.Word

/-!
# Fields of a byte string

A header is a byte string; its fields are bytes and big-endian words at fixed offsets.  Reading past the
end gives zero, and a field that lies inside a prefix or a slice can be read there:
`byteAt_append_left`, `byteAt_append_right`, `byteAt_drop`, `byteAt_take`.
-/

namespace Field

/-- The byte at an offset. -/
def byteAt (b : List UInt8) (i : ℕ) : ℕ := (b.getD i 0).toNat

/-- The big-endian 16-bit word at an offset. -/
def be16At (b : List UInt8) (i : ℕ) : ℕ := byteAt b i * 256 + byteAt b (i + 1)

/-- The big-endian 32-bit word at an offset. -/
def be32At (b : List UInt8) (i : ℕ) : ℕ := be16At b i * 65536 + be16At b (i + 2)

/-- The little-endian 16-bit word at an offset. -/
def le16At (b : List UInt8) (i : ℕ) : ℕ := byteAt b i + byteAt b (i + 1) * 256

/-- The little-endian 32-bit word at an offset. -/
def le32At (b : List UInt8) (i : ℕ) : ℕ := le16At b i + le16At b (i + 2) * 65536

/-- The two bytes of a 16-bit word. -/
def be16 (v : ℕ) : List UInt8 := [UInt8.ofNat (v / 256), UInt8.ofNat v]

/-- The four bytes of a 32-bit word. -/
def be32 (v : ℕ) : List UInt8 := be16 (v / 65536) ++ be16 v

/-- Overwrite bytes from an offset on. -/
def overwrite (b : List UInt8) (i : ℕ) : List UInt8 → List UInt8
  | [] => b
  | x :: xs => overwrite (b.set i x) (i + 1) xs

/-- The `len` bytes at an offset, if they are there. -/
def readBytes (b : List UInt8) (off len : ℕ) : Option (List UInt8) :=
  if b.length < off + len then none else some ((b.drop off).take len)

/-! ### Reading -/

theorem readBytes_eq_some {b c : List UInt8} {off len : ℕ} (h : readBytes b off len = some c) :
    off + len ≤ b.length ∧ c = (b.drop off).take len := by
  unfold readBytes at h
  split at h
  · cases h
  · exact ⟨by omega, (Option.some.inj h).symm⟩

theorem readBytes_of_le {b : List UInt8} {off len : ℕ} (h : off + len ≤ b.length) :
    readBytes b off len = some ((b.drop off).take len) := by
  rw [readBytes, if_neg (by omega)]

theorem readBytes_append {b c : List UInt8} (d : List UInt8) {off len : ℕ} (h : readBytes b off len = some c) :
    readBytes (b ++ d) off len = some c := by
  obtain ⟨hle, rfl⟩ := readBytes_eq_some h
  rw [readBytes_of_le (by rw [List.length_append]; omega), List.drop_append_of_le_length (by omega),
    List.take_append_of_le_length (by rw [List.length_drop]; omega)]

theorem byteAt_lt (b : List UInt8) (i : ℕ) : byteAt b i < 256 := UInt8.toNat_lt _

theorem be16At_lt (b : List UInt8) (i : ℕ) : be16At b i < 65536 := by
  have h₁ := byteAt_lt b i
  have h₂ := byteAt_lt b (i + 1)
  unfold be16At
  omega

/-- A byte string is determined by its bytes. -/
theorem ext_byteAt {a b : List UInt8} (hlen : a.length = b.length)
    (h : ∀ i, i < a.length → byteAt a i = byteAt b i) : a = b := by
  apply List.ext_getElem hlen
  intro i h₁ h₂
  have hi := h i h₁
  simp only [byteAt, List.getD_eq_getElem _ _ h₁, List.getD_eq_getElem _ _ h₂] at hi
  exact UInt8.toNat.inj hi

theorem byteAt_append_left {a : List UInt8} (b : List UInt8) {i : ℕ} (h : i < a.length) :
    byteAt (a ++ b) i = byteAt a i := by
  rw [byteAt, byteAt, List.getD_append _ _ _ _ h]

theorem byteAt_append_right (a b : List UInt8) (i : ℕ) :
    byteAt (a ++ b) (a.length + i) = byteAt b i := by
  rw [byteAt, byteAt, List.getD_append_right _ _ _ _ (by omega)]
  congr 2
  omega

theorem byteAt_drop (b : List UInt8) (n i : ℕ) : byteAt (b.drop n) i = byteAt b (n + i) := by
  simp [byteAt, List.getD, List.getElem?_drop]

theorem byteAt_take {b : List UInt8} {n i : ℕ} (h : i < n) : byteAt (b.take n) i = byteAt b i := by
  simp [byteAt, List.getD, h]

theorem be16At_append_left {a : List UInt8} (b : List UInt8) {i : ℕ} (h : i + 1 < a.length) :
    be16At (a ++ b) i = be16At a i := by
  rw [be16At, be16At, byteAt_append_left b (by omega), byteAt_append_left b h]

theorem be16At_append_right (a b : List UInt8) (i : ℕ) :
    be16At (a ++ b) (a.length + i) = be16At b i := by
  rw [be16At, be16At, Nat.add_assoc, byteAt_append_right, byteAt_append_right]

theorem be16At_drop (b : List UInt8) (n i : ℕ) : be16At (b.drop n) i = be16At b (n + i) := by
  rw [be16At, be16At, byteAt_drop, byteAt_drop, Nat.add_assoc]

theorem be16At_take {b : List UInt8} {n i : ℕ} (h : i + 1 < n) : be16At (b.take n) i = be16At b i := by
  rw [be16At, be16At, byteAt_take (by omega), byteAt_take h]

theorem be32At_drop (b : List UInt8) (n i : ℕ) : be32At (b.drop n) i = be32At b (n + i) := by
  rw [be32At, be32At, be16At_drop, be16At_drop, Nat.add_assoc]

theorem be32At_take {b : List UInt8} {n i : ℕ} (h : i + 3 < n) : be32At (b.take n) i = be32At b i := by
  rw [be32At, be32At, be16At_take (by omega), be16At_take (by omega)]

theorem le16At_drop (b : List UInt8) (n i : ℕ) : le16At (b.drop n) i = le16At b (n + i) := by
  rw [le16At, le16At, byteAt_drop, byteAt_drop, Nat.add_assoc]

theorem le16At_take {b : List UInt8} {n i : ℕ} (h : i + 1 < n) : le16At (b.take n) i = le16At b i := by
  rw [le16At, le16At, byteAt_take (by omega), byteAt_take h]

theorem le32At_drop (b : List UInt8) (n i : ℕ) : le32At (b.drop n) i = le32At b (n + i) := by
  rw [le32At, le32At, le16At_drop, le16At_drop, Nat.add_assoc]

theorem le32At_take {b : List UInt8} {n i : ℕ} (h : i + 3 < n) : le32At (b.take n) i = le32At b i := by
  rw [le32At, le32At, le16At_take (by omega), le16At_take (by omega)]

/-! ### Writing -/

@[simp] theorem be16_length (v : ℕ) : (be16 v).length = 2 := rfl

@[simp] theorem be32_length (v : ℕ) : (be32 v).length = 4 := rfl

@[simp] theorem overwrite_length (xs : List UInt8) :
    ∀ (b : List UInt8) (i : ℕ), (overwrite b i xs).length = b.length := by
  induction xs with
  | nil =>
    intro b i
    rfl
  | cons x xs ih =>
    intro b i
    rw [overwrite, ih, List.length_set]

/-- Reading after writing: inside the written range the new bytes, elsewhere the old ones. -/
theorem byteAt_overwrite (xs : List UInt8) :
    ∀ (b : List UInt8) (i : ℕ) {j : ℕ}, j < b.length →
      byteAt (overwrite b i xs) j = if i ≤ j ∧ j < i + xs.length then byteAt xs (j - i) else byteAt b j := by
  induction xs with
  | nil =>
    intro b i j _
    rw [overwrite, if_neg (by simp)]
  | cons x xs ih =>
    intro b i j hj
    rw [overwrite, ih _ _ (by rw [List.length_set]; exact hj)]
    rcases Nat.lt_trichotomy i j with hlt | rfl | hgt
    · have hset : byteAt (b.set i x) j = byteAt b j := by
        simp [byteAt, List.getD, Nat.ne_of_lt hlt]
      have hidx : j - i = (j - (i + 1)) + 1 := by omega
      have hcons : byteAt (x :: xs) (j - i) = byteAt xs (j - (i + 1)) := by
        rw [hidx]
        rfl
      rw [hset, hcons, List.length_cons]
      by_cases hin : j < i + (xs.length + 1)
      · rw [if_pos ⟨hlt, by omega⟩, if_pos ⟨by omega, hin⟩]
      · rw [if_neg (by omega), if_neg (by omega)]
    · rw [if_neg (by omega), if_pos ⟨le_rfl, by simp⟩, Nat.sub_self]
      simp [byteAt, List.getD, hj]
    · rw [if_neg (by omega), if_neg (by omega)]
      simp [byteAt, List.getD, Nat.ne_of_gt hgt]

theorem byteAt_be16_zero (v : ℕ) : byteAt (be16 v) 0 = v / 256 % 256 := by
  show (UInt8.ofNat (v / 256)).toNat = _
  simp

theorem byteAt_be16_one (v : ℕ) : byteAt (be16 v) 1 = v % 256 := by
  show (UInt8.ofNat v).toNat = _
  simp

theorem be16_mod (v : ℕ) : be16 (v % 65536) = be16 v := by
  refine ext_byteAt (by simp) ?_
  intro i hi
  have hcases : i = 0 ∨ i = 1 := by
    rw [be16_length] at hi
    omega
  rcases hcases with rfl | rfl
  · rw [byteAt_be16_zero, byteAt_be16_zero]
    omega
  · rw [byteAt_be16_one, byteAt_be16_one]
    omega

/-- A word read in a header determines its bytes. -/
theorem byteAt_be16_of_eq {b : List UInt8} {i v : ℕ} (h : be16At b i = v) (j : ℕ) (hj : j < 2) :
    byteAt (be16 v) j = byteAt b (i + j) := by
  have h₁ := byteAt_lt b i
  have h₂ := byteAt_lt b (i + 1)
  unfold be16At at h
  have hcases : j = 0 ∨ j = 1 := by omega
  rcases hcases with rfl | rfl
  · rw [byteAt_be16_zero, Nat.add_zero]
    omega
  · rw [byteAt_be16_one]
    omega

theorem byteAt_be32_of_eq {b : List UInt8} {i v : ℕ} (h : be32At b i = v) (j : ℕ) (hj : j < 4) :
    byteAt (be32 v) j = byteAt b (i + j) := by
  have h₁ := be16At_lt b i
  have h₂ := be16At_lt b (i + 2)
  unfold be32At at h
  have hhigh : be16At b i = v / 65536 := by omega
  have hlow : be16At b (i + 2) = v % 65536 := by omega
  by_cases hlt : j < 2
  · rw [be32, byteAt_append_left _ (by rw [be16_length]; exact hlt), byteAt_be16_of_eq hhigh j hlt]
  · obtain ⟨k, rfl⟩ : ∃ k, j = 2 + k := ⟨j - 2, by omega⟩
    rw [be32, show 2 + k = (be16 (v / 65536)).length + k from rfl, byteAt_append_right]
    rw [← be16_mod v, byteAt_be16_of_eq hlow k (by omega), Nat.add_assoc]
    rfl

/-! ### Several writes -/

/-- Writes to different places commute. -/
theorem overwrite_comm (b : List UInt8) {i j : ℕ} {xs ys : List UInt8}
    (h : i + xs.length ≤ j ∨ j + ys.length ≤ i) :
    overwrite (overwrite b i xs) j ys = overwrite (overwrite b j ys) i xs := by
  apply ext_byteAt (by simp)
  intro k hk
  simp only [overwrite_length] at hk
  rw [byteAt_overwrite _ _ _ (by simpa using hk), byteAt_overwrite _ _ _ hk,
    byteAt_overwrite _ _ _ (by simpa using hk), byteAt_overwrite _ _ _ hk]
  by_cases hi : i ≤ k ∧ k < i + xs.length
  · rw [if_neg (show ¬ (j ≤ k ∧ k < j + ys.length) by omega), if_pos hi, if_pos hi]
  · simp only [if_neg hi]

/-- A second write to the same place replaces the first. -/
theorem overwrite_overwrite (b : List UInt8) (i : ℕ) {xs ys : List UInt8} (h : xs.length = ys.length) :
    overwrite (overwrite b i xs) i ys = overwrite b i ys := by
  apply ext_byteAt (by simp)
  intro k hk
  simp only [overwrite_length] at hk
  rw [byteAt_overwrite _ _ _ (by simpa using hk), byteAt_overwrite _ _ _ hk, byteAt_overwrite _ _ _ hk, h]
  split
  · rfl
  · rfl

/-- Writing what is there changes nothing. -/
theorem overwrite_eq_self {b xs : List UInt8} {i : ℕ}
    (h : ∀ j < xs.length, i + j < b.length → byteAt xs j = byteAt b (i + j)) : overwrite b i xs = b := by
  apply ext_byteAt (overwrite_length xs b i)
  intro k hk
  rw [overwrite_length] at hk
  rw [byteAt_overwrite _ _ _ hk]
  split
  · rename_i hin
    have hback : i + (k - i) = k := by omega
    have hbyte := h (k - i) (by omega) (by rw [hback]; exact hk)
    rw [hbyte, hback]
  · rfl

theorem overwrite_append_left (xs : List UInt8) :
    ∀ (a b : List UInt8) (i : ℕ), i + xs.length ≤ a.length →
      overwrite (a ++ b) i xs = overwrite a i xs ++ b := by
  induction xs with
  | nil =>
    intro a b i _
    rfl
  | cons x xs ih =>
    intro a b i h
    rw [List.length_cons] at h
    rw [overwrite, overwrite, List.set_append_left _ _ (by omega), ih _ _ _ (by rw [List.length_set]; omega)]

theorem overwrite_append_right (xs : List UInt8) :
    ∀ (a b : List UInt8) (i : ℕ), overwrite (a ++ b) (a.length + i) xs = a ++ overwrite b i xs := by
  induction xs with
  | nil =>
    intro a b i
    rfl
  | cons x xs ih =>
    intro a b i
    rw [overwrite, overwrite, List.set_append_right _ _ (by omega), Nat.add_sub_cancel_left, Nat.add_assoc, ih]

theorem be16At_overwrite_self {b : List UInt8} {i : ℕ} (h : i + 1 < b.length) (v : ℕ) :
    be16At (overwrite b i (be16 v)) i = v % 65536 := by
  rw [be16At, byteAt_overwrite _ _ _ (by omega), byteAt_overwrite _ _ _ h, if_pos (by simp),
    if_pos (by simp), Nat.sub_self, Nat.add_sub_cancel_left, byteAt_be16_zero, byteAt_be16_one]
  omega

theorem be16At_overwrite_of_disjoint {b xs : List UInt8} {i j : ℕ} (hj : j + 1 < b.length)
    (h : i + xs.length ≤ j ∨ j + 2 ≤ i) : be16At (overwrite b i xs) j = be16At b j := by
  rw [be16At, be16At, byteAt_overwrite _ _ _ (by omega), byteAt_overwrite _ _ _ hj, if_neg (by omega),
    if_neg (by omega)]

end Field
