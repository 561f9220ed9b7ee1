import Mathlib.Data.List.Induction
import Rmnet.Lib.Field

/-!
# The Internet checksum

Sums of 16-bit words in ones'-complement arithmetic.  A 16-bit value stands for its residue modulo 65535,
zero having two representations, and the sum of some words keeps the representation 65535 unless all of
them are zero: `fold` picks it.  Words are read in network order; a machine that reads them in the other
order computes the byte-swapped value throughout, since swapping is multiplication by 256 modulo 65535.
-/

namespace Checksum

open Field

/-- The sum of the 16-bit words of a byte string, an odd last byte being padded. -/
def wordSum : List UInt8 → ℕ
  | [] => 0
  | [a] => a.toNat * 256
  | a :: b :: rest => a.toNat * 256 + b.toNat + wordSum rest

/-- Fold a sum to 16 bits, adding the carries back in. -/
def fold (n : ℕ) : ℕ := if n = 0 then 0 else (n - 1) % 65535 + 1

/-- `csum_fold`: fold and complement. -/
def csumFold (n : ℕ) : ℕ := 65535 - fold n

/-- `csum16_add`. -/
def csum16Add (a b : ℕ) : ℕ := if a + b < 65536 then a + b else a + b - 65535

/-- `csum16_sub`. -/
def csum16Sub (a b : ℕ) : ℕ := csum16Add a (65535 - b)

/-- `csum_replace2`: the checksum after one word has changed. -/
def csumReplace2 (sum old new : ℕ) : ℕ := 65535 - csum16Add (csum16Sub (65535 - sum) old) new

/-- `csum_tcpudp_magic` and `csum_ipv6_magic`: the folded pseudo-header sum, complemented. -/
def csumMagic (saddr daddr : List UInt8) (len proto : ℕ) : ℕ :=
  csumFold (wordSum saddr + wordSum daddr + len + proto)

/-! ### Folding -/

theorem fold_pos {n : ℕ} (h : 0 < n) : 0 < fold n := by
  rw [fold, if_neg (by omega)]
  omega

theorem fold_le (n : ℕ) : fold n ≤ 65535 := by
  unfold fold
  split
  · omega
  · have := Nat.mod_lt (n - 1) (show 0 < 65535 by omega)
    omega

/-- A sum is determined by its residue and by whether it is zero. -/
theorem fold_eq_fold {m n : ℕ} (hm : 0 < m) (hn : 0 < n) (h : m % 65535 = n % 65535) : fold m = fold n := by
  rw [fold, fold, if_neg (by omega), if_neg (by omega)]
  omega

theorem fold_mod (n : ℕ) : fold n % 65535 = n % 65535 := by
  unfold fold
  split
  · omega
  · omega

/-- Adding with end-around carry is adding and folding. -/
theorem csum16Add_eq {a b : ℕ} (ha : a ≤ 65535) (hb : b ≤ 65535) : csum16Add a b = fold (a + b) := by
  unfold csum16Add fold
  split
  · split
    · omega
    · rw [Nat.mod_eq_of_lt (by omega)]
      omega
  · rw [if_neg (by omega)]
    omega

theorem csumFold_le (n : ℕ) : csumFold n ≤ 65535 := Nat.sub_le _ _

/-- `csum_fold` of a positive sum is zero for the multiples of 65535. -/
theorem csumFold_eq_zero {n : ℕ} (h : 0 < n) : csumFold n = 0 ↔ n % 65535 = 0 := by
  have hpos := fold_pos h
  have hle := fold_le n
  have hmod := fold_mod n
  rw [csumFold]
  omega

/-- A sum and its checksum cancel. -/
theorem add_csumFold_mod (n : ℕ) : (n + csumFold n) % 65535 = 0 := by
  have hle := fold_le n
  have hmod := fold_mod n
  rw [csumFold]
  omega

theorem csum16Add_mod (a b : ℕ) : csum16Add a b % 65535 = (a + b) % 65535 := by
  rw [csum16Add]
  split
  · rfl
  · omega

theorem csum16Add_le {a b : ℕ} (ha : a ≤ 65535) (hb : b ≤ 65535) : csum16Add a b ≤ 65535 := by
  rw [csum16Add]
  split
  · omega
  · omega

/-- The word and the checksum that replace an old word and the old checksum have the same residue. -/
theorem csumReplace2_mod {sum old new : ℕ} (hs : sum ≤ 65535) (ho : old ≤ 65535) (hn : new ≤ 65535) :
    (csumReplace2 sum old new + new) % 65535 = (sum + old) % 65535 := by
  have h₁ := csum16Add_mod (65535 - sum) (65535 - old)
  have hle := csum16Add_le (show 65535 - sum ≤ 65535 by omega) (show 65535 - old ≤ 65535 by omega)
  have h₂ := csum16Add_mod (csum16Add (65535 - sum) (65535 - old)) new
  have hle₂ := csum16Add_le hle hn
  rw [csumReplace2, csum16Sub]
  omega

theorem csumReplace2_le (sum old new : ℕ) : csumReplace2 sum old new ≤ 65535 := Nat.sub_le _ _

/-- **The checksum after one word has changed** is the checksum of the changed words. -/
theorem csumReplace2_csumFold {r old new : ℕ} (hr : 0 < r) (hold : old ≤ 65535) (hnew : new ≤ 65535) :
    csumReplace2 (csumFold (r + old)) old new = csumFold (r + new) := by
  have hpos := fold_pos (show 0 < r + old by omega)
  have hle := fold_le (r + old)
  have hmod := fold_mod (r + old)
  have hback : 65535 - (65535 - fold (r + old)) = fold (r + old) := by omega
  unfold csumReplace2 csumFold csum16Sub
  rw [hback, csum16Add_eq hle (by omega), csum16Add_eq (fold_le _) hnew]
  congr 1
  have hinner := fold_pos (show 0 < fold (r + old) + (65535 - old) by omega)
  have hinnerMod := fold_mod (fold (r + old) + (65535 - old))
  apply fold_eq_fold (by omega) (by omega)
  omega

/-- A checksum that makes the whole sum fold to ones, and is not written as ones, is the one computed. -/
theorem eq_csumFold {r c : ℕ} (hr : 0 < r) (hc : c < 65535) (hsum : csumFold (r + c) = 0) : c = csumFold r := by
  have h₁ := fold_mod (r + c)
  have h₂ := fold_mod r
  have h₃ := fold_pos hr
  have h₄ := fold_le r
  have h₅ := fold_le (r + c)
  unfold csumFold at hsum ⊢
  omega

/-! ### Changing a word -/

@[simp] theorem wordSum_cons_cons (a b : UInt8) (rest : List UInt8) :
    wordSum (a :: b :: rest) = a.toNat * 256 + b.toNat + wordSum rest := rfl

/-- A byte string of even length ends on a word. -/
theorem wordSum_append {a : List UInt8} (h : a.length % 2 = 0) (b : List UInt8) :
    wordSum (a ++ b) = wordSum a + wordSum b := by
  induction a using List.twoStepInduction with
  | nil => exact (Nat.zero_add _).symm
  | singleton x => cases h
  | cons_cons x y a ih _ =>
    have heven : a.length % 2 = 0 := by
      rw [List.length_cons, List.length_cons] at h
      omega
    rw [List.cons_append, List.cons_append, wordSum_cons_cons, wordSum_cons_cons, ih heven]
    exact (Nat.add_assoc _ _ _).symm

/-- One more byte is the high or the low byte of the last word. -/
theorem wordSum_snoc (a : List UInt8) (x : UInt8) :
    wordSum (a ++ [x]) = wordSum a + x.toNat * (if a.length % 2 = 0 then 256 else 1) := by
  induction a using List.twoStepInduction with
  | nil => exact (Nat.zero_add _).symm
  | singleton y =>
    show y.toNat * 256 + x.toNat + 0 = y.toNat * 256 + x.toNat * 1
    rw [Nat.mul_one, Nat.add_zero]
  | cons_cons y z a ih _ =>
    have hlen : (y :: z :: a).length % 2 = a.length % 2 := by
      rw [List.length_cons, List.length_cons]
      omega
    rw [List.cons_append, List.cons_append, wordSum_cons_cons, wordSum_cons_cons, ih, hlen]
    exact (Nat.add_assoc _ _ _).symm

theorem wordSum_pos : ∀ {b : List UInt8}, byteAt b 0 ≠ 0 → 0 < wordSum b
  | [], h => absurd rfl h
  | [x], h => by
    have hx : x.toNat ≠ 0 := h
    show 0 < x.toNat * 256
    omega
  | x :: y :: rest, h => by
    have hx : x.toNat ≠ 0 := h
    rw [wordSum_cons_cons]
    omega

/-- Writing a word at an even offset changes the sum by its difference. -/
theorem wordSum_overwrite (v k : ℕ) :
    ∀ b : List UInt8, 2 * k + 1 < b.length →
      wordSum (overwrite b (2 * k) (be16 v)) + be16At b (2 * k) = wordSum b + v % 65536 := by
  induction k with
  | zero =>
    intro b hb
    match b, hb with
    | x :: y :: rest, _ =>
      have hhi : (UInt8.ofNat (v / 256)).toNat = v / 256 % 256 := by simp
      have hlo : (UInt8.ofNat v).toNat = v % 256 := by simp
      show (UInt8.ofNat (v / 256)).toNat * 256 + (UInt8.ofNat v).toNat + wordSum rest
          + (x.toNat * 256 + y.toNat) = _
      rw [hhi, hlo, wordSum_cons_cons]
      omega
  | succ k ih =>
    intro b hb
    match b, hb with
    | x :: y :: rest, hb =>
      have hrest : 2 * k + 1 < rest.length := by
        simp only [List.length_cons] at hb
        omega
      have hwrite : overwrite (x :: y :: rest) (2 * (k + 1)) (be16 v)
          = x :: y :: overwrite rest (2 * k) (be16 v) := by
        have happ := overwrite_append_right (be16 v) [x, y] rest (2 * k)
        rw [show 2 * (k + 1) = [x, y].length + 2 * k by simp only [List.length_cons, List.length_nil]; omega]
        exact happ
      have hread : be16At (x :: y :: rest) (2 * (k + 1)) = be16At rest (2 * k) := by
        have happ := be16At_append_right [x, y] rest (2 * k)
        rw [show 2 * (k + 1) = [x, y].length + 2 * k by simp only [List.length_cons, List.length_nil]; omega]
        exact happ
      have := ih rest hrest
      rw [hwrite, hread, wordSum_cons_cons, wordSum_cons_cons]
      omega

/-- **An incremental update.**  A word replaced together with the checksum leaves the residue of the sum. -/
theorem wordSum_replace {b : List UInt8} {i j v : ℕ} (hi : 2 * i + 1 < b.length) (hj : 2 * j + 1 < b.length)
    (hne : i ≠ j) (hv : v < 65536) :
    wordSum (overwrite (overwrite b (2 * i) (be16 (csumReplace2 (be16At b (2 * i)) (be16At b (2 * j)) v)))
      (2 * j) (be16 v)) % 65535 = wordSum b % 65535 := by
  have hc := be16At_lt b (2 * i)
  have hold := be16At_lt b (2 * j)
  have hmod := csumReplace2_mod (Nat.le_of_lt_succ hc) (Nat.le_of_lt_succ hold) (Nat.le_of_lt_succ hv)
  have hle := csumReplace2_le (be16At b (2 * i)) (be16At b (2 * j)) v
  generalize csumReplace2 (be16At b (2 * i)) (be16At b (2 * j)) v = c at hmod hle ⊢
  have h₁ := wordSum_overwrite c i b hi
  have h₂ := wordSum_overwrite v j (overwrite b (2 * i) (be16 c)) (by rw [overwrite_length]; exact hj)
  rw [be16At_overwrite_of_disjoint hj (by rw [be16_length]; omega)] at h₂
  omega

/-! ### The other byte order -/

/-- `ntohs` of a machine with the other byte order. -/
def swap16 (v : ℕ) : ℕ := v % 256 * 256 + v / 256 % 256

/-- The sum of the 16-bit words of a byte string as such a machine reads them. -/
def wordSumLe : List UInt8 → ℕ
  | [] => 0
  | [a] => a.toNat
  | a :: b :: rest => b.toNat * 256 + a.toNat + wordSumLe rest

theorem swap16_le (v : ℕ) : swap16 v ≤ 65535 := by
  unfold swap16
  omega

theorem swap16_bytes {q r : ℕ} (hq : q < 256) (hr : r < 256) : swap16 (q * 256 + r) = r * 256 + q := by
  unfold swap16
  omega

/-- Swapping is multiplication by 256. -/
theorem swap16_mod {v : ℕ} (h : v ≤ 65535) : swap16 v % 65535 = 256 * v % 65535 := by
  obtain ⟨q, r, hq, hr, rfl⟩ : ∃ q r, q < 256 ∧ r < 256 ∧ v = q * 256 + r :=
    ⟨v / 256, v % 256, by omega, by omega, by omega⟩
  rw [swap16_bytes hq hr]
  omega

theorem swap16_eq_zero {v : ℕ} (h : v ≤ 65535) : swap16 v = 0 ↔ v = 0 := by
  unfold swap16
  omega

theorem swap16_eq_ones {v : ℕ} (h : v ≤ 65535) : swap16 v = 65535 ↔ v = 65535 := by
  unfold swap16
  omega

theorem swap16_swap16 {v : ℕ} (h : v ≤ 65535) : swap16 (swap16 v) = v := by
  obtain ⟨q, r, hq, hr, rfl⟩ : ∃ q r, q < 256 ∧ r < 256 ∧ v = q * 256 + r :=
    ⟨v / 256, v % 256, by omega, by omega, by omega⟩
  rw [swap16_bytes hq hr, swap16_bytes hr hq]

theorem swap16_compl {v : ℕ} (h : v ≤ 65535) : swap16 (65535 - v) = 65535 - swap16 v := by
  unfold swap16
  omega

theorem swap16_le16At (b : List UInt8) (i : ℕ) : swap16 (le16At b i) = be16At b i := by
  have h₀ := byteAt_lt b i
  have h₁ := byteAt_lt b (i + 1)
  rw [swap16, le16At, be16At]
  omega

theorem le16At_le (b : List UInt8) (i : ℕ) : le16At b i ≤ 65535 := by
  have h₀ := byteAt_lt b i
  have h₁ := byteAt_lt b (i + 1)
  rw [le16At]
  omega

/-- A sum of words and the sum of the same words as the other machine reads them. -/
structure Swapped (m n : ℕ) : Prop where
  mod : m % 65535 = 256 * n % 65535
  zero : m = 0 ↔ n = 0

theorem Swapped.add {m m' n n' : ℕ} (h : Swapped m n) (h' : Swapped m' n') : Swapped (m + m') (n + n') := by
  obtain ⟨hmod, hzero⟩ := h
  obtain ⟨hmod', hzero'⟩ := h'
  constructor
  · omega
  · omega

theorem Swapped.mul (n : ℕ) : Swapped (256 * n) n := by
  constructor
  · rfl
  · omega

theorem wordSumLe_swapped (b : List UInt8) : Swapped (wordSumLe b) (wordSum b) := by
  induction b using List.twoStepInduction with
  | nil => exact ⟨rfl, Iff.rfl⟩
  | singleton x =>
    constructor
    · show x.toNat % 65535 = 256 * (x.toNat * 256) % 65535
      omega
    · show x.toNat = 0 ↔ x.toNat * 256 = 0
      omega
  | cons_cons x y b ih _ =>
    have hword : Swapped (y.toNat * 256 + x.toNat) (x.toNat * 256 + y.toNat) := by
      constructor
      · omega
      · omega
    exact hword.add ih

/-- **Either byte order gives the same checksum, swapped.** -/
theorem csumFold_swap {m n : ℕ} (h : Swapped m n) : csumFold m = swap16 (csumFold n) := by
  obtain ⟨hmod, hzero⟩ := h
  have hfold : fold m = swap16 (fold n) := by
    have hm := fold_mod m
    have hn := fold_mod n
    have hle := fold_le n
    have hswap := swap16_mod hle
    have hswap0 := swap16_eq_zero hle
    have hswapLe := swap16_le (fold n)
    have hmle := fold_le m
    by_cases hn0 : n = 0
    · rw [hn0, hzero.mpr hn0]
      rfl
    · have hnpos := fold_pos (Nat.pos_of_ne_zero hn0)
      have hmpos := fold_pos (Nat.pos_of_ne_zero fun hm0 => hn0 (hzero.mp hm0))
      omega
  rw [csumFold, csumFold, hfold, swap16_compl (fold_le n)]

/-- A folded sum, computed in the other byte order and swapped. -/
theorem swap16_fold {m n : ℕ} (h : Swapped m n) : swap16 (65535 - csumFold m) = fold n := by
  have hle := csumFold_le n
  have hfold := fold_le n
  rw [csumFold_swap h, swap16_compl (swap16_le _), swap16_swap16 hle, csumFold]
  omega

theorem wordSum_be32 {v : ℕ} (h : v < 65536) : wordSum (be32 v) = v := by
  show (UInt8.ofNat (v / 65536 / 256)).toNat * 256 + (UInt8.ofNat (v / 65536)).toNat
    + ((UInt8.ofNat (v / 256)).toNat * 256 + (UInt8.ofNat v).toNat + 0) = v
  simp only [UInt8.toNat_ofNat']
  omega

end Checksum
