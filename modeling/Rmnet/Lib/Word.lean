import Mathlib.Data.Nat.Basic
import Mathlib.Tactic.Ring

/-!
# Fixed-width unsigned arithmetic on natural numbers

The C types `u8`, `u16`, `u32`, `u64` as residues: a value is a natural number below the modulus, an
assignment reduces, a subtraction borrows.  An `int` is an integer that is brought back into its range.
The lemmas say when the reduction does nothing, which is how every bound on a length is used.
-/

namespace Word

/-- Assignment to a `u8`. -/
def u8 (n : ℕ) : ℕ := n % 256

/-- Assignment to a `u16`. -/
def u16 (n : ℕ) : ℕ := n % 65536

/-- Assignment to a `u32`. -/
def u32 (n : ℕ) : ℕ := n % 4294967296

/-- Assignment to a `u64`. -/
def u64 (n : ℕ) : ℕ := n % 18446744073709551616

/-- Assignment to an `int`. -/
def int32 (n : ℤ) : ℤ := (n + 2147483648) % 4294967296 - 2147483648

/-- An `int` as a `u32`. -/
def toU32 (n : ℤ) : ℕ := (n % 4294967296).toNat

/-- `a - b` in a `u8`. -/
def sub8 (a b : ℕ) : ℕ := u8 (a + (256 - b % 256))

/-- `a - b` in a `u16`. -/
def sub16 (a b : ℕ) : ℕ := u16 (a + (65536 - b % 65536))

/-- `a - b` in a `u32`. -/
def sub32 (a b : ℕ) : ℕ := u32 (a + (4294967296 - b % 4294967296))

/-- `a - b` in a `u64`. -/
def sub64 (a b : ℕ) : ℕ := u64 (a + (18446744073709551616 - b % 18446744073709551616))

theorem u8_of_lt {n : ℕ} (h : n < 256) : u8 n = n := Nat.mod_eq_of_lt h

theorem u16_of_lt {n : ℕ} (h : n < 65536) : u16 n = n := Nat.mod_eq_of_lt h

theorem u32_of_lt {n : ℕ} (h : n < 4294967296) : u32 n = n := Nat.mod_eq_of_lt h

theorem u64_of_lt {n : ℕ} (h : n < 18446744073709551616) : u64 n = n := Nat.mod_eq_of_lt h

theorem int32_of_lt {n : ℕ} (h : n < 2147483648) : int32 n = n := by
  unfold int32
  omega

theorem toU32_of_lt {n : ℕ} (h : n < 4294967296) : toU32 n = n := by
  unfold toU32
  omega

theorem sub8_of_le {a b : ℕ} (h : b ≤ a) (ha : a < 256) : sub8 a b = a - b := by
  unfold sub8 u8
  omega

theorem sub16_of_le {a b : ℕ} (h : b ≤ a) (ha : a < 65536) : sub16 a b = a - b := by
  unfold sub16 u16
  omega

theorem sub32_of_le {a b : ℕ} (h : b ≤ a) (ha : a < 4294967296) : sub32 a b = a - b := by
  unfold sub32 u32
  omega

theorem sub64_of_le {a b : ℕ} (h : b ≤ a) (ha : a < 18446744073709551616) : sub64 a b = a - b := by
  unfold sub64 u64
  omega

end Word
