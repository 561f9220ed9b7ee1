import Mathlib.Data.Int.Notation

/-!
# Error numbers

The kernel's error numbers that the driver returns, negated, from its functions.
-/

namespace Rmnet

/-- `ENOMEM`. -/
def enomem : ℤ := 12

/-- `EBUSY`. -/
def ebusy : ℤ := 16

/-- `ENODEV`. -/
def enodev : ℤ := 19

/-- `EINVAL`. -/
def einval : ℤ := 22

/-- `ERANGE`. -/
def erange : ℤ := 34

/-- `EPROTONOSUPPORT`. -/
def eprotonosupport : ℤ := 93

/-- `EOPNOTSUPP`. -/
def eopnotsupp : ℤ := 95

/-- `ENOTCONN`. -/
def enotconn : ℤ := 107

end Rmnet
