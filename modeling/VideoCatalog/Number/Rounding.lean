/-!
# Rounding a quotient

Quotients of natural numbers are rounded to the nearest whole number, and a half goes to
the even neighbour.

* `roundHalfEven n d`: the whole number nearest to `n / d`.
* `decimalDigits n`: the decimal digits of `n`.
-/

namespace VideoCatalog

/-- The whole number nearest to `n / d`; a half goes to the even neighbour. -/
def roundHalfEven (n d : Nat) : Nat :=
  let q := n / d
  let r := n % d
  if 2 * r < d then q else if d < 2 * r then q + 1 else q + q % 2

/-- The decimal digits of a natural number, without leading zeros. -/
def decimalDigits (n : Nat) : List Char := Nat.toDigits 10 n

/-- A quotient without remainder is not changed by rounding. -/
theorem roundHalfEven_mul (q : Nat) {d : Nat} (hd : 0 < d) : roundHalfEven (q * d) d = q := by
  simp [roundHalfEven, Nat.mul_div_cancel _ hd, hd]

end VideoCatalog
