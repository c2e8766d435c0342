import Mathlib.Algebra.Order.Ring.Nat
import Mathlib.Data.Nat.Log
import VideoCatalog.Number.Binary64

/-!
# Rounding, and where there is nothing to round

* `roundHalfEven_near`: a rounded quotient is at most one half away from the quotient.
* `roundHalfEven_mono`, `roundHalfEven_scale`: rounding keeps the order and sees quotients only.
* `Binary64.nearestUnits_exact`: a count of 53 significant bits is its own nearest count.
* `Binary64.ofNat_eq`, `Binary64.div_ofNat`: whole numbers of 53 bits, and their division by a
  power of two, are exact.
-/

namespace VideoCatalog

section Quotient

variable {n m d : ℕ}

/-- A rounded quotient is at most one half away from the quotient. -/
theorem roundHalfEven_near (n : ℕ) (positive : 0 < d) :
    2 * n ≤ 2 * (roundHalfEven n d * d) + d ∧ 2 * (roundHalfEven n d * d) ≤ 2 * n + d := by
  have parts : n / d * d + n % d = n := by rw [Nat.mul_comm]; exact Nat.div_add_mod n d
  have next : (n / d + 1) * d = n / d * d + d := Nat.succ_mul _ _
  have below : n % d < d := Nat.mod_lt n positive
  unfold roundHalfEven
  dsimp only
  split
  · omega
  · split
    · omega
    · -- In the middle both neighbours are equally near.
      rcases Nat.mod_two_eq_zero_or_one (n / d) with even | odd
      · rw [even, Nat.add_zero]
        omega
      · rw [odd]
        omega

/-- Rounding keeps the order. -/
theorem roundHalfEven_mono (order : n ≤ m) (positive : 0 < d) :
    roundHalfEven n d ≤ roundHalfEven m d := by
  rcases order.eq_or_lt with rfl | less
  · exact le_rfl
  · -- Were the results in the other order, the quotients would be a whole one apart.
    by_contra crossed
    have apart : (roundHalfEven m d + 1) * d ≤ roundHalfEven n d * d :=
      Nat.mul_le_mul_right d (by omega)
    rw [Nat.succ_mul] at apart
    have := (roundHalfEven_near n positive).2
    have := (roundHalfEven_near m positive).1
    omega

/-- Only the quotient counts. -/
theorem roundHalfEven_scale (n d : ℕ) {c : ℕ} (positive : 0 < c) :
    roundHalfEven (n * c) (d * c) = roundHalfEven n d := by
  have less (a b : ℕ) : 2 * (a * c) < b * c ↔ 2 * a < b := by
    rw [← Nat.mul_assoc]
    exact Nat.mul_lt_mul_right positive
  have less' (a b : ℕ) : b * c < 2 * (a * c) ↔ b < 2 * a := by
    rw [← Nat.mul_assoc]
    exact Nat.mul_lt_mul_right positive
  unfold roundHalfEven
  simp only [Nat.mul_div_mul_right n d positive, Nat.mul_mod_mul_right, less, less']

end Quotient

namespace Binary64

/-- A count of 53 significant bits is its own nearest count. -/
theorem nearestUnits_exact {n : ℕ} (small : n < 2 ^ 53) (e : ℕ) {d : ℕ} (positive : 0 < d) :
    nearestUnits (n * 2 ^ e * d) d = n * 2 ^ e := by
  unfold nearestUnits
  dsimp only
  rw [Nat.mul_div_cancel _ positive]
  -- The step divides the power of two: nothing is lost.
  obtain ⟨c, whole⟩ : Nat.pow 2 (Nat.log2 (n * 2 ^ e) - 52) ∣ n * 2 ^ e := by
    rcases Nat.eq_zero_or_pos n with rfl | some
    · rw [Nat.zero_mul]
      exact Nat.dvd_zero _
    · have bits : Nat.log2 (n * 2 ^ e) < 53 + e := by
        rw [Nat.log2_lt (Nat.mul_pos some (Nat.two_pow_pos e)).ne', Nat.pow_add]
        exact Nat.mul_lt_mul_of_pos_right small (Nat.two_pow_pos e)
      exact Dvd.dvd.mul_left (Nat.pow_dvd_pow 2 (by omega)) n
  have step : 0 < Nat.pow 2 (Nat.log2 (n * 2 ^ e) - 52) := Nat.pow_pos Nat.two_pos
  generalize Nat.pow 2 (Nat.log2 (n * 2 ^ e) - 52) = power at whole step ⊢
  have regroup : n * 2 ^ e * d = c * (d * power) := by
    rw [whole, Nat.mul_comm power, Nat.mul_assoc, Nat.mul_comm d]
  rw [regroup, roundHalfEven_mul c (Nat.mul_pos positive step), whole, Nat.mul_comm]

/-- So its number is exact, if it is in range. -/
theorem ofUnits_exact (negative : Bool) {n e : ℕ} (small : n < 2 ^ 53) (range : 53 + e ≤ 2098) {d : ℕ}
    (positive : 0 < d) : ofUnits negative (n * 2 ^ e * d) d = .finite negative (n * 2 ^ e) := by
  have limit : n * 2 ^ e < unitsLimit :=
    calc n * 2 ^ e < 2 ^ 53 * 2 ^ e := Nat.mul_lt_mul_of_pos_right small (Nat.two_pow_pos e)
      _ = 2 ^ (53 + e) := (Nat.pow_add 2 53 e).symm
      _ ≤ unitsLimit := by
        unfold unitsLimit
        generalize 2098 = bits at range ⊢
        exact Nat.pow_le_pow_right Nat.two_pos range
  unfold ofUnits
  dsimp only
  rw [nearestUnits_exact small e positive, if_pos limit]

theorem unitsPerOne_eq : unitsPerOne = 2 ^ 1074 := by
  unfold unitsPerOne
  generalize 1074 = e
  rfl

theorem pos_unitsPerOne : 0 < unitsPerOne := by
  unfold unitsPerOne
  generalize 1074 = e
  exact Nat.two_pow_pos e

/-- Whole numbers of 53 bits are exact. -/
theorem ofRatio_one (negative : Bool) {n : ℕ} (small : n < 2 ^ 53) :
    ofRatio negative n 1 = .finite negative (n * unitsPerOne) := by
  have exact := ofUnits_exact negative (e := 1074) small (by omega) Nat.one_pos
  rwa [Nat.mul_one, ← unitsPerOne_eq] at exact

theorem ofNat_eq {n : ℕ} (small : n < 2 ^ 53) : ofNat n = .finite false (n * unitsPerOne) :=
  ofRatio_one false small

theorem ofInt?_natCast {n : ℕ} (small : n < 2 ^ 53) :
    ofInt? n = some (.finite false (n * unitsPerOne)) := by
  have sign : decide ((n : ℤ) < 0) = false := decide_eq_false (by omega)
  have exact := ofRatio_one false small
  generalize n * unitsPerOne = units at exact ⊢
  -- Opened under its binder: applied to a number, the match would be evaluated on the quotient.
  suffices opened : ∀ f : ℤ → Option Binary64, f = ofInt? → f n = some (.finite false units) from
    opened _ rfl
  delta ofInt?
  rintro f rfl
  dsimp only
  rw [sign, Int.natAbs_natCast, exact]

/-- Division by a power of two is exact while the count of units is even enough. -/
theorem div_ofNat {n e k : ℕ} (small : n < 2 ^ 53) (range : 53 + e ≤ 2098) (power : k < 53) :
    (finite false (n * 2 ^ (e + k))).div (ofNat (2 ^ k)) = finite false (n * 2 ^ e) := by
  have divisor : 2 ^ k * unitsPerOne ≠ 0 :=
    (Nat.mul_pos (Nat.two_pow_pos k) pos_unitsPerOne).ne'
  have regroup : n * 2 ^ (e + k) * unitsPerOne = n * 2 ^ e * (2 ^ k * unitsPerOne) := by
    rw [Nat.pow_add]
    simp only [Nat.mul_assoc]
  rw [ofNat_eq (Nat.pow_lt_pow_right Nat.one_lt_two power)]
  simp only [div, if_neg divisor, ofRatio, regroup]
  exact ofUnits_exact false small range (Nat.pos_of_ne_zero divisor)

/-- Numbers from zero on compare as their counts do. -/
theorem less_finite (a b : ℕ) : (finite false a).less (finite false b) = true ↔ a < b := by
  simp [less, compare?, signedUnits, compare_lt_iff_lt]

end Binary64

end VideoCatalog
