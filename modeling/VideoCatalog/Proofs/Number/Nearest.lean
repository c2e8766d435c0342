import Mathlib.Algebra.Order.Field.Basic
import Mathlib.Algebra.Order.Field.Rat
import Mathlib.Tactic.Linarith
import Mathlib.Tactic.Positivity
import VideoCatalog.Proofs.Number.Rounding

/-!
# The nearest number of the format

Rounding to 53 significant bits, beside the numbers that have no more than these.

* `Binary64.IsExact`: the counts of units with at most 53 significant bits.
* `Binary64.nearestUnits_le`, `Binary64.le_nearestUnits`: rounding never passes such a count.
* `Binary64.nearestUnits_near`: what is rounded is at most `2 ^ -53` of itself away.
* `Binary64.greatest`, `Binary64.ofInt?_of_le`: the whole numbers in range.
-/

namespace VideoCatalog

namespace Binary64

/-- Counts of units with at most 53 significant bits. -/
def IsExact (units : ℕ) : Prop := ∃ c e, c < 2 ^ 53 ∧ units = c * 2 ^ e

variable {n d units : ℕ}

/-- The distance of two neighbours among the counts around a quotient. -/
def gap (n d : ℕ) : ℕ := 2 ^ (Nat.log2 (n / d) - 52)

theorem gap_pos (n d : ℕ) : 0 < gap n d := Nat.two_pow_pos _

theorem nearestUnits_eq (n d : ℕ) :
    nearestUnits n d = roundHalfEven n (d * gap n d) * gap n d := rfl

/-- The quotient has 53 bits in front of the gap. -/
theorem lt_gap (positive : 0 < d) : n < 2 ^ 53 * (d * gap n d) := by
  have quotient : n / d < 2 ^ (Nat.log2 (n / d) + 1) := Nat.lt_log2_self
  have bits : 2 ^ (Nat.log2 (n / d) + 1) ≤ 2 ^ 53 * gap n d := by
    rw [gap, ← Nat.pow_add]
    exact Nat.pow_le_pow_right Nat.two_pos (by omega)
  calc n < 2 ^ 53 * gap n d * d := (Nat.div_lt_iff_lt_mul positive).1 (quotient.trans_le bits)
    _ = 2 ^ 53 * (d * gap n d) := by rw [Nat.mul_assoc, Nat.mul_comm d]

/-- Where there is anything to round, the quotient has 52 bits in front of the gap at least. -/
theorem gap_le (rounded : 52 ≤ Nat.log2 (n / d)) : 2 ^ 52 * (d * gap n d) ≤ n := by
  have some : n / d ≠ 0 := by
    intro none
    rw [none] at rounded
    exact absurd rounded (by decide)
  have quotient : 2 ^ Nat.log2 (n / d) ≤ n / d := Nat.log2_self_le some
  calc 2 ^ 52 * (d * gap n d) = d * (2 ^ 52 * gap n d) := Nat.mul_left_comm _ _ _
    _ = d * 2 ^ Nat.log2 (n / d) := by
      rw [gap, ← Nat.pow_add]
      congr 2
      omega
    _ ≤ d * (n / d) := Nat.mul_le_mul_left d quotient
    _ ≤ n := Nat.mul_div_le n d

/-- What has been rounded has at most 53 significant bits. -/
theorem isExact_nearestUnits (n : ℕ) (positive : 0 < d) : IsExact (nearestUnits n d) := by
  have few : roundHalfEven n (d * gap n d) ≤ 2 ^ 53 := by
    have scale : 0 < d * gap n d := Nat.mul_pos positive (gap_pos n d)
    calc roundHalfEven n (d * gap n d)
        ≤ roundHalfEven (2 ^ 53 * (d * gap n d)) (d * gap n d) :=
          roundHalfEven_mono (lt_gap positive).le scale
      _ = 2 ^ 53 := roundHalfEven_mul _ scale
  rw [nearestUnits_eq]
  rcases few.lt_or_eq with less | carried
  · exact ⟨_, _, less, rfl⟩
  · refine ⟨1, 53 + (Nat.log2 (n / d) - 52), Nat.one_lt_two_pow (by omega), ?_⟩
    rw [carried, gap, ← Nat.pow_add, Nat.one_mul]

/-- A count that is a multiple of the gap is not passed by what is below it. -/
theorem nearestUnits_le_of_dvd (positive : 0 < d) (whole : gap n d ∣ units)
    (le : n ≤ units * d) : nearestUnits n d ≤ units := by
  obtain ⟨c, rfl⟩ := whole
  have scale : 0 < d * gap n d := Nat.mul_pos positive (gap_pos n d)
  have regroup : gap n d * c * d = c * (d * gap n d) := by
    rw [Nat.mul_comm (gap n d), Nat.mul_assoc, Nat.mul_comm d]
  have rounds : roundHalfEven n (d * gap n d) ≤ c := by
    calc roundHalfEven n (d * gap n d)
        ≤ roundHalfEven (c * (d * gap n d)) (d * gap n d) :=
          roundHalfEven_mono (regroup ▸ le) scale
      _ = c := roundHalfEven_mul c scale
  rw [nearestUnits_eq, Nat.mul_comm (gap n d)]
  exact Nat.mul_le_mul_right _ rounds

/-- Nor by what is above it. -/
theorem le_nearestUnits_of_dvd (positive : 0 < d) (whole : gap n d ∣ units)
    (le : units * d ≤ n) : units ≤ nearestUnits n d := by
  obtain ⟨c, rfl⟩ := whole
  have scale : 0 < d * gap n d := Nat.mul_pos positive (gap_pos n d)
  have regroup : gap n d * c * d = c * (d * gap n d) := by
    rw [Nat.mul_comm (gap n d), Nat.mul_assoc, Nat.mul_comm d]
  have rounds : c ≤ roundHalfEven n (d * gap n d) := by
    calc c = roundHalfEven (c * (d * gap n d)) (d * gap n d) := (roundHalfEven_mul c scale).symm
      _ ≤ roundHalfEven n (d * gap n d) := roundHalfEven_mono (regroup ▸ le) scale
  rw [nearestUnits_eq, Nat.mul_comm (gap n d)]
  exact Nat.mul_le_mul_right _ rounds

/-- A power of two that a count has as a factor is a multiple of the gaps up to it. -/
theorem gap_dvd {c e : ℕ} (small : n / d < 2 ^ (53 + e)) : gap n d ∣ c * 2 ^ e := by
  refine Dvd.dvd.mul_left (Nat.pow_dvd_pow 2 ?_) c
  rcases Nat.eq_zero_or_pos (n / d) with none | some
  · rw [none, Nat.log2_zero]
    omega
  · have := (Nat.log2_lt some.ne').2 small
    omega

theorem lt_two_pow_of_small {c e : ℕ} (small : c < 2 ^ 53) : c * 2 ^ e < 2 ^ (53 + e) := by
  rw [Nat.pow_add]
  exact Nat.mul_lt_mul_of_pos_right small (Nat.two_pow_pos e)

/-- Rounding up never passes a count of 53 significant bits. -/
theorem nearestUnits_le (exact : IsExact units) (positive : 0 < d) (le : n ≤ units * d) :
    nearestUnits n d ≤ units := by
  obtain ⟨c, e, small, rfl⟩ := exact
  refine nearestUnits_le_of_dvd positive (gap_dvd ?_) le
  exact (Nat.div_le_of_le_mul (by rwa [Nat.mul_comm])).trans_lt (lt_two_pow_of_small small)

/-- Rounding down never passes a count of 53 significant bits. -/
theorem le_nearestUnits (exact : IsExact units) (positive : 0 < d) (le : units * d ≤ n) :
    units ≤ nearestUnits n d := by
  obtain ⟨c, e, small, rfl⟩ := exact
  by_cases fine : n / d < 2 ^ (53 + e)
  · exact le_nearestUnits_of_dvd positive (gap_dvd fine) le
  · -- The quotient is beyond all counts with this power of two.
    have some : n / d ≠ 0 := by
      have := Nat.two_pow_pos (53 + e)
      omega
    have bits : 53 + e ≤ Nat.log2 (n / d) := (Nat.le_log2 some).2 (Nat.le_of_not_lt fine)
    have beyond : c * 2 ^ e ≤ 2 ^ 52 * gap n d := by
      refine (lt_two_pow_of_small small).le.trans ?_
      rw [gap, ← Nat.pow_add]
      exact Nat.pow_le_pow_right Nat.two_pos (by omega)
    refine beyond.trans (le_nearestUnits_of_dvd positive (Nat.dvd_mul_left _ _) ?_)
    rw [Nat.mul_assoc, Nat.mul_comm (gap n d)]
    exact gap_le (by omega)

/-- A count of 53 significant bits is not changed. -/
theorem nearestUnits_of_exact (exact : IsExact units) (positive : 0 < d) :
    nearestUnits (units * d) d = units :=
  (nearestUnits_le exact positive le_rfl).antisymm (le_nearestUnits exact positive le_rfl)

/-- A quotient that is large enough for all 53 bits moves by at most `2 ^ -53` of itself. -/
theorem nearestUnits_near (positive : 0 < d) (large : 2 ^ 52 * d ≤ n) :
    |(nearestUnits n d : ℚ) - n / d| ≤ n / d / 2 ^ 53 := by
  have quotient : 2 ^ 52 ≤ n / d := (Nat.le_div_iff_mul_le positive).2 large
  have bits : 52 ≤ Nat.log2 (n / d) := (Nat.le_log2 (by omega)).2 quotient
  have fine : (2 ^ 52 * (d * gap n d) : ℚ) ≤ n := mod_cast gap_le bits
  obtain ⟨below, above⟩ := roundHalfEven_near n (Nat.mul_pos positive (gap_pos n d))
  have regroup : roundHalfEven n (d * gap n d) * (d * gap n d) = nearestUnits n d * d := by
    rw [nearestUnits_eq, Nat.mul_comm d, Nat.mul_assoc]
  rw [regroup] at below above
  have below' : (2 * n : ℚ) ≤ 2 * (nearestUnits n d * d) + d * gap n d := mod_cast below
  have above' : (2 * (nearestUnits n d * d) : ℚ) ≤ 2 * n + d * gap n d := mod_cast above
  have scale : (0 : ℚ) < d := mod_cast positive
  have move : (nearestUnits n d : ℚ) - n / d = (nearestUnits n d * d - n) / d := by
    rw [sub_div, mul_div_cancel_right₀ _ scale.ne']
  rw [move, abs_div, abs_of_pos scale, div_right_comm]
  refine div_le_div_of_nonneg_right ?_ scale.le
  rw [abs_le]
  constructor <;> linarith

/-! ### The range of the format -/

/-- The greatest finite number. -/
def greatest : ℕ := (2 ^ 53 - 1) * 2 ^ 971

theorem le_greatest (small : n < 2 ^ 53) : n ≤ greatest := by
  unfold greatest
  generalize 971 = e
  exact (Nat.le_sub_one_of_lt small).trans (Nat.le_mul_of_pos_right _ (Nat.two_pow_pos e))

/-- Its count of units has as many bits as there are in front of the limit. -/
theorem greatest_units : ∃ e, 53 + e = 2098 ∧ greatest * unitsPerOne = (2 ^ 53 - 1) * 2 ^ e := by
  have factor (c a b : ℕ) : c * 2 ^ a * 2 ^ b = c * 2 ^ (a + b) := by
    rw [Nat.mul_assoc, ← Nat.pow_add]
  refine ⟨971 + 1074, by decide, ?_⟩
  rw [greatest, unitsPerOne_eq]
  exact factor _ _ _

theorem greatest_lt_unitsLimit : greatest * unitsPerOne < unitsLimit := by
  obtain ⟨e, bits, units⟩ := greatest_units
  rw [units]
  unfold unitsLimit
  rw [← bits]
  exact lt_two_pow_of_small (by decide)

/-- A whole number whose nearest number is finite is turned into this one. -/
theorem ofInt?_eq_some {n : ℤ} {sign : Bool}
    (nearest : ofRatio (n < 0) n.natAbs 1 = .finite sign units) :
    ofInt? n = some (.finite sign units) := by
  -- Opened under its binder: applied to a number, the match would be evaluated on the quotient.
  suffices opened : ∀ f : ℤ → Option Binary64, f = ofInt? → f n = some (.finite sign units) from
    opened _ rfl
  delta ofInt?
  rintro f rfl
  dsimp only
  rw [nearest]

/-- Whole numbers up to the greatest number are rounded to a finite one. -/
theorem ofInt?_of_le {n : ℤ} (range : n.natAbs ≤ greatest) :
    ∃ units, ofInt? n = some (.finite (n < 0) units) := by
  have exact : IsExact (greatest * unitsPerOne) := by
    obtain ⟨e, -, units⟩ := greatest_units
    exact ⟨_, e, by decide, units⟩
  have rounded : nearestUnits (n.natAbs * unitsPerOne) 1 < unitsLimit := by
    refine (nearestUnits_le exact Nat.one_pos ?_).trans_lt greatest_lt_unitsLimit
    rw [Nat.mul_one]
    exact Nat.mul_le_mul_right _ range
  refine ⟨nearestUnits (n.natAbs * unitsPerOne) 1, ofInt?_eq_some ?_⟩
  unfold ofRatio ofUnits
  dsimp only
  rw [if_pos rounded]

end Binary64

end VideoCatalog
