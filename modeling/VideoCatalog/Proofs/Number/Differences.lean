import VideoCatalog.Proofs.Number.Nearest
import VideoCatalog.Proofs.Number.Numerals
import VideoCatalog.Proofs.Number.Order

/-!
# Differences of binary64 numbers

* `Binary64.toRat`, `Binary64.Representable`: the value of a finite number, and the numbers that
  the format really holds.
* `Binary64.sub_zero`: nothing is lost when zero is taken away.
* `Binary64.sub_close`: the difference of two numbers within a factor of two is exact.
* `Binary64.le_sub`: a rounded difference does not fall below a number that the exact one reaches.
* `Binary64.less_of_close`: a difference less than a bound that both numbers reach is seen to be so.
-/

namespace VideoCatalog

-- The count of units is never evaluated here.
attribute [local irreducible] Binary64.unitsPerOne Binary64.unitsLimit

namespace Binary64

/-- The exact value of a finite number; zero for what is not finite. -/
def toRat : Binary64 → ℚ
  | .finite sign units => signedUnits sign units / unitsPerOne
  | _ => 0

/-- The format holds the number: its count of units has at most 53 significant bits and is in
range. -/
def Representable : Binary64 → Prop
  | .finite _ units => IsExact units ∧ units < unitsLimit
  | _ => True

variable {x y m : Binary64} {a b : ℕ}

/-- Finite numbers have their value among all quantities. -/
theorem value_eq_toRat (finite : x.isFinite = true) :
    (Quantity.real x).value = Quantity.finite x.toRat := by
  cases x with
  | finite => rfl
  | infinite => cases finite
  | notANumber => cases finite

theorem isNumber_of_isFinite (finite : x.isFinite = true) : (Quantity.real x).IsNumber := by
  rintro ⟨⟩
  cases finite

theorem toRat_le_toRat (s t : Bool) :
    (finite s a).toRat ≤ (finite t b).toRat ↔ signedUnits s a ≤ signedUnits t b := by
  rw [toRat, toRat, div_le_div_iff_of_pos_right unitsPerOne_pos, Int.cast_le]

/-- What has been rounded is held. -/
theorem representable_ofUnits (negative : Bool) (n : ℕ) {d : ℕ} (positive : 0 < d) :
    (ofUnits negative n d).Representable := by
  unfold ofUnits
  dsimp only
  split
  case isTrue range => exact ⟨isExact_nearestUnits n positive, range⟩
  case isFalse => trivial

theorem representable_ofNat (n : ℕ) : (ofNat n).Representable :=
  representable_ofUnits false _ Nat.one_pos

theorem isFinite_ofNat {n : ℕ} (small : n < 2 ^ 53) : (ofNat n).isFinite = true := by
  rw [ofNat_eq small, isFinite]

theorem toRat_ofNat {n : ℕ} (small : n < 2 ^ 53) : (ofNat n).toRat = n := by
  rw [ofNat_eq small]
  simp [toRat, signedUnits, unitsPerOne_pos.ne']

/-- Counts in range and with few bits are rounded to themselves. -/
theorem ofUnits_of_exact (sign : Bool) (exact : IsExact a) (range : a < unitsLimit) :
    ofUnits sign a 1 = .finite sign a := by
  have same : nearestUnits a 1 = a := by
    have := nearestUnits_of_exact exact Nat.one_pos
    rwa [Nat.mul_one] at this
  unfold ofUnits
  dsimp only
  rw [same, if_pos range]

/-- A difference of finite numbers is the difference of their counts, rounded. -/
theorem sub_finite (s t : Bool) : (finite s a).sub (finite t b) =
    if signedUnits s a - signedUnits t b = 0 then .finite (s && !t) 0
    else ofUnits (decide (signedUnits s a - signedUnits t b < 0))
      (signedUnits s a - signedUnits t b).natAbs 1 := by
  have opposite : signedUnits s a + signedUnits (!t) b = signedUnits s a - signedUnits t b := by
    cases t <;> simp [signedUnits, sub_eq_add_neg]
  rw [← opposite]
  rfl

/-- Nothing is lost when zero is taken away. -/
theorem sub_zero (finite : x.isFinite = true) (held : x.Representable) : x.sub .zero = x := by
  cases x with
  | finite sign units =>
    obtain ⟨exact, range⟩ := held
    have difference : signedUnits sign units - signedUnits false 0 = signedUnits sign units := by
      simp [signedUnits]
    rw [zero, sub_finite, difference]
    cases sign with
    | false =>
      simp only [signedUnits, Bool.false_eq_true, ↓reduceIte]
      split
      case isTrue none =>
        obtain rfl : units = 0 := by omega
        rfl
      case isFalse =>
        have sign : decide ((units : ℤ) < 0) = false := decide_eq_false (by omega)
        rw [sign, Int.natAbs_natCast, ofUnits_of_exact false exact range]
    | true =>
      simp only [signedUnits, ↓reduceIte]
      split
      case isTrue none =>
        obtain rfl : units = 0 := by omega
        rfl
      case isFalse some =>
        have sign : decide (-(units : ℤ) < 0) = true := decide_eq_true (by omega)
        rw [sign, Int.natAbs_neg, Int.natAbs_natCast, ofUnits_of_exact true exact range]
  | infinite => cases finite
  | notANumber => cases finite

/-! ### Numbers close to each other -/

/-- Counts within a factor of two have a difference of at most 53 significant bits. -/
theorem IsExact.sub (exact : IsExact a) (exact' : IsExact b) (le : b ≤ a) (close : a ≤ 2 * b) :
    IsExact (a - b) := by
  obtain ⟨c, e, small, rfl⟩ := exact
  obtain ⟨c', e', small', rfl⟩ := exact'
  -- The difference is a multiple of the smaller power, and no greater than either count.
  rcases Nat.le_total e' e with fine | fine
  · have split : c * 2 ^ e = c * 2 ^ (e - e') * 2 ^ e' := by
      rw [Nat.mul_assoc, ← Nat.pow_add, Nat.sub_add_cancel fine]
    rw [split] at le close ⊢
    have few : (c * 2 ^ (e - e') - c') * 2 ^ e' ≤ c' * 2 ^ e' := by
      rw [Nat.sub_mul]
      omega
    refine ⟨c * 2 ^ (e - e') - c', e', ?_, (Nat.sub_mul _ _ _).symm⟩
    exact (Nat.le_of_mul_le_mul_right few (Nat.two_pow_pos e')).trans_lt small'
  · have split : c' * 2 ^ e' = c' * 2 ^ (e' - e) * 2 ^ e := by
      rw [Nat.mul_assoc, ← Nat.pow_add, Nat.sub_add_cancel fine]
    rw [split]
    exact ⟨c - c' * 2 ^ (e' - e), e, by omega, (Nat.sub_mul _ _ _).symm⟩

/-- The difference of positive numbers within a factor of two is exact. -/
theorem sub_close (held : (finite false a).Representable) (held' : (finite false b).Representable)
    (le : b ≤ a) (close : a ≤ 2 * b) :
    (finite false a).sub (finite false b) = finite false (a - b) := by
  have difference : signedUnits false a - signedUnits false b = ((a - b : ℕ) : ℤ) := by
    simp [signedUnits, Int.ofNat_sub le]
  rw [sub_finite, difference]
  split
  case isTrue none =>
    have : a - b = 0 := by omega
    rw [this]
    rfl
  case isFalse =>
    have sign : decide (((a - b : ℕ) : ℤ) < 0) = false := decide_eq_false (by omega)
    rw [sign, Int.natAbs_natCast]
    exact ofUnits_of_exact false (held.1.sub held'.1 le close) (by have := held.2; omega)

/-! ### Numbers in order -/

/-- What a count is rounded to is no less than a number whose units it reaches. -/
theorem le_ofUnits (bound : m.isFinite = true) (held : m.Representable)
    (le : m.toRat ≤ (finite false a).toRat) :
    (Quantity.real m).value ≤ (Quantity.real (ofUnits false a 1)).value := by
  cases m with
  | finite sign units =>
    rw [toRat_le_toRat] at le
    unfold ofUnits
    dsimp only
    split
    case isFalse => exact le_top
    case isTrue =>
      rw [value_eq_toRat rfl, value_eq_toRat rfl, Quantity.finite_le_finite, toRat_le_toRat]
      cases sign with
      | false =>
        have reached : units * 1 ≤ a := by
          simpa [signedUnits] using le
        have := le_nearestUnits held.1 Nat.one_pos reached
        simpa [signedUnits] using this
      | true =>
        simp only [signedUnits, Bool.false_eq_true, ↓reduceIte]
        omega
  | infinite => cases bound
  | notANumber => cases bound

/-- A rounded difference does not fall below a number that the exact difference reaches. -/
theorem le_sub (known : x.isFinite = true) (known' : y.isFinite = true) (bound : m.isFinite = true)
    (held : m.Representable) (order : y.toRat ≤ x.toRat) (le : m.toRat ≤ x.toRat - y.toRat) :
    (Quantity.real (x.sub y)).IsNumber ∧
      (Quantity.real m).value ≤ (Quantity.real (x.sub y)).value := by
  cases x with
  | infinite => cases known
  | notANumber => cases known
  | finite s a =>
    cases y with
    | infinite => cases known'
    | notANumber => cases known'
    | finite t b =>
      rw [toRat_le_toRat] at order
      obtain ⟨d, exact⟩ : ∃ d : ℕ, signedUnits s a - signedUnits t b = d :=
        Int.eq_ofNat_of_zero_le (by omega)
      have difference : (finite s a).toRat - (finite t b).toRat = (finite false d).toRat := by
        rw [toRat, toRat, toRat, ← sub_div, ← Int.cast_sub, exact]
        rfl
      rw [difference] at le
      rw [sub_finite, exact]
      split
      case isTrue none =>
        have zero : ((finite (s && !t) 0).toRat : ℚ) = (finite false d).toRat := by
          rw [toRat, toRat, signedUnits, signedUnits, none]
          simp
        refine ⟨isNumber_of_isFinite rfl, ?_⟩
        rwa [value_eq_toRat bound, value_eq_toRat rfl, Quantity.finite_le_finite, zero]
      case isFalse =>
        have sign : decide ((d : ℤ) < 0) = false := decide_eq_false (by omega)
        rw [sign, Int.natAbs_natCast]
        refine ⟨fun none => ?_, le_ofUnits bound held le⟩
        exact (counts_ofUnits d 1).ne_notANumber (Quantity.real.inj none)

/-! ### Small differences -/

theorem sign_of_toRat_pos {sign : Bool} (positive : 0 < (finite sign a).toRat) : sign = false := by
  cases sign with
  | false => rfl
  | true =>
    rw [toRat, div_pos_iff_of_pos_right unitsPerOne_pos, Int.cast_pos] at positive
    simp only [signedUnits, ↓reduceIte] at positive
    omega

/-- What is no greater than a number below a bound is below it as well. -/
theorem less_of_le (known : x.isFinite = true) (known' : y.isFinite = true)
    (le : x.toRat ≤ y.toRat) (below : y.less m = true) : x.less m = true := by
  have number : (Quantity.real m).IsNumber := by
    rintro ⟨⟩
    cases y <;> cases below
  have under := (Quantity.less_iff (isNumber_of_isFinite known') number).1 below
  refine (Quantity.less_iff (isNumber_of_isFinite known) number).2 (lt_of_le_of_lt ?_ under)
  rw [value_eq_toRat known, value_eq_toRat known']
  exact Quantity.finite_le_finite.2 le

/-- A difference less than a bound that both numbers reach is seen to be so. -/
theorem less_of_close (known : x.isFinite = true) (held : x.Representable)
    (known' : y.isFinite = true) (held' : y.Representable) (order : y.toRat ≤ x.toRat)
    (beyond : y.less m = false)
    (close : Quantity.finite (x.toRat - y.toRat) < (Quantity.real m).value) :
    (x.sub y).less m = true := by
  have number : (Quantity.real m).IsNumber := by
    rintro ⟨⟩
    have : x.toRat - y.toRat < 0 := Quantity.finite_lt_finite.1 close
    linarith
  have reached : (Quantity.real m).value ≤ Quantity.finite y.toRat := by
    rw [← value_eq_toRat known', ← not_lt, ← Quantity.less_iff (isNumber_of_isFinite known') number]
    exact ne_true_of_eq_false beyond
  -- The numbers are positive and within a factor of two, hence nothing is lost.
  have near : x.toRat - y.toRat < y.toRat :=
    Quantity.finite_lt_finite.1 (lt_of_lt_of_le close reached)
  cases x with
  | infinite => cases known
  | notANumber => cases known
  | finite s a =>
    cases y with
    | infinite => cases known'
    | notANumber => cases known'
    | finite t b =>
      obtain rfl : t = false := sign_of_toRat_pos (a := b) (by linarith)
      obtain rfl : s = false := sign_of_toRat_pos (a := a) (by linarith)
      have le : b ≤ a := by simpa [toRat_le_toRat, signedUnits] using order
      have difference : (finite false a).toRat - (finite false b).toRat =
          (finite false (a - b)).toRat := by
        simp [toRat, signedUnits, Nat.cast_sub le, sub_div]
      rw [difference] at near close
      have few : a - b ≤ b := by simpa [toRat_le_toRat, signedUnits] using near.le
      rw [sub_close held held' le (by omega)]
      refine (Quantity.less_iff (isNumber_of_isFinite rfl) number).2 ?_
      rwa [value_eq_toRat rfl]

end Binary64

end VideoCatalog
