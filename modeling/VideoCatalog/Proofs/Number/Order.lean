import Mathlib.Algebra.Order.Field.Rat
import Mathlib.Algebra.Order.Field.Basic
import Mathlib.Order.WithBot
import VideoCatalog.Number.Quantity
import VideoCatalog.Proofs.Number.Rounding

/-!
# Quantities by value

* `Quantity.IsNumber`: everything but not-a-number.
* `Quantity.value`: the exact value of a quantity, infinite ones included.
* `Quantity.less_iff`, `Quantity.compare?_eq_compare`: comparisons go by value.
-/

namespace VideoCatalog

theorem Binary64.unitsPerOne_pos : (0 : ℚ) < Binary64.unitsPerOne :=
  Nat.cast_pos.2 pos_unitsPerOne

/-- Two numbers the other way round. -/
theorem Binary64.compare?_swap (x y : Binary64) :
    y.compare? x = (x.compare? y).map Ordering.swap := by
  cases x with
  | finite s u =>
    cases y with
    | finite t v => exact congrArg some Std.OrientedCmp.eq_swap
    | infinite t => cases t <;> rfl
    | notANumber => rfl
  | infinite s =>
    cases y with
    | finite t v => cases s <;> rfl
    | infinite t => exact congrArg some Std.OrientedCmp.eq_swap
    | notANumber => rfl
  | notANumber => cases y <;> rfl

-- The count of units is never evaluated here; it only matters that it is positive.
attribute [local irreducible] Binary64.unitsPerOne

namespace Quantity

/-- A quantity is a number, maybe an infinite one. -/
def IsNumber (q : Quantity) : Prop := q ≠ .real .notANumber

/-- A rational number among the infinite ones. -/
def finite (x : ℚ) : WithBot (WithTop ℚ) := (x : WithTop ℚ)

/-- The exact value of a quantity. What is not a number counts as zero. -/
def value : Quantity → WithBot (WithTop ℚ)
  | .whole n => finite n
  | .real (.finite s u) => finite (Binary64.signedUnits s u / Binary64.unitsPerOne)
  | .real (.infinite true) => ⊥
  | .real (.infinite false) => ⊤
  | .real .notANumber => finite 0

@[simp] theorem value_whole (n : Int) : value (.whole n) = finite n := rfl

theorem finite_injective : Function.Injective finite :=
  WithBot.coe_injective.comp WithTop.coe_injective

@[simp] theorem finite_lt_finite {x y : ℚ} : finite x < finite y ↔ x < y := by
  simp [finite]

@[simp] theorem finite_le_finite {x y : ℚ} : finite x ≤ finite y ↔ x ≤ y := by
  simp [finite]

@[simp] theorem bot_lt_finite (x : ℚ) : ⊥ < finite x := WithBot.bot_lt_coe _

@[simp] theorem finite_lt_top (x : ℚ) : finite x < ⊤ :=
  WithBot.coe_lt_coe.2 (WithTop.coe_lt_top x)

variable {p q : Quantity}

/-- A whole number against a count of units. -/
theorem lt_units {n a : Int} :
    (n : ℚ) < a / Binary64.unitsPerOne ↔ n * Binary64.unitsPerOne < a := by
  rw [lt_div_iff₀ Binary64.unitsPerOne_pos]
  exact_mod_cast Iff.rfl

theorem units_lt {n a : Int} :
    (a / Binary64.unitsPerOne : ℚ) < n ↔ a < n * Binary64.unitsPerOne := by
  rw [div_lt_iff₀ Binary64.unitsPerOne_pos]
  exact_mod_cast Iff.rfl

theorem units_lt_units {a b : Int} :
    (a / Binary64.unitsPerOne : ℚ) < b / Binary64.unitsPerOne ↔ a < b := by
  rw [div_lt_div_iff_of_pos_right Binary64.unitsPerOne_pos]
  exact_mod_cast Iff.rfl

/-- Comparisons go by value. -/
theorem less_iff (hp : p.IsNumber) (hq : q.IsNumber) : p.less q = true ↔ p.value < q.value := by
  cases p with
  | whole m =>
    cases q with
    | whole n => simp [less, value, compare_lt_iff_lt]
    | real y =>
      cases y with
      | finite t v =>
        simp [less, compare?, Binary64.compareInt?, value, lt_units, compare_gt_iff_gt]
      | infinite t =>
        cases t <;> simp [less, compare?, Binary64.compareInt?, value, not_lt_bot]
      | notANumber => exact absurd rfl hq
  | real x =>
    cases x with
    | finite s u =>
      cases q with
      | whole n =>
        simp [less, compare?, Binary64.compareInt?, value, units_lt, compare_lt_iff_lt]
      | real y =>
        cases y with
        | finite t v =>
          simp [less, compare?, Binary64.compare?, value, units_lt_units, compare_lt_iff_lt]
        | infinite t => cases t <;> simp [less, compare?, Binary64.compare?, value, not_lt_bot]
        | notANumber => exact absurd rfl hq
    | infinite s =>
      cases q with
      | whole n =>
        cases s <;> simp [less, compare?, Binary64.compareInt?, value, not_top_lt]
      | real y =>
        cases y with
        | finite t v => cases s <;> simp [less, compare?, Binary64.compare?, value, not_top_lt]
        | infinite t =>
          cases s <;> cases t <;> simp [less, compare?, Binary64.compare?, value]
          rfl
        | notANumber => exact absurd rfl hq
    | notANumber => exact absurd rfl hp

theorem compare?_swap (p q : Quantity) : q.compare? p = (p.compare? q).map Ordering.swap := by
  cases p with
  | whole m =>
    cases q with
    | whole n => exact congrArg some Std.OrientedCmp.eq_swap
    | real y => cases found : y.compareInt? m <;> simp [compare?, found]
  | real x =>
    cases q with
    | whole n => rfl
    | real y => exact Binary64.compare?_swap x y

/-- Numbers can be compared. -/
theorem compare?_isSome (hp : p.IsNumber) (hq : q.IsNumber) : ∃ o, p.compare? q = some o := by
  cases p with
  | whole m =>
    cases q with
    | whole n => exact ⟨_, rfl⟩
    | real y => cases y with
      | finite t v => exact ⟨_, rfl⟩
      | infinite t => exact ⟨_, rfl⟩
      | notANumber => exact absurd rfl hq
  | real x =>
    cases x with
    | notANumber => exact absurd rfl hp
    | finite s u | infinite s =>
      cases q with
      | whole n => exact ⟨_, rfl⟩
      | real y => cases y with
        | finite t v => exact ⟨_, rfl⟩
        | infinite t => exact ⟨_, rfl⟩
        | notANumber => exact absurd rfl hq

/-- Comparison tells which of two values is less. -/
theorem compare?_eq_compare (hp : p.IsNumber) (hq : q.IsNumber) :
    p.compare? q = some (compare p.value q.value) := by
  obtain ⟨o, found⟩ := compare?_isSome hp hq
  have below := less_iff hp hq
  have above := less_iff hq hp
  rw [less, compare?_swap p q, found] at above
  rw [less, found] at below
  rw [found]
  cases o with
  | lt => rw [compare_lt_iff_lt.2 (below.1 (by decide))]
  | gt => rw [compare_gt_iff_gt.2 (above.1 (by decide))]
  | eq =>
    have notBelow : ¬p.value < q.value := fun lt => by cases below.2 lt
    have notAbove : ¬q.value < p.value := fun lt => by cases above.2 lt
    rw [compare_eq_iff_eq.2 (le_antisymm (not_lt.1 notAbove) (not_lt.1 notBelow))]

theorem value_one : value (.real .one) = finite 1 := by
  simp [value, Binary64.one, Binary64.signedUnits, Binary64.unitsPerOne_pos.ne']

/-- Zero of either sign has the value zero. -/
theorem value_of_isZero (zero : q.isZero = true) : q.value = finite 0 := by
  cases q with
  | whole n =>
    have : n = 0 := by simpa [isZero] using zero
    simp [value, this]
  | real x =>
    cases x with
    | finite s u =>
      have : u = 0 := by simpa [isZero] using zero
      cases s <;> simp [value, this, Binary64.signedUnits]
    | infinite s => simp [isZero] at zero
    | notANumber => simp [isZero] at zero

end Quantity

end VideoCatalog
