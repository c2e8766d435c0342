import Mathlib.Algebra.Order.Field.Basic
import Mathlib.Tactic.Linarith
import Mathlib.Tactic.Positivity
import VideoCatalog.Catalog.Format
import VideoCatalog.Proofs.Number.Decimals

/-!
# Sizes as they are shown

The text of a size is read again as an exact quantity, a numeral times its unit.

* `ShownSize.read?`: the numeral and the unit of a text; `value` is the quantity it shows and
  `grain` one unit of its last digit.
* `InUnit n step`: the unit in which `n` bytes are shown.
* `exists_shows`: the text of `n` bytes shows the quotient of `n` by this unit, rounded once.
* `shown_sizes_in_order`: a smaller size never shows as a greater one, and each size is at most
  half a grain away from what is shown.
-/

namespace VideoCatalog

/-- A size as it is shown: a numeral, and which of the units follows it. -/
structure ShownSize where
  numeral : FixedDecimal
  step : ℕ
deriving DecidableEq, Repr

namespace ShownSize

/-- Reads a numeral, a space and the name of a unit. -/
def read? (text : String) : Option ShownSize :=
  match Text.splitAt? ' ' text with
  | none => none
  | some (numeral, unit) =>
    match FixedDecimal.read? numeral, sizeUnits.idxOf? unit with
    | some a, some step => some ⟨a, step⟩
    | _, _ => none

/-- The quantity that is shown: each unit is 1024 of the one before. -/
def value (a : ShownSize) : ℚ := a.numeral.value * 1024 ^ a.step

/-- One unit of the last digit that is shown. -/
def grain (a : ShownSize) : ℚ := 1024 ^ a.step / 10 ^ a.numeral.places

/-- The size `n` in a given unit, rounded to a given number of places. -/
def rounded (n step places : ℕ) : ShownSize :=
  ⟨⟨roundHalfEven (n * 10 ^ places) (1024 ^ step), places⟩, step⟩

variable {n m : ℕ} (step places : ℕ)

theorem value_rounded (n : ℕ) : (rounded n step places).value =
    roundHalfEven (n * 10 ^ places) (1024 ^ step) * 1024 ^ step / 10 ^ places := by
  rw [value, FixedDecimal.value, div_mul_eq_mul_div]
  rfl

/-- What is shown is at most half a grain away. -/
theorem rounded_near (n : ℕ) :
    |(rounded n step places).value - n| ≤ (rounded n step places).grain / 2 := by
  obtain ⟨below, above⟩ :=
    roundHalfEven_near (n * 10 ^ places) (d := 1024 ^ step) (by positivity)
  have scale : (0 : ℚ) < 10 ^ places := by positivity
  have gap : (rounded n step places).value - n =
      (roundHalfEven (n * 10 ^ places) (1024 ^ step) * 1024 ^ step - n * 10 ^ places) /
        10 ^ places := by
    rw [value_rounded, sub_div, mul_div_cancel_right₀ _ scale.ne']
  have half : (rounded n step places).grain / 2 = 1024 ^ step / 2 / 10 ^ places :=
    div_right_comm _ _ _
  have below' : (2 * (n * 10 ^ places) : ℚ) ≤
      2 * (roundHalfEven (n * 10 ^ places) (1024 ^ step) * 1024 ^ step) + 1024 ^ step :=
    mod_cast below
  have above' : (2 * (roundHalfEven (n * 10 ^ places) (1024 ^ step) * 1024 ^ step) : ℚ) ≤
      2 * (n * 10 ^ places) + 1024 ^ step :=
    mod_cast above
  rw [gap, half, abs_div, abs_of_pos scale]
  refine div_le_div_of_nonneg_right ?_ scale.le
  rw [abs_le]
  constructor <;> linarith

/-- In one unit, and with as many places, sizes show in their order. -/
theorem rounded_mono (order : n ≤ m) :
    (rounded n step places).value ≤ (rounded m step places).value := by
  have rounds : roundHalfEven (n * 10 ^ places) (1024 ^ step) ≤
      roundHalfEven (m * 10 ^ places) (1024 ^ step) :=
    roundHalfEven_mono (Nat.mul_le_mul_right _ order) (by positivity)
  rw [value_rounded, value_rounded]
  gcongr

/-- A whole number of units shows as it is. -/
theorem rounded_whole (w : ℕ) : (rounded (w * 1024 ^ step) step places).value =
    (w * 1024 ^ step : ℕ) := by
  have regroup : w * 1024 ^ step * 10 ^ places = w * 10 ^ places * 1024 ^ step :=
    Nat.mul_right_comm _ _ _
  rw [value_rounded, regroup, roundHalfEven_mul _ (by positivity)]
  push_cast
  rw [mul_right_comm, mul_div_cancel_right₀ _ (by positivity)]

end ShownSize

/-! ### The unit and the places of a size -/

/-- The unit in which `n` bytes are shown: the first one of which there are less than 1024, or
else the last one. -/
structure InUnit (n step : ℕ) : Prop where
  named : step ≤ 4
  reached : step ≠ 0 → 1024 ^ step ≤ n
  left : step < 4 → n < 1024 ^ (step + 1)

/-- How many decimals `n` bytes are shown with. -/
def sizePlaces (n step : ℕ) : ℕ := if n < 10 * 1024 ^ step ∧ step ≠ 0 then 1 else 0

variable {n m step next : ℕ}

/-- A greater size has no smaller unit. -/
theorem InUnit.mono (unit : InUnit n step) (unit' : InUnit m next) (order : n ≤ m) :
    step ≤ next := by
  by_contra crossed
  have above : 1024 ^ (next + 1) ≤ n :=
    (Nat.pow_le_pow_right (by omega) (by omega)).trans (unit.reached (by omega))
  have below : m < 1024 ^ (next + 1) := unit'.left (by have := unit.named; omega)
  omega

/-- Two sizes are shown alike, or there is a size between them that is a whole number of both
units. -/
theorem InUnit.alike_or_between (unit : InUnit n step) (unit' : InUnit m next) (order : n ≤ m) :
    (step = next ∧ sizePlaces n step = sizePlaces m next) ∨
      ∃ v w, v * 1024 ^ step = w * 1024 ^ next ∧ n ≤ v * 1024 ^ step ∧ w * 1024 ^ next ≤ m := by
  rcases (unit.mono unit' order).eq_or_lt with rfl | further
  · by_cases same : n < 10 * 1024 ^ step ↔ m < 10 * 1024 ^ step
    · refine .inl ⟨rfl, ?_⟩
      simp only [sizePlaces, same]
    · -- Only one of them has a decimal: ten units lie between them.
      refine .inr ⟨10, 10, rfl, ?_, ?_⟩ <;> omega
  · -- The greater unit itself lies between them.
    have whole : 1024 ^ (next - step) * 1024 ^ step = 1 * 1024 ^ next := by
      rw [← Nat.pow_add, Nat.sub_add_cancel further.le, Nat.one_mul]
    have below : n < 1024 ^ (step + 1) := unit.left (by have := unit'.named; omega)
    have above : 1024 ^ (step + 1) ≤ 1024 ^ next := Nat.pow_le_pow_right (by omega) further
    have reached : 1024 ^ next ≤ m := unit'.reached (by omega)
    refine .inr ⟨1024 ^ (next - step), 1, whole, ?_, ?_⟩ <;> omega

/-- What is shown keeps the order of the sizes, whatever their units and places. -/
theorem ShownSize.rounded_le_rounded (unit : InUnit n step) (unit' : InUnit m next)
    (order : n ≤ m) : (rounded n step (sizePlaces n step)).value ≤
      (rounded m next (sizePlaces m next)).value := by
  rcases unit.alike_or_between unit' order with ⟨rfl, same⟩ | ⟨v, w, between, below, above⟩
  · rw [same]
    exact rounded_mono _ _ order
  · calc (rounded n step (sizePlaces n step)).value
        ≤ (rounded (v * 1024 ^ step) step (sizePlaces n step)).value := rounded_mono _ _ below
      _ = (v * 1024 ^ step : ℕ) := rounded_whole _ _ v
      _ = (w * 1024 ^ next : ℕ) := by rw [between]
      _ = (rounded (w * 1024 ^ next) next (sizePlaces m next)).value :=
        (rounded_whole _ _ w).symm
      _ ≤ (rounded m next (sizePlaces m next)).value := rounded_mono _ _ above

/-! ### The text of a size -/

/-- How many of a unit of sizes `n` bytes are, as a binary64 number. -/
def amountIn (n step : ℕ) : Binary64 := .finite false (n * 2 ^ (1074 - 10 * step))

/-- The number one has factors enough to be divided by every unit of sizes. -/
theorem unitsPerOne_split (named : step ≤ 4) :
    Binary64.unitsPerOne = 1024 ^ step * 2 ^ (1074 - 10 * step) := by
  have power : 1024 ^ step = 2 ^ (10 * step) := by rw [Nat.pow_mul]
  rw [Binary64.unitsPerOne_eq, power, ← Nat.pow_add]
  congr 1
  omega

/-- Comparing an amount compares the size, since nothing has been rounded. -/
theorem less_amountIn (named : step ≤ 4) {w : ℕ} (small : w < 2 ^ 53) :
    (amountIn n step).less (.ofNat w) = true ↔ n < w * 1024 ^ step := by
  rw [Binary64.ofNat_eq small, amountIn, Binary64.less_finite, unitsPerOne_split named,
    ← Nat.mul_assoc]
  exact Nat.mul_lt_mul_right (Nat.two_pow_pos _)

theorem less_kilo (named : step ≤ 4) :
    (amountIn n step).less kilo = true ↔ n < 1024 ^ (step + 1) := by
  rw [kilo, less_amountIn named (by decide), ← Nat.pow_succ']

/-- The next amount is exact as well. -/
theorem div_kilo (small : n < 2 ^ 53) (named : step < 4) :
    (amountIn n step).div kilo = amountIn n (step + 1) := by
  have power : 1074 - 10 * step = 1074 - 10 * (step + 1) + 10 := by omega
  unfold amountIn
  rw [power]
  exact Binary64.div_ofNat small (by omega) (by omega)

/-- Going on from one unit to the next ends at the unit of the size. -/
theorem scaleSize_amountIn (small : n < 2 ^ 53) (left : ℕ) {step : ℕ} (units : step + left = 4)
    (reached : step ≠ 0 → 1024 ^ step ≤ n) :
    ∃ last, InUnit n last ∧ scaleSize (amountIn n step) step left = (amountIn n last, last) := by
  induction left generalizing step with
  | zero => exact ⟨step, ⟨by omega, reached, by omega⟩, rfl⟩
  | succ left ih =>
    have less := less_kilo (n := n) (show step ≤ 4 by omega)
    rw [scaleSize]
    by_cases below : n < 1024 ^ (step + 1)
    · rw [if_pos (less.2 below)]
      exact ⟨step, ⟨by omega, reached, fun _ => below⟩, rfl⟩
    · rw [if_neg fun lt => below (less.1 lt), div_kilo small (by omega)]
      exact ih (by omega) fun _ => Nat.le_of_not_lt below

/-- The text of an amount, from the size itself. -/
theorem fixed_amountIn (places : ℕ) (named : step ≤ 4) :
    (amountIn n step).fixed places = String.ofList (fixedDigits places n (1024 ^ step)) := by
  have digits := fixedDigits_scale places n (1024 ^ step) (Nat.two_pow_pos (1074 - 10 * step))
  rw [amountIn, Binary64.fixed, unitsPerOne_split named, digits]
  rfl

/-- A value that is a finite number has the text of this number. -/
theorem formatBytes_of_real {v : Value} {x : Binary64} (given : v ≠ .null) (real : v.real = .ok x)
    (finite : x.isFinite = true) : formatBytes v = .ok (formatFiniteBytes x) := by
  unfold formatBytes
  split
  · exact absurd rfl given
  · rw [real, Except.map, if_pos finite]

/-- The text of a number, from the amount and the unit it ends at. -/
theorem formatFiniteBytes_of_scale {size amount : Binary64}
    (scaled : scaleSize size 0 4 = (amount, step)) : formatFiniteBytes size =
      amount.fixed (if amount.less (.ofNat 10) ∧ step ≠ 0 then 1 else 0) ++ " " ++
        sizeUnits.getD step "" := by
  unfold formatFiniteBytes
  rw [show sizeUnits.length - 1 = 4 from rfl, scaled]

/-- The text of a size, from the size itself. -/
theorem formatBytes_natCast (small : n < 2 ^ 53) : ∃ step, InUnit n step ∧
    formatBytes (.int n) = .ok (String.ofList
      (fixedDigits (sizePlaces n step) n (1024 ^ step) ++ ' ' :: (sizeUnits.getD step "").toList)) := by
  obtain ⟨step, unit, scaled⟩ :=
    scaleSize_amountIn small 4 (Nat.zero_add 4) (absurd rfl)
  refine ⟨step, unit, ?_⟩
  have start : amountIn n 0 = .finite false (n * Binary64.unitsPerOne) := by
    rw [unitsPerOne_split (Nat.zero_le 4), Nat.pow_zero, Nat.one_mul, amountIn]
  have exact : (Quantity.whole n).toReal? = some (amountIn n 0) :=
    (Binary64.ofInt?_natCast small).trans (congrArg some start.symm)
  have real : (Value.int n).real = .ok (amountIn n 0) := Value.real_of_quantity rfl exact
  have places : (if (amountIn n step).less (.ofNat 10) ∧ step ≠ 0 then 1 else 0) =
      sizePlaces n step := by
    simp only [sizePlaces, less_amountIn unit.named (show 10 < 2 ^ 53 by decide)]
  have text : formatFiniteBytes (amountIn n 0) = String.ofList
      (fixedDigits (sizePlaces n step) n (1024 ^ step) ++
        ' ' :: (sizeUnits.getD step "").toList) := by
    rw [formatFiniteBytes_of_scale scaled, places, fixed_amountIn _ unit.named]
    simp [String.ext_iff]
  rw [← text]
  exact formatBytes_of_real (by simp [Value.int]) real rfl

/-- A text shows `n` bytes as something. -/
def Shows (n : ℕ) (a : ShownSize) : Prop :=
  ∃ text, formatBytes (.int n) = .ok text ∧ ShownSize.read? text = some a

/-- Every unit has a name of its own. -/
theorem idxOf?_sizeUnits : ∀ step ≤ 4, sizeUnits.idxOf? (sizeUnits.getD step "") = some step := by
  decide

/-- What the text of `n` bytes shows is the quotient by its unit, rounded once. -/
theorem exists_shows (small : n < 2 ^ 53) : ∃ step, InUnit n step ∧
    Shows n (.rounded n step (sizePlaces n step)) := by
  obtain ⟨step, unit, text⟩ := formatBytes_natCast small
  have solid : ' ' ∉ fixedDigits (sizePlaces n step) n (1024 ^ step) := by
    intro mem
    rcases mem_fixedDigits mem with digit | point
    · exact absurd digit (by decide)
    · exact absurd point (by decide)
  refine ⟨step, unit, _, text, ?_⟩
  unfold ShownSize.read?
  rw [Text.splitAt?_append solid, String.ofList_toList]
  dsimp only
  rw [FixedDecimal.read?_fixedDigits, idxOf?_sizeUnits step unit.named]
  rfl

/-- Below `2 ^ 53` bytes, a smaller size never shows as a greater one, across all units and
places, and each size is at most half a grain away from what is shown. -/
theorem shown_sizes_in_order (order : n ≤ m) (small : m < 2 ^ 53) :
    ∃ a b : ShownSize, Shows n a ∧ Shows m b ∧ a.value ≤ b.value ∧
      |a.value - n| ≤ a.grain / 2 ∧ |b.value - m| ≤ b.grain / 2 := by
  obtain ⟨step, unit, shown⟩ := exists_shows (order.trans_lt small)
  obtain ⟨next, unit', shown'⟩ := exists_shows small
  exact ⟨_, _, shown, shown', ShownSize.rounded_le_rounded unit unit' order,
    ShownSize.rounded_near _ _ n, ShownSize.rounded_near _ _ m⟩

/-- The last size below a megabyte, which is shown in kilobytes, and the megabyte itself. -/
theorem shown_sizes_around_megabyte : 1048575 ≤ 1048576 ∧ 1048576 < 2 ^ 53 ∧
    ∃ a b : ShownSize, Shows 1048575 a ∧ Shows 1048576 b ∧ a.value ≤ b.value ∧
      |a.value - (1048575 : ℕ)| ≤ a.grain / 2 ∧ |b.value - (1048576 : ℕ)| ≤ b.grain / 2 :=
  ⟨by decide, by decide, shown_sizes_in_order (by decide) (by decide)⟩

-- They are shown as `1024 KB` and `1.0 MB`, which is the same quantity.
example : (formatBytes (.int 1048575)).toOption.bind ShownSize.read? =
    some ⟨⟨1024, 0⟩, 1⟩ := by decide +kernel
example : (formatBytes (.int 1048576)).toOption.bind ShownSize.read? =
    some ⟨⟨10, 1⟩, 2⟩ := by decide +kernel

end VideoCatalog
