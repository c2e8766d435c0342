import VideoCatalog.Proofs.Catalog.Sizes

/-!
# The form of a size as it is shown

The unit and the decimals of a size are chosen before the amount is rounded, so an amount just
below a boundary is written as the boundary itself.

* `ShownSize.Canonical`: the numeral fits its unit, and its decimals fit the numeral.
* `RoundsUp`: the sizes just below ten of a unit and just below the next unit.
* `size_text_canonical_iff`: a size is shown in canonical form exactly if it is none of these.
-/

namespace VideoCatalog

/-- An even number is not reached exactly below the middle before it. -/
theorem roundHalfEven_lt_iff {q d : ℕ} (n : ℕ) (positive : 0 < d) (even : q % 2 = 0) :
    roundHalfEven n d < q ↔ 2 * n + d < 2 * (q * d) := by
  obtain ⟨below, above⟩ := roundHalfEven_near n positive
  constructor
  · intro less
    have next : (roundHalfEven n d + 1) * d ≤ q * d := Nat.mul_le_mul_right d less
    rw [Nat.succ_mul] at next
    rcases (show 2 * n + d ≤ 2 * (q * d) by omega).lt_or_eq with strict | middle
    · exact strict
    · -- In the middle below an even number, that number is taken.
      obtain ⟨p, rfl⟩ : ∃ p, q = p + 1 := Nat.exists_eq_succ_of_ne_zero (by omega)
      have split : n = p * d + d / 2 ∧ d = 2 * (d / 2) := by
        rw [Nat.succ_mul p d] at middle
        omega
      have quotient : n / d = p := by
        rw [split.1, Nat.add_comm, Nat.add_mul_div_right _ _ positive,
          Nat.div_eq_of_lt (by omega), Nat.zero_add]
      have remainder : n % d = d / 2 := by
        rw [split.1, Nat.add_comm, Nat.add_mul_mod_self_right, Nat.mod_eq_of_lt (by omega)]
      have taken : roundHalfEven n d = p + p % 2 := by
        unfold roundHalfEven
        rw [quotient, remainder, if_neg (by omega), if_neg (by omega)]
      omega
  · intro less
    exact Nat.lt_of_mul_lt_mul_right (show roundHalfEven n d * d < q * d by omega)

namespace ShownSize

/-- The numeral is below 1024 unless the unit is the last one, and except for bytes there is one
decimal exactly if the numeral is below ten. -/
structure Canonical (a : ShownSize) : Prop where
  fits : a.step ≠ 4 → a.numeral.value < 1024
  decimals : a.step ≠ 0 → (a.numeral.places = 1 ↔ a.numeral.value < 10)

variable {digits step : ℕ}

/-- One decimal stands only below ten. -/
theorem canonical_decimal (some : step ≠ 0) :
    (ShownSize.mk ⟨digits, 1⟩ step).Canonical ↔ digits < 100 := by
  have value : (FixedDecimal.mk digits 1).value = digits / 10 := by simp [FixedDecimal.value]
  have ten : (FixedDecimal.mk digits 1).value < 10 ↔ digits < 100 := by
    rw [value, div_lt_iff₀ (by norm_num)]
    norm_num
  constructor
  · intro canonical
    exact ten.1 ((canonical.decimals some).1 rfl)
  · intro less
    refine ⟨fun _ => ?_, fun _ => ?_⟩
    · exact (ten.2 less).trans (by norm_num)
    · exact iff_of_true rfl (ten.2 less)

/-- A numeral from ten on has no decimals, and only in the last unit it may reach 1024. -/
theorem canonical_whole (least : 10 ≤ digits) :
    (ShownSize.mk ⟨digits, 0⟩ step).Canonical ↔ (step ≠ 4 → digits < 1024) := by
  have value : (FixedDecimal.mk digits 0).value = digits := by simp [FixedDecimal.value]
  have few : (FixedDecimal.mk digits 0).value < 1024 ↔ digits < 1024 := by
    rw [value]
    norm_cast
  have ten : ¬(FixedDecimal.mk digits 0).value < 10 := by
    rw [value, not_lt]
    exact_mod_cast least
  constructor
  · intro canonical other
    exact few.1 (canonical.fits other)
  · intro less
    refine ⟨fun other => ?_, fun _ => ?_⟩
    · exact few.2 (less other)
    · exact iff_of_false Nat.zero_ne_one ten

/-- Bytes may have any numeral below 1024. -/
theorem canonical_bytes (few : digits < 1024) : (ShownSize.mk ⟨digits, 0⟩ 0).Canonical := by
  refine ⟨fun _ => ?_, fun other => absurd rfl other⟩
  rw [FixedDecimal.value, pow_zero, div_one]
  exact_mod_cast few

end ShownSize

/-! ### Sizes that are rounded up to a boundary -/

/-- Sizes just below ten of a unit, which are ten once they are rounded to one decimal. -/
def JustBelowTen (n step : ℕ) : Prop := 199 * 1024 ^ step ≤ 20 * n ∧ n < 10 * 1024 ^ step

/-- Sizes just below the next unit, which are 1024 of their own once they are rounded. -/
def JustBelowNext (n step : ℕ) : Prop :=
  2047 * 1024 ^ step ≤ 2 * n ∧ n < 1024 ^ (step + 1)

/-- Sizes that are rounded up to a boundary. Bytes are never rounded, and there is no boundary
above the last unit. -/
def RoundsUp (n : ℕ) : Prop :=
  ∃ step, 1 ≤ step ∧ (step ≤ 4 ∧ JustBelowTen n step ∨ step ≤ 3 ∧ JustBelowNext n step)

variable {n step next : ℕ}

/-- A size has one unit only. -/
theorem InUnit.unique (unit : InUnit n step) (unit' : InUnit n next) : step = next :=
  (unit.mono unit' le_rfl).antisymm (unit'.mono unit le_rfl)

/-- Sizes that are rounded up are so in their own unit. -/
theorem InUnit.roundsUp_iff (unit : InUnit n step) :
    RoundsUp n ↔ step ≠ 0 ∧ (JustBelowTen n step ∨ step ≠ 4 ∧ JustBelowNext n step) := by
  have named := unit.named
  constructor
  · rintro ⟨own, one, bounds⟩
    have next : 1024 ^ (own + 1) = 1024 * 1024 ^ own := Nat.pow_succ'
    have own' : InUnit n own := by
      rcases bounds with ⟨last, low, high⟩ | ⟨last, low, high⟩
      · exact ⟨last, fun _ => by omega, fun _ => by omega⟩
      · exact ⟨by omega, fun _ => by omega, fun _ => high⟩
    obtain rfl := unit.unique own'
    refine ⟨by omega, ?_⟩
    rcases bounds with ⟨-, ten⟩ | ⟨last, boundary⟩
    · exact .inl ten
    · exact .inr ⟨by omega, boundary⟩
  · rintro ⟨some, ten | ⟨last, boundary⟩⟩
    · exact ⟨step, by omega, .inl ⟨named, ten⟩⟩
    · exact ⟨step, by omega, .inr ⟨by omega, boundary⟩⟩

/-- With one decimal, ten is never passed, and it is reached from half a tenth below it on. -/
theorem digits_decimal (less : n < 10 * 1024 ^ step) :
    roundHalfEven (n * 10 ^ 1) (1024 ^ step) ≤ 100 ∧
      (roundHalfEven (n * 10 ^ 1) (1024 ^ step) < 100 ↔ ¬JustBelowTen n step) := by
  have positive : 0 < 1024 ^ step := by positivity
  have most : roundHalfEven (n * 10 ^ 1) (1024 ^ step) ≤ 100 := by
    calc roundHalfEven (n * 10 ^ 1) (1024 ^ step)
        ≤ roundHalfEven (100 * 1024 ^ step) (1024 ^ step) := roundHalfEven_mono (by omega) positive
      _ = 100 := roundHalfEven_mul 100 positive
  have reached := roundHalfEven_lt_iff (q := 100) (n * 10 ^ 1) positive (by decide)
  refine ⟨most, reached.trans ?_⟩
  unfold JustBelowTen
  omega

/-- From ten on, the rounded amount is from ten on as well. -/
theorem ten_le_digits (reached : 10 * 1024 ^ step ≤ n) :
    10 ≤ roundHalfEven (n * 10 ^ 0) (1024 ^ step) := by
  have positive : 0 < 1024 ^ step := by positivity
  calc 10 = roundHalfEven (10 * 1024 ^ step) (1024 ^ step) := (roundHalfEven_mul 10 positive).symm
    _ ≤ roundHalfEven (n * 10 ^ 0) (1024 ^ step) := roundHalfEven_mono (by omega) positive

/-- Without decimals, 1024 is never passed, and it is reached from half a unit below it on. -/
theorem digits_whole (less : n < 1024 ^ (step + 1)) :
    roundHalfEven (n * 10 ^ 0) (1024 ^ step) ≤ 1024 ∧
      (roundHalfEven (n * 10 ^ 0) (1024 ^ step) < 1024 ↔ ¬JustBelowNext n step) := by
  have positive : 0 < 1024 ^ step := by positivity
  have next : 1024 ^ (step + 1) = 1024 * 1024 ^ step := Nat.pow_succ'
  have most : roundHalfEven (n * 10 ^ 0) (1024 ^ step) ≤ 1024 := by
    calc roundHalfEven (n * 10 ^ 0) (1024 ^ step)
        ≤ roundHalfEven (1024 * 1024 ^ step) (1024 ^ step) :=
          roundHalfEven_mono (by omega) positive
      _ = 1024 := roundHalfEven_mul 1024 positive
  have boundary := roundHalfEven_lt_iff (q := 1024) (n * 10 ^ 0) positive (by decide)
  refine ⟨most, boundary.trans ?_⟩
  unfold JustBelowNext
  omega

/-- What is shown of a size is in canonical form unless the size is rounded up to a boundary, and
then it is this boundary. -/
def ShownSize.InForm (n : ℕ) (a : ShownSize) : Prop :=
  (a.Canonical ↔ ¬RoundsUp n) ∧
    (RoundsUp n → a.numeral = ⟨100, 1⟩ ∨ a.numeral = ⟨1024, 0⟩)

theorem InUnit.inForm_bytes (unit : InUnit n 0) : (ShownSize.rounded n 0 0).InForm n := by
  have few : n < 1024 := unit.left (by omega)
  have whole : roundHalfEven (n * 10 ^ 0) (1024 ^ 0) = n := by
    simpa using roundHalfEven_mul n Nat.one_pos
  have canonical : (ShownSize.rounded n 0 0).Canonical := by
    rw [ShownSize.rounded, whole]
    exact ShownSize.canonical_bytes few
  rw [ShownSize.InForm, unit.roundsUp_iff]
  exact ⟨iff_of_true canonical (by simp), fun up => absurd rfl up.1⟩

theorem InUnit.inForm_decimal (unit : InUnit n step) (some : step ≠ 0)
    (few : n < 10 * 1024 ^ step) : (ShownSize.rounded n step 1).InForm n := by
  obtain ⟨most, ten⟩ := digits_decimal few
  have apart : ¬JustBelowNext n step := fun ⟨low, _⟩ => by omega
  rw [ShownSize.InForm, unit.roundsUp_iff, ShownSize.rounded]
  constructor
  · rw [ShownSize.canonical_decimal some, ten]
    simp [some, apart]
  · rintro ⟨-, below | ⟨-, next⟩⟩
    · have := mt ten.1 (not_not.2 below)
      exact .inl (congrArg (FixedDecimal.mk · 1) (by omega))
    · exact absurd next apart

theorem InUnit.inForm_whole (unit : InUnit n step) (some : step ≠ 0)
    (reached : 10 * 1024 ^ step ≤ n) : (ShownSize.rounded n step 0).InForm n := by
  have apart : ¬JustBelowTen n step := fun ⟨_, high⟩ => by omega
  rw [ShownSize.InForm, unit.roundsUp_iff, ShownSize.rounded,
    ShownSize.canonical_whole (ten_le_digits reached)]
  by_cases last : step = 4
  · -- Nothing bounds the numeral of the last unit.
    subst last
    exact ⟨iff_of_true (absurd rfl) (by simp [apart]), by simp [apart]⟩
  · have named := unit.named
    obtain ⟨most, boundary⟩ := digits_whole (unit.left (by omega))
    constructor
    · rw [boundary]
      simp [some, last, apart]
    · rintro ⟨-, below | ⟨-, next⟩⟩
      · exact absurd below apart
      · have := mt boundary.1 (not_not.2 next)
        exact .inr (congrArg (FixedDecimal.mk · 0) (by omega))

theorem InUnit.inForm (unit : InUnit n step) :
    (ShownSize.rounded n step (sizePlaces n step)).InForm n := by
  unfold sizePlaces
  split
  case isTrue both => exact unit.inForm_decimal both.2 both.1
  case isFalse neither =>
    by_cases bytes : step = 0
    · subst bytes
      exact unit.inForm_bytes
    · exact unit.inForm_whole bytes (Nat.le_of_not_lt fun few => neither ⟨few, bytes⟩)

/-- The text of every size below `2 ^ 53` is in canonical form, except for the sizes that are
rounded up to a boundary: they are shown as `10.0` or as `1024` of their unit. -/
theorem size_text_canonical_iff (small : n < 2 ^ 53) :
    ∃ a, Shows n a ∧ (a.Canonical ↔ ¬RoundsUp n) ∧
      (RoundsUp n → a.numeral = ⟨100, 1⟩ ∨ a.numeral = ⟨1024, 0⟩) := by
  obtain ⟨step, unit, shown⟩ := exists_shows small
  exact ⟨_, shown, unit.inForm⟩

/-- The middle between the last two kilobytes goes to the even one of them, a whole megabyte. -/
theorem size_text_canonical_iff_halfway : 1048064 < 2 ^ 53 ∧ RoundsUp 1048064 ∧
    ∃ a, Shows 1048064 a ∧ ¬a.Canonical ∧ (a.numeral = ⟨100, 1⟩ ∨ a.numeral = ⟨1024, 0⟩) := by
  have up : RoundsUp 1048064 := ⟨1, le_rfl, .inr ⟨by decide, by decide, by decide⟩⟩
  obtain ⟨a, shown, canonical, boundary⟩ := size_text_canonical_iff (n := 1048064) (by decide)
  exact ⟨by decide, up, a, shown, fun held => canonical.1 held up, boundary up⟩

/-- A size shows as its text reads. -/
theorem Shows.read?_eq {text : String} {a : ShownSize} (shown : Shows n a)
    (written : formatBytes (.int n) = .ok text) : ShownSize.read? text = some a := by
  obtain ⟨other, written', read⟩ := shown
  have same : other = text := Except.ok.inj (written'.symm.trans written)
  rwa [same] at read

/-- Sizes just below ten kilobytes and just below a megabyte are not shown in canonical form. -/
theorem sizes_below_boundaries_not_canonical :
    (formatBytes (.int 10239) = .ok "10.0 KB" ∧ ¬∃ a, Shows 10239 a ∧ a.Canonical) ∧
      formatBytes (.int 1048575) = .ok "1024 KB" ∧ ¬∃ a, Shows 1048575 a ∧ a.Canonical := by
  have ten : formatBytes (.int 10239) = .ok "10.0 KB" := by decide +kernel
  have next : formatBytes (.int 1048575) = .ok "1024 KB" := by decide +kernel
  refine ⟨⟨ten, ?_⟩, next, ?_⟩
  · rintro ⟨a, shown, canonical⟩
    have read : ShownSize.read? "10.0 KB" = some ⟨⟨100, 1⟩, 1⟩ := by decide +kernel
    obtain rfl := Option.some.inj (read.symm.trans (shown.read?_eq ten))
    exact absurd ((ShownSize.canonical_decimal Nat.one_ne_zero).1 canonical) (by decide)
  · rintro ⟨a, shown, canonical⟩
    have read : ShownSize.read? "1024 KB" = some ⟨⟨1024, 0⟩, 1⟩ := by decide +kernel
    obtain rfl := Option.some.inj (read.symm.trans (shown.read?_eq next))
    exact absurd ((ShownSize.canonical_whole (by decide)).1 canonical (by decide)) (by decide)

end VideoCatalog
