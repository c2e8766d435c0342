import Mathlib.Data.Nat.Cast.Field
import Mathlib.Data.Rat.Floor
import VideoCatalog.Catalog.Format
import VideoCatalog.Proofs.Number.Decimals
import VideoCatalog.Proofs.Number.Nearest
import VideoCatalog.Proofs.Number.Order

/-!
# Durations as they are shown

The text of a duration is read again as a numeral in base sixty.

* `durationFields`, `sexagesimal`: what stands between the colons, and the number it stands for.
* `ShowsSeconds`: a text in minutes and seconds, or in hours, minutes and seconds, that reads as a
  number of seconds.
* `IsSeconds`: a value is a finite number of seconds in the range of binary64 numbers.
* `duration_text_reads_back`: the text of such a value reads as its whole seconds, so two values
  have the same text exactly if these are the same.
-/

namespace VideoCatalog

/-- What stands between the colons of a text. -/
def durationFields (text : String) : List (List Char) := text.toList.splitOn ':'

/-- The number that fields stand for in base sixty. -/
def sexagesimal (fields : List (List Char)) : ℕ :=
  fields.foldl (fun n field => 60 * n + Numeral.digitsValue field) 0

/-- The text shows a number of seconds: its fields are numerals that stand for the number in base
sixty. There are two of them below an hour and three from an hour on. The fields after the first
have two digits and are below sixty, and the first one has no zero in front. -/
structure ShowsSeconds (text : String) (total : ℕ) : Prop where
  digits : ∀ field ∈ durationFields text, ∀ c ∈ field, c.isDigit = true
  reads : sexagesimal (durationFields text) = total
  count : (durationFields text).length = if 3600 ≤ total then 3 else 2
  later : ∀ field ∈ (durationFields text).tail,
    field.length = 2 ∧ Numeral.digitsValue field < 60
  first : ∃ c rest, (durationFields text).head? = some (c :: rest) ∧ (c = '0' → rest = [])

/-! ### Fields as they are written -/

section Fields

variable {n : ℕ}

theorem isDigit_decimalDigits (n : ℕ) : ∀ c ∈ decimalDigits n, c.isDigit = true :=
  fun _ mem => Nat.isDigit_of_mem_toDigits (by decide) (by decide) mem

theorem digitsValue_decimalDigits (n : ℕ) : Numeral.digitsValue (decimalDigits n) = n :=
  Nat.ofDigitChars_toDigits (by decide) (by decide)

/-- The digits of a number have a zero in front only if there is nothing else. -/
theorem decimalDigits_head (n : ℕ) :
    ∃ c rest, decimalDigits n = c :: rest ∧ (c = '0' → rest = []) := by
  induction n using Nat.strong_induction_on with
  | _ n ih =>
    by_cases small : n < 10
    · exact ⟨_, [], Nat.toDigits_of_lt_base small, fun _ => rfl⟩
    · obtain ⟨c, rest, front, alone⟩ := ih (n / 10) (by omega)
      have digits : decimalDigits n = decimalDigits (n / 10) ++ [(n % 10).digitChar] :=
        Nat.toDigits_of_base_le (by decide) (Nat.le_of_not_lt small)
      refine ⟨c, rest ++ [(n % 10).digitChar], by rw [digits, front]; rfl, ?_⟩
      -- A zero in front would be the whole quotient by ten, which is not zero.
      rintro rfl
      have zero : n / 10 = 0 := by
        rw [← digitsValue_decimalDigits (n / 10), front, alone rfl]
        rfl
      omega

/-- The digits of a number below a hundred, two of them. -/
def pairDigits (n : ℕ) : List Char := padLeft '0' 2 (decimalDigits n)

theorem isDigit_pairDigits (n : ℕ) : ∀ c ∈ pairDigits n, c.isDigit = true :=
  isDigit_padLeft 2 n

theorem digitsValue_pairDigits (n : ℕ) : Numeral.digitsValue (pairDigits n) = n :=
  FixedDecimal.digitsValue_padLeft 2 n

theorem length_pairDigits (small : n < 100) : (pairDigits n).length = 2 := by
  have few : (decimalDigits n).length ≤ 2 :=
    (Nat.length_toDigits_le_iff (by decide) (by decide)).2 small
  rw [pairDigits, length_padLeft]
  omega

/-- Fields of digits are read as they are written. -/
theorem durationFields_intercalate {fields : List (List Char)} (some : fields ≠ [])
    (digits : ∀ field ∈ fields, ∀ c ∈ field, c.isDigit = true) :
    durationFields (String.ofList ([':'].intercalate fields)) = fields := by
  rw [durationFields, String.toList_ofList]
  refine List.splitOn_intercalate ':' ?_ some
  intro field mem colon
  exact absurd (digits field mem ':' colon) (by decide)

end Fields

/-! ### The text of a number of seconds -/

/-- The fields of a number of seconds. -/
def secondsFields (total : ℕ) : List (List Char) :=
  if total / 3600 = 0 then [decimalDigits (total / 60), pairDigits (total % 60)]
  else [decimalDigits (total / 3600), pairDigits (total % 3600 / 60), pairDigits (total % 60)]

theorem isDigit_fields (front : ℕ) (pairs : List ℕ) :
    ∀ field ∈ decimalDigits front :: pairs.map pairDigits, ∀ c ∈ field, c.isDigit = true := by
  rw [List.forall_mem_cons, List.forall_mem_map]
  exact ⟨isDigit_decimalDigits front, fun n _ => isDigit_pairDigits n⟩

theorem isDigit_secondsFields (total : ℕ) :
    ∀ field ∈ secondsFields total, ∀ c ∈ field, c.isDigit = true := by
  unfold secondsFields
  split
  · exact isDigit_fields (total / 60) [total % 60]
  · exact isDigit_fields (total / 3600) [total % 3600 / 60, total % 60]

/-- The text of a number of seconds is its fields with colons between them. -/
theorem formatSeconds_eq (total : ℕ) :
    formatSeconds total = String.ofList ([':'].intercalate (secondsFields total)) := by
  unfold formatSeconds secondsFields
  dsimp only
  split
  case isTrue below =>
    have minutes : total % 3600 / 60 = total / 60 := by omega
    rw [minutes]
    simp [twoDigits, pairDigits, List.intercalate]
  case isFalse => simp [String.ext_iff, twoDigits, pairDigits, List.intercalate]

theorem durationFields_formatSeconds (total : ℕ) :
    durationFields (formatSeconds total) = secondsFields total := by
  have some : secondsFields total ≠ [] := by
    unfold secondsFields
    split <;> exact List.cons_ne_nil _ _
  rw [formatSeconds_eq, durationFields_intercalate some (isDigit_secondsFields total)]

/-- A number and pairs of digits show what they stand for. -/
theorem showsSeconds_of_fields {text : String} {total front : ℕ} (pairs : List ℕ)
    (fields : durationFields text = decimalDigits front :: pairs.map pairDigits)
    (small : ∀ n ∈ pairs, n < 60) (reads : pairs.foldl (fun n pair => 60 * n + pair) front = total)
    (count : pairs.length = if 3600 ≤ total then 2 else 1) : ShowsSeconds text total where
  digits := fields ▸ isDigit_fields front pairs
  reads := by
    simpa [fields, sexagesimal, List.foldl_map, digitsValue_decimalDigits,
      digitsValue_pairDigits] using reads
  count := by
    rw [fields, List.length_cons, List.length_map, count]
    split <;> rfl
  later := by
    rw [fields, List.tail_cons, List.forall_mem_map]
    intro n mem
    have few := small n mem
    exact ⟨length_pairDigits (by omega), by rwa [digitsValue_pairDigits]⟩
  first := by
    obtain ⟨c, rest, head, alone⟩ := decimalDigits_head front
    exact ⟨c, rest, by rw [fields, head]; rfl, alone⟩

/-- The text of a number of seconds shows it. -/
theorem showsSeconds_formatSeconds (total : ℕ) : ShowsSeconds (formatSeconds total) total := by
  have shape := durationFields_formatSeconds total
  unfold secondsFields at shape
  split at shape
  case isTrue below =>
    refine showsSeconds_of_fields [total % 60] shape ?_ ?_ ?_
    · simp [Nat.mod_lt]
    · simp only [List.foldl_cons, List.foldl_nil]
      omega
    · rw [if_neg (by omega), List.length_singleton]
  case isFalse reached =>
    refine showsSeconds_of_fields [total % 3600 / 60, total % 60] shape ?_ ?_ ?_
    · simp only [List.forall_mem_cons, List.not_mem_nil, false_imp_iff, implies_true, and_true]
      omega
    · simp only [List.foldl_cons, List.foldl_nil]
      omega
    · rw [if_pos (by omega)]
      rfl

/-! ### Values as seconds -/

/-- The whole number next to `x` on the side of zero. -/
def towardsZero (x : ℚ) : ℤ := if 0 ≤ x then ⌊x⌋ else ⌈x⌉

theorem towardsZero_intCast (n : ℤ) : towardsZero n = n := by
  unfold towardsZero
  rw [Int.floor_intCast, Int.ceil_intCast, ite_self]

/-- The fraction of a count of units is dropped. -/
theorem towardsZero_units (sign : Bool) (units : ℕ) :
    towardsZero (Binary64.signedUnits sign units / Binary64.unitsPerOne) =
      Binary64.signedUnits sign (units / Binary64.unitsPerOne) := by
  have whole : ⌊(units / Binary64.unitsPerOne : ℚ)⌋ = (units / Binary64.unitsPerOne : ℕ) := by
    rw [Rat.floor_natCast_div_natCast]
    rfl
  have nonneg : (0 : ℚ) ≤ units / Binary64.unitsPerOne := by positivity
  unfold towardsZero Binary64.signedUnits
  cases sign with
  | false =>
    simp only [Bool.false_eq_true, ↓reduceIte, Int.cast_natCast]
    rw [if_pos nonneg, whole]
  | true =>
    simp only [↓reduceIte, Int.cast_neg, Int.cast_natCast, neg_div]
    rw [Int.ceil_neg, whole]
    split
    case isTrue zero =>
      have none : (units / Binary64.unitsPerOne : ℚ) = 0 := by linarith
      rw [none] at whole ⊢
      rw [← whole]
      simp
    case isFalse => rfl

/-- A finite value is a whole number or a count of units. -/
theorem Quantity.of_value_finite {q : Quantity} {x : ℚ} (number : q.IsNumber)
    (value : q.value = finite x) : (∃ n : ℤ, q = .whole n ∧ x = n) ∨
      ∃ sign units, q = .real (.finite sign units) ∧
        x = Binary64.signedUnits sign units / Binary64.unitsPerOne := by
  cases q with
  | whole n => exact .inl ⟨n, rfl, (finite_injective value).symm⟩
  | real y =>
    cases y with
    | finite sign units => exact .inr ⟨sign, units, rfl, (finite_injective value).symm⟩
    | infinite sign =>
      cases sign with
      | false => exact absurd value (finite_lt_top x).ne'
      | true => exact absurd value (bot_lt_finite x).ne
    | notANumber => exact absurd rfl number

/-- A value is a finite number of seconds, within the range of binary64 numbers. -/
def IsSeconds (v : Value) (x : ℚ) : Prop :=
  ∃ q, v.quantity? = some q ∧ q.IsNumber ∧ q.value = Quantity.finite x ∧ |x| ≤ Binary64.greatest

/-- Such a value can be taken as a binary64 number, and truncation drops its fraction. -/
theorem IsSeconds.number {v : Value} {x : ℚ} (seconds : IsSeconds v x) :
    v ≠ .null ∧ (∃ y, v.real = .ok y ∧ y.isFinite = true) ∧
      v.quantity?.bind Quantity.truncate? = some (towardsZero x) := by
  obtain ⟨q, quantity, number, value, range⟩ := seconds
  have given : v ≠ .null := by
    rintro rfl
    exact absurd quantity (by simp [Value.quantity?])
  refine ⟨given, ?_, ?_⟩
  · rcases Quantity.of_value_finite number value with ⟨n, rfl, rfl⟩ | ⟨sign, units, rfl, rfl⟩
    · have small : n.natAbs ≤ Binary64.greatest := by
        rw [← Int.cast_abs, Int.abs_eq_natAbs] at range
        exact_mod_cast range
      obtain ⟨units, rounded⟩ := Binary64.ofInt?_of_le small
      exact ⟨_, Value.real_of_quantity quantity rounded, rfl⟩
    · exact ⟨_, Value.real_of_quantity quantity rfl, rfl⟩
  · rw [quantity, Option.bind_some]
    rcases Quantity.of_value_finite number value with ⟨n, rfl, rfl⟩ | ⟨sign, units, rfl, rfl⟩
    · rw [towardsZero_intCast]
      rfl
    · rw [towardsZero_units]
      rfl

/-- The text of a number of seconds is that of its whole seconds; what is negative counts as
zero. -/
theorem formatDuration_of_isSeconds {v : Value} {x : ℚ} (seconds : IsSeconds v x) :
    formatDuration v = .ok (formatSeconds (max 0 (towardsZero x)).toNat) := by
  obtain ⟨given, ⟨y, real, finite⟩, truncated⟩ := seconds.number
  have total : (max 0 (towardsZero x)).toNat = (towardsZero x).toNat := by omega
  unfold formatDuration
  split
  · exact absurd rfl given
  · rw [real]
    dsimp only
    rw [if_pos finite, truncated, total]

/-! ### Reading durations back -/

/-- The text of a finite number of seconds shows its whole seconds, none if it is negative, in
minutes and seconds or in hours, minutes and seconds. Two such numbers have the same text exactly
if they have the same whole seconds. -/
theorem duration_text_reads_back {v w : Value} {x y : ℚ} (seconds : IsSeconds v x)
    (seconds' : IsSeconds w y) :
    (∃ text, formatDuration v = .ok text ∧ ShowsSeconds text (max 0 (towardsZero x)).toNat) ∧
      (formatDuration v = formatDuration w ↔ max 0 (towardsZero x) = max 0 (towardsZero y)) := by
  rw [formatDuration_of_isSeconds seconds, formatDuration_of_isSeconds seconds']
  have shows := showsSeconds_formatSeconds (max 0 (towardsZero x)).toNat
  have shows' := showsSeconds_formatSeconds (max 0 (towardsZero y)).toNat
  refine ⟨⟨_, rfl, shows⟩, ?_, ?_⟩
  · intro same
    have text := Except.ok.inj same
    have count : (max 0 (towardsZero x)).toNat = (max 0 (towardsZero y)).toNat := by
      rw [← shows.reads, ← shows'.reads, text]
    omega
  · intro same
    rw [same]

/-- Whole numbers of 53 bits are numbers of seconds. -/
theorem isSeconds_natCast {n : ℕ} (small : n < 2 ^ 53) : IsSeconds (.int n) n := by
  refine ⟨_, rfl, Quantity.noConfusion, rfl, ?_⟩
  rw [Nat.abs_cast]
  exact_mod_cast Binary64.le_greatest small

/-- So are their halves. -/
theorem isSeconds_half {n : ℕ} (small : n < 2 ^ 53) :
    IsSeconds (.number (.real (.finite false (n * (Binary64.unitsPerOne / 2))))) (n / 2) := by
  have even : 2 ∣ Binary64.unitsPerOne := by
    rw [Binary64.unitsPerOne_eq]
    exact dvd_pow_self 2 (by decide)
  have value : (n * (Binary64.unitsPerOne / 2) : ℕ) / Binary64.unitsPerOne = (n / 2 : ℚ) := by
    rw [Nat.cast_mul, Nat.cast_div even two_ne_zero, Nat.cast_two, mul_div_assoc, div_right_comm,
      div_self Binary64.unitsPerOne_pos.ne', mul_one_div]
  refine ⟨_, rfl, by simp [Quantity.IsNumber], congrArg Quantity.finite value, ?_⟩
  have half : (n / 2 : ℚ) ≤ n := half_le_self (Nat.cast_nonneg n)
  rw [abs_of_nonneg (by positivity)]
  exact half.trans (mod_cast Binary64.le_greatest small)

/-- The last half second before an hour does not count. -/
theorem duration_text_reads_back_before_hour :
    IsSeconds (.number (.real (.finite false (7199 * (Binary64.unitsPerOne / 2)))))
        ((7199 : ℕ) / 2) ∧
      IsSeconds (.int (3599 : ℕ)) (3599 : ℕ) ∧
      formatDuration (.number (.real (.finite false (7199 * (Binary64.unitsPerOne / 2))))) =
        .ok "59:59" ∧
      ShowsSeconds "59:59" 3599 ∧
      formatDuration (.number (.real (.finite false (7199 * (Binary64.unitsPerOne / 2))))) =
        formatDuration (.int (3599 : ℕ)) := by
  have fraction := isSeconds_half (n := 7199) (by decide)
  have whole := isSeconds_natCast (n := 3599) (by decide)
  have dropped : towardsZero ((7199 : ℕ) / 2) = 3599 := by norm_num [towardsZero]
  have kept : towardsZero (3599 : ℕ) = 3599 := by norm_num [towardsZero]
  obtain ⟨⟨text, written, shows⟩, same⟩ := duration_text_reads_back fraction whole
  have written' : formatDuration (.number (.real (.finite false
      (7199 * (Binary64.unitsPerOne / 2))))) = .ok "59:59" := by decide +kernel
  rw [dropped, kept] at same
  obtain rfl : text = "59:59" := Except.ok.inj (written.symm.trans written')
  rw [dropped] at shows
  exact ⟨fraction, whole, written', shows, same.2 rfl⟩

-- An hour, two minutes and five seconds.
example : formatDuration (.int 3725) = .ok "1:02:05" := by decide +kernel

end VideoCatalog
