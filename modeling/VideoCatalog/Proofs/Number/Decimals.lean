import Mathlib.Algebra.Order.Field.Rat
import VideoCatalog.Number.Fixed
import VideoCatalog.Proofs.Number.Numerals
import VideoCatalog.Proofs.Number.Rounding
import VideoCatalog.Text.Search

/-!
# Decimals are read back

A text with a fixed count of decimals, read again without any rounding.

* `FixedDecimal`: the digits of a numeral and how many of them stand behind the point.
* `FixedDecimal.read?`: the exact reading of a numeral.
* `FixedDecimal.read?_fixedDigits`: what is read is the rounded quotient that was written.
* `Text.splitAt?_append`: a text is cut at a character that stands nowhere before.
-/

namespace VideoCatalog

namespace Text

variable {sep : Char} {front : List Char}

private theorem unlike (absent : sep ∉ front) : ∀ c ∈ front, (c != sep) = true := by
  intro c mem
  rw [bne_iff_ne]
  rintro rfl
  exact absent mem

/-- A text is cut at a character that stands nowhere before. -/
theorem splitAt?_append (absent : sep ∉ front) (rest : List Char) :
    splitAt? sep (String.ofList (front ++ sep :: rest)) =
      some (String.ofList front, String.ofList rest) := by
  have stops : ∀ c ∈ (sep :: rest).head?, (c != sep) = false := by simp
  obtain ⟨taken, left⟩ := takeWhile_dropWhile_append (unlike absent) (sep :: rest) stops
  simp [splitAt?, taken, left]

/-- Without that character there is no cut. -/
theorem splitAt?_eq_none (absent : sep ∉ front) : splitAt? sep (String.ofList front) = none := by
  simp [splitAt?, absent]

end Text

/-- Only the quotient counts. -/
theorem fixedDigits_scale (places n d : ℕ) {c : ℕ} (positive : 0 < c) :
    fixedDigits places (n * c) (d * c) = fixedDigits places n d := by
  unfold fixedDigits
  rw [Nat.mul_right_comm, roundHalfEven_scale _ _ positive]

/-- There are digits and points only. -/
theorem mem_fixedDigits {places n d : ℕ} {c : Char} (mem : c ∈ fixedDigits places n d) :
    c.isDigit = true ∨ c = '.' := by
  have digit := isDigit_padLeft (places + 1) (roundHalfEven (n * Nat.pow 10 places) d)
  unfold fixedDigits at mem
  dsimp only at mem
  split at mem
  · exact .inl (digit c (List.mem_of_mem_take mem))
  · rcases List.mem_append.1 mem with front | behind
    · exact .inl (digit c (List.mem_of_mem_take front))
    · rcases List.mem_cons.1 behind with rfl | back
      · exact .inr rfl
      · exact .inl (digit c (List.mem_of_mem_drop back))

/-- The digits of a numeral taken together, and how many of them stand behind the point. -/
structure FixedDecimal where
  digits : ℕ
  places : ℕ
deriving DecidableEq, Repr

namespace FixedDecimal

/-- The exact value of a numeral. -/
def value (a : FixedDecimal) : ℚ := a.digits / 10 ^ a.places

/-- Reads digits, or digits with a point and more digits. -/
def read? (text : String) : Option FixedDecimal :=
  let isWhole (piece : String) : Bool := piece.toList ≠ [] ∧ piece.toList.all Char.isDigit
  match Text.splitAt? '.' text with
  | none => if isWhole text then some ⟨Numeral.digitsValue text.toList, 0⟩ else none
  | some (whole, fraction) =>
    if isWhole whole && isWhole fraction then
      some ⟨Numeral.digitsValue (whole.toList ++ fraction.toList), fraction.toList.length⟩
    else none

section Read

variable {whole fraction : List Char} (all : ∀ c ∈ whole, c.isDigit = true)
include all

private theorem pointless : '.' ∉ whole := fun mem => absurd (all '.' mem) (by decide)

theorem read?_whole (some : whole ≠ []) :
    read? (String.ofList whole) = .some ⟨Numeral.digitsValue whole, 0⟩ := by
  unfold read?
  rw [Text.splitAt?_eq_none (pointless all)]
  simpa [some] using all

theorem read?_fraction (some : whole ≠ []) (more : fraction ≠ [])
    (all' : ∀ c ∈ fraction, c.isDigit = true) :
    read? (String.ofList (whole ++ '.' :: fraction)) =
      .some ⟨Numeral.digitsValue (whole ++ fraction), fraction.length⟩ := by
  unfold read?
  rw [Text.splitAt?_append (pointless all)]
  simpa [some, more] using ⟨all, all'⟩

end Read

/-! ### What has been written -/

/-- Zeros on the left do not count, and the digits of a number stand for it. -/
theorem digitsValue_padLeft (width n : ℕ) :
    Numeral.digitsValue (padLeft '0' width (decimalDigits n)) = n := by
  change Nat.ofDigitChars 10 (padLeft '0' width (decimalDigits n)) 0 = n
  rw [padLeft, Nat.ofDigitChars_append, Nat.ofDigitChars_replicate_zero, Nat.mul_zero]
  exact Nat.ofDigitChars_toDigits (by decide) (by decide)

/-- What is read is the rounded quotient that was written. -/
theorem read?_fixedDigits (places n d : ℕ) :
    read? (String.ofList (fixedDigits places n d)) =
      some ⟨roundHalfEven (n * 10 ^ places) d, places⟩ := by
  have long := length_padLeft '0' (places + 1) (decimalDigits (roundHalfEven (n * 10 ^ places) d))
  have digit := isDigit_padLeft (places + 1) (roundHalfEven (n * 10 ^ places) d)
  have value := digitsValue_padLeft (places + 1) (roundHalfEven (n * 10 ^ places) d)
  unfold fixedDigits
  simp only [Nat.pow_eq]
  generalize padLeft '0' (places + 1) _ = text at long digit value ⊢
  have nonempty : text.take (text.length - places) ≠ [] := by
    rw [← List.length_pos_iff, List.length_take]
    omega
  have front : ∀ c ∈ text.take (text.length - places), c.isDigit = true :=
    fun c mem => digit c (List.mem_of_mem_take mem)
  have back : ∀ c ∈ text.drop (text.length - places), c.isDigit = true :=
    fun c mem => digit c (List.mem_of_mem_drop mem)
  rcases Nat.eq_zero_or_pos places with rfl | some
  · rw [if_pos rfl, read?_whole front nonempty]
    simp [value]
  · have behind : (text.drop (text.length - places)).length = places := by
      rw [List.length_drop]
      omega
    have more : text.drop (text.length - places) ≠ [] := by
      rw [← List.length_pos_iff, behind]
      exact some
    rw [if_neg some.ne', read?_fraction front nonempty more back, List.take_append_drop, value,
      behind]

end FixedDecimal

end VideoCatalog
