import VideoCatalog.Number.Binary64

/-!
# Numbers with a fixed count of decimal places

* `fixedDigits places n d`: the decimal text of `n / d`, rounded to `places` decimals.
* `Binary64.fixed places x`: the same of a binary64 number, with its sign.
* `head_fixedDigits`: the text starts with a digit.
-/

namespace VideoCatalog

/-- Pads a text on the left with a character up to a width. -/
def padLeft (fill : Char) (width : Nat) (text : List Char) : List Char :=
  List.replicate (width - text.length) fill ++ text

/-- The decimal text of the quotient `n / d` with the given number of places. The value is
rounded to nearest, a half to the even last digit. -/
def fixedDigits (places n d : Nat) : List Char :=
  let digits := padLeft '0' (places + 1) (decimalDigits (roundHalfEven (n * Nat.pow 10 places) d))
  let whole := digits.take (digits.length - places)
  if places = 0 then whole else whole ++ '.' :: digits.drop (digits.length - places)

/-- The text of a number with a fixed number of places. -/
def Binary64.fixed (places : Nat) : Binary64 → String
  | .finite s u =>
    String.ofList ((if s then ['-'] else []) ++ fixedDigits places u unitsPerOne)
  | .infinite s => if s then "-inf" else "inf"
  | .notANumber => "nan"

/-- Padding reaches the width. -/
theorem length_padLeft (fill : Char) (width : Nat) (text : List Char) :
    (padLeft fill width text).length = max width text.length := by
  simp [padLeft]; omega

/-- Digits stay digits when they are padded with zeros. -/
theorem isDigit_padLeft (width n : Nat) :
    ∀ c ∈ padLeft '0' width (decimalDigits n), c.isDigit = true := by
  intro c mem
  rw [padLeft, List.mem_append] at mem
  rcases mem with filled | written
  · rw [List.eq_of_mem_replicate filled]
    rfl
  · exact Nat.isDigit_of_mem_toDigits (by decide) (by decide) written

/-- The text starts with a digit. -/
theorem head_fixedDigits (places n d : Nat) :
    ∃ c rest, fixedDigits places n d = c :: rest ∧ c.isDigit = true := by
  have digit := isDigit_padLeft (places + 1) (roundHalfEven (n * Nat.pow 10 places) d)
  have long := length_padLeft '0' (places + 1)
    (decimalDigits (roundHalfEven (n * Nat.pow 10 places) d))
  unfold fixedDigits
  generalize padLeft '0' (places + 1) _ = text at digit long
  obtain ⟨c, rest, rfl⟩ := List.exists_cons_of_length_pos (l := text) (by omega)
  have whole : (c :: rest).take ((c :: rest).length - places) =
      c :: rest.take ((c :: rest).length - places - 1) :=
    List.take_cons (by omega)
  have isDigit := digit c List.mem_cons_self
  dsimp only
  rw [whole]
  split
  · exact ⟨c, _, rfl, isDigit⟩
  · exact ⟨c, _, rfl, isDigit⟩

end VideoCatalog
