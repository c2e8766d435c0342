import Mathlib.Data.List.Basic
import VideoCatalog.Number.Numeral

/-!
# Plain numerals are read

Digits of any script, with a fraction if there is one, are always read as a number.

* `Numeral.Plain`: digits, or digits with a point and more digits.
* `Numeral.scriptValue`: the number that digits of any script stand for.
* `Numeral.real_whole`, `Numeral.real_fraction`: what such numerals are read as.
* `Binary64.Counts`: numbers from zero on; `Numeral.Plain.read` says that numerals give no others.
-/

namespace VideoCatalog

namespace Text

variable {p : Char → Bool}

/-- A longest start with some property, and what follows it. -/
theorem takeWhile_dropWhile_append {front : List Char} (inside : ∀ c ∈ front, p c = true)
    (rest : List Char) (stops : ∀ c ∈ rest.head?, p c = false) :
    (front ++ rest).takeWhile p = front ∧ (front ++ rest).dropWhile p = rest := by
  induction front with
  | nil =>
    cases rest with
    | nil => exact ⟨rfl, rfl⟩
    | cons c rest => simp [stops c rfl]
  | cons c front ih =>
    obtain ⟨first, others⟩ := List.forall_mem_cons.1 inside
    obtain ⟨taken, left⟩ := ih others
    simp [first, taken, left]

/-- Nothing is taken off a list that has no such characters. -/
theorem trimBoth_eq_self {text : List Char} (clear : ∀ c ∈ text, p c = false) :
    trimBoth p text = text := by
  have kept {cs : List Char} (clear : ∀ c ∈ cs, p c = false) : cs.dropWhile p = cs := by
    cases cs with
    | nil => rfl
    | cons c cs => simp [clear c List.mem_cons_self]
  have clear' : ∀ c ∈ text.reverse, p c = false := fun c mem => clear c (List.mem_reverse.1 mem)
  rw [trimBoth, kept clear, kept clear', List.reverse_reverse]

/-- Digits stand apart from blanks, and only the first ten of them are in ASCII. -/
theorem digitZeros_apart : ∀ z ∈ digitZeros,
    (z < 0x7f → z = 0x30) ∧ ∀ r ∈ blankRanges, r.2 < z ∨ z + 10 ≤ r.1 := by
  decide

end Text

namespace Binary64

variable {x y : Binary64}

/-- A number from zero on, maybe an infinite one. -/
def Counts (x : Binary64) : Prop := (∃ units, x = .finite false units) ∨ x = .infinite false

theorem Counts.ne_notANumber (counts : x.Counts) : x ≠ .notANumber := by
  rcases counts with ⟨units, rfl⟩ | rfl <;> simp

theorem counts_ofUnits (n d : Nat) : (ofUnits false n d).Counts := by
  unfold ofUnits
  dsimp only
  split
  · exact .inl ⟨_, rfl⟩
  · exact .inr rfl

theorem counts_ofDecimal (digits : Nat) (exponent : Int) :
    (ofDecimal false digits exponent).Counts := by
  unfold ofDecimal
  dsimp only
  split
  · exact .inl ⟨0, rfl⟩
  · split
    · exact .inr rfl
    · split
      · exact .inl ⟨0, rfl⟩
      · exact counts_ofUnits _ _

/-- So is its product with a finite one that is not zero. -/
theorem Counts.mul (counts : x.Counts) {v : Nat} (some : v ≠ 0) :
    (x.mul (.finite false v)).Counts := by
  rcases counts with ⟨units, rfl⟩ | rfl
  · rw [Binary64.mul, bne_self_eq_false]
    exact counts_ofUnits _ _
  · rw [Binary64.mul, if_neg some]
    exact .inr rfl

end Binary64

namespace Numeral

/-! ### Digits in ASCII form -/

/-- A digit becomes the ASCII digit of its value. -/
theorem asciiForm_of_digitValue? {c : Char} {v : Nat} (digit : Text.digitValue? c = some v) :
    asciiForm c = Char.ofNat ('0'.toNat + v) := by
  obtain ⟨z, found, rfl⟩ := Option.map_eq_some_iff.1 digit
  obtain ⟨first, apart⟩ := Text.digitZeros_apart z (List.mem_of_find?_eq_some found)
  obtain ⟨lower, upper⟩ : z ≤ c.toNat ∧ c.toNat < z + 10 := by simpa using List.find?_some found
  unfold asciiForm
  by_cases ascii : c.toNat < 0x7f
  · obtain rfl := first (Nat.lt_of_le_of_lt lower ascii)
    have same : '0'.toNat + (c.toNat - 0x30) = c.toNat := Nat.add_sub_cancel' lower
    rw [if_pos ascii, same, Char.ofNat_toNat]
  · have solid : Text.isBlank c = false := by
      refine List.any_eq_false.2 fun r mem => ?_
      rcases apart r mem with before | after <;> simp <;> omega
    rw [if_neg ascii, if_neg (by simp [solid]), digit]

/-- What is needed of ASCII digits. -/
theorem asciiDigit : ∀ v < 10,
    (Char.ofNat ('0'.toNat + v)).isDigit = true ∧
      (Char.ofNat ('0'.toNat + v)).toNat - '0'.toNat = v ∧
      isBlank (Char.ofNat ('0'.toNat + v)) = false ∧
      Char.ofNat ('0'.toNat + v) ≠ '_' ∧ Char.ofNat ('0'.toNat + v) ≠ '-' ∧
      Char.ofNat ('0'.toNat + v) ≠ '+' ∧
      (Char.ofNat ('0'.toNat + v)).toLower ≠ 'i' ∧ (Char.ofNat ('0'.toNat + v)).toLower ≠ 'n' := by
  decide

theorem asciiForm_digit {c : Char} (digit : Text.isDigit c = true) :
    ∃ v < 10, Text.digitValue? c = some v ∧ asciiForm c = Char.ofNat ('0'.toNat + v) := by
  obtain ⟨v, value⟩ := Option.isSome_iff_exists.1 digit
  exact ⟨v, Text.digitValue?_lt value, value, asciiForm_of_digitValue? value⟩

theorem isDigit_asciiForm {digits : List Char} (all : ∀ c ∈ digits, Text.isDigit c = true) :
    ∀ c ∈ digits.map asciiForm, c.isDigit = true := by
  intro c mem
  obtain ⟨d, among, rfl⟩ := List.mem_map.1 mem
  obtain ⟨v, small, -, ascii⟩ := asciiForm_digit (all d among)
  rw [ascii]
  exact (asciiDigit v small).1

/-- The number that digits of any script stand for. -/
def scriptValue (digits : List Char) : Nat :=
  digits.foldl (fun n c => 10 * n + (Text.digitValue? c).getD 0) 0

theorem digitsValue_asciiForm {digits : List Char} (all : ∀ c ∈ digits, Text.isDigit c = true) :
    digitsValue (digits.map asciiForm) = scriptValue digits := by
  have step (n : Nat) : (digits.map asciiForm).foldl (fun n c => 10 * n + (c.toNat - '0'.toNat)) n =
      digits.foldl (fun n c => 10 * n + (Text.digitValue? c).getD 0) n := by
    induction digits generalizing n with
    | nil => rfl
    | cons c rest ih =>
      obtain ⟨v, small, value, ascii⟩ := asciiForm_digit (all c List.mem_cons_self)
      rw [List.map_cons, List.foldl_cons, List.foldl_cons, ascii, (asciiDigit v small).2.1, value]
      exact ih (fun d mem => all d (List.mem_cons_of_mem c mem)) _
  exact step 0

/-! ### Plain numerals -/

/-- Digits, or digits with a point and more digits. -/
inductive Plain : List Char → Prop
  | whole {digits : List Char} (some : digits ≠ [])
      (all : ∀ c ∈ digits, Text.isDigit c = true) : Plain digits
  | fraction {whole fraction : List Char} (some : whole ≠ []) (more : fraction ≠ [])
      (all : ∀ c ∈ whole, Text.isDigit c = true)
      (all' : ∀ c ∈ fraction, Text.isDigit c = true) : Plain (whole ++ '.' :: fraction)

/-- A plain numeral starts with a digit. -/
theorem Plain.head {numeral : List Char} (plain : Plain numeral) :
    ∃ c rest, numeral = c :: rest ∧ Text.isDigit c = true := by
  cases plain with
  | whole some all =>
    obtain ⟨c, rest, rfl⟩ := List.exists_cons_of_ne_nil some
    exact ⟨c, rest, rfl, all c List.mem_cons_self⟩
  | fraction some more all all' =>
    obtain ⟨c, rest, rfl⟩ := List.exists_cons_of_ne_nil some
    exact ⟨c, _, rfl, all c List.mem_cons_self⟩

/-- All of its characters are digits or points. -/
theorem Plain.mem {numeral : List Char} (plain : Plain numeral) {c : Char} (mem : c ∈ numeral) :
    Text.isDigit c = true ∨ c = '.' := by
  cases plain with
  | whole some all => exact .inl (all c mem)
  | fraction some more all all' =>
    rcases List.mem_append.1 mem with mem | mem
    · exact .inl (all c mem)
    · rcases List.mem_cons.1 mem with rfl | mem
      · exact .inr rfl
      · exact .inl (all' c mem)

/-- Nothing is dropped from a text without underscores. -/
theorem dropUnderscores_eq {text : List Char} (clear : '_' ∉ text) (afterDigit : Bool) :
    dropUnderscores afterDigit text = some text := by
  induction text generalizing afterDigit with
  | nil => rfl
  | cons c rest ih =>
    have ne : c ≠ '_' := fun same => clear (same ▸ List.mem_cons_self)
    rw [dropUnderscores, if_neg ne, ih fun mem => clear (List.mem_cons_of_mem c mem)]
    rfl

/-- A text that starts otherwise is no name. -/
theorem named?_eq_none {c : Char} {rest : List Char} (negative : Bool)
    (letter : c.toLower ≠ 'i') (letter' : c.toLower ≠ 'n') :
    named? negative (c :: rest) = none := by
  have differs {name : String} {d : Char} (start : name.toList.head? = some d)
      (ne : c.toLower ≠ d) : String.ofList ((c :: rest).map Char.toLower) ≠ name := by
    rintro rfl
    rw [String.toList_ofList] at start
    exact ne (Option.some.inj start)
  unfold named?
  dsimp only
  rw [if_neg, if_neg (differs (d := 'n') rfl letter')]
  rintro (same | same)
  · exact differs (d := 'i') rfl letter same
  · exact differs (d := 'i') rfl letter same

/-- In a plain numeral there are no blanks, no underscores, no sign and no name. -/
theorem real_eq_decimal? {numeral : List Char} (plain : Plain numeral) {x : Binary64}
    (decimal : decimal? false (numeral.map asciiForm) = some x) :
    real (String.ofList numeral) = .ok x := by
  have forms : ∀ c ∈ numeral.map asciiForm, isBlank c = false ∧ c ≠ '_' := by
    intro c mem
    obtain ⟨d, among, rfl⟩ := List.mem_map.1 mem
    rcases plain.mem among with digit | rfl
    · obtain ⟨v, small, -, ascii⟩ := asciiForm_digit digit
      obtain ⟨-, -, solid, proper, -⟩ := asciiDigit v small
      exact ascii ▸ ⟨solid, proper⟩
    · exact ⟨by decide, by decide⟩
  have normal : normalize (String.ofList numeral).toList = numeral.map asciiForm := by
    rw [String.toList_ofList]
    exact Text.trimBoth_eq_self fun c mem => (forms c mem).1
  have solid : dropUnderscores false (numeral.map asciiForm) = some (numeral.map asciiForm) :=
    dropUnderscores_eq (fun mem => (forms _ mem).2 rfl) false
  obtain ⟨c, rest, rfl, digit⟩ := plain.head
  obtain ⟨v, small, -, ascii⟩ := asciiForm_digit digit
  obtain ⟨-, -, -, -, minus, plus, letter, letter'⟩ := asciiDigit v small
  rw [← ascii] at minus plus letter letter'
  have unsigned : splitSign ((c :: rest).map asciiForm) = (false, (c :: rest).map asciiForm) := by
    rw [List.map_cons, splitSign.eq_3]
    · exact fun _ same => minus (List.cons.inj same).1
    · exact fun _ same => plus (List.cons.inj same).1
  have nameless : named? false ((c :: rest).map asciiForm) = none :=
    named?_eq_none false letter letter'
  unfold real
  simp only [normal, solid, unsigned, nameless, decimal, Option.orElse_none]

/-! ### What they are read as -/

section Read

variable {whole fraction : List Char} (all : ∀ c ∈ whole, Text.isDigit c = true)
include all

/-- Digits are read as the number nearest to what they stand for. -/
theorem real_whole (some : whole ≠ []) :
    real (String.ofList whole) = .ok (Binary64.ofDecimal false (scriptValue whole) 0) := by
  refine real_eq_decimal? (.whole some all) ?_
  obtain ⟨taken, left⟩ :=
    Text.takeWhile_dropWhile_append (isDigit_asciiForm all) [] (by simp)
  rw [List.append_nil] at taken left
  have digits : (whole.map asciiForm).isEmpty = false := by simpa using some
  simp [decimal?, taken, left, digits, exponent?, digitsValue_asciiForm all]

/-- With a fraction, the point tells the power of ten. -/
theorem real_fraction (some : whole ≠ []) (more : fraction ≠ [])
    (all' : ∀ c ∈ fraction, Text.isDigit c = true) :
    real (String.ofList (whole ++ '.' :: fraction)) =
      .ok (Binary64.ofDecimal false (scriptValue (whole ++ fraction)) (-fraction.length)) := by
  refine real_eq_decimal? (.fraction some more all all') ?_
  have both : ∀ c ∈ whole ++ fraction, Text.isDigit c = true := fun c mem =>
    (List.mem_append.1 mem).elim (all c) (all' c)
  obtain ⟨taken, left⟩ :=
    Text.takeWhile_dropWhile_append (isDigit_asciiForm all) ('.' :: fraction.map asciiForm)
      (by simp)
  obtain ⟨taken', left'⟩ :=
    Text.takeWhile_dropWhile_append (isDigit_asciiForm all') [] (by simp)
  rw [List.append_nil] at taken' left'
  have form : (whole ++ '.' :: fraction).map asciiForm =
      whole.map asciiForm ++ '.' :: fraction.map asciiForm := by
    rw [List.map_append, List.map_cons]
    rfl
  have digits : (whole.map asciiForm).isEmpty = false := by simpa using some
  rw [form]
  simp only [decimal?, taken, left, taken', left', digits, Bool.false_and, exponent?,
    Option.map_some]
  rw [← List.map_append, digitsValue_asciiForm both]
  simp

end Read

/-- Plain numerals are read, as numbers from zero on. -/
theorem Plain.read {numeral : List Char} (plain : Plain numeral) :
    ∃ x, real (String.ofList numeral) = .ok x ∧ x.Counts := by
  cases plain with
  | whole some all => exact ⟨_, real_whole all some, Binary64.counts_ofDecimal _ _⟩
  | fraction some more all all' =>
    exact ⟨_, real_fraction all some more all', Binary64.counts_ofDecimal _ _⟩

end Numeral

end VideoCatalog
