import Mathlib.Data.List.TakeWhile
import VideoCatalog.Proofs.Number.Numerals
import VideoCatalog.Proofs.Query.Ordering
import VideoCatalog.Proofs.Query.Spelling

/-!
# What a token says of an item

A token without blanks is read by the first of four rules that fits it as a whole: a wanted tag, a
bound on the duration, a bound on the size, or a piece of the name or the path.

* `Unbroken`, `unbroken_of_tokenize`: tokens have no blanks.
* `Comparison.Relates`, `Comparison.HoldsOf`: what the comparisons say of values.
* `Bounded`: the shape of a bound; `Bounded.bound?` and `bounded_of_bound?` say that it is what is
  looked for.
* `Decided`: what the filter of a token says of an item.
* `first_rule_decides`: the filter of every token says that.
-/

namespace VideoCatalog

/-! ### Tokens -/

/-- A token has no blanks. -/
def Unbroken (token : String) : Prop := ∀ c ∈ token.toList, Text.isBlank c = false

theorem Text.not_blank_of_wordsFrom {word text : List Char}
    (begun : ∀ c ∈ word, Text.isBlank c = false) :
    ∀ w ∈ wordsFrom word text, ∀ c ∈ w, Text.isBlank c = false := by
  have ended : ∀ c ∈ word.reverse, Text.isBlank c = false := fun c mem =>
    begun c (List.mem_reverse.1 mem)
  induction text generalizing word with
  | nil =>
    intro w mem
    unfold wordsFrom at mem
    split at mem
    · cases mem
    · exact List.mem_singleton.1 mem ▸ ended
  | cons c rest ih =>
    intro w mem
    unfold wordsFrom at mem
    split at mem
    · split at mem
      · exact ih (by simp) (by simp) w mem
      · rcases List.mem_cons.1 mem with rfl | mem
        · exact ended
        · exact ih (by simp) (by simp) w mem
    · next solid =>
      have longer : ∀ d ∈ c :: word, Text.isBlank d = false :=
        List.forall_mem_cons.2 ⟨by simpa using solid, begun⟩
      exact ih longer (fun d mem => longer d (List.mem_reverse.1 mem)) w mem

theorem unbroken_of_tokenize {query token : String} (mem : token ∈ tokenize query) :
    Unbroken token := by
  obtain ⟨word, among, rfl⟩ := List.mem_map.1 mem
  intro c there
  rw [String.toList_ofList] at there
  exact Text.not_blank_of_wordsFrom (by simp) word among c there

/-! ### Comparisons -/

namespace Comparison

/-- How a comparison is written. -/
def spelling : Comparison → List Char
  | less => ['<']
  | atMost => ['<', '=']
  | same => ['=']
  | more => ['>']
  | atLeast => ['>', '=']

/-- What a comparison says of two values. -/
def Relates (c : Comparison) (x y : WithBot (WithTop ℚ)) : Prop :=
  match c with
  | less => x < y
  | atMost => x ≤ y
  | same => x = y
  | more => y < x
  | atLeast => y ≤ x

/-- What a comparison says of a quantity and a bound, with zero for one that is absent. Nothing is
said of what is not a number. -/
def HoldsOf (c : Comparison) (q : Option Quantity) (bound : Binary64) : Prop :=
  (∀ p, q = some p → p.IsNumber) ∧ c.Relates (SortKey.numberOf q) (Quantity.real bound).value

theorem accepts_compare_iff (c : Comparison) (x y : WithBot (WithTop ℚ)) :
    c.accepts (some (compare x y)) = true ↔ c.Relates x y := by
  rcases lt_trichotomy x y with lt | rfl | gt
  · rw [compare_lt_iff_lt.2 lt]
    cases c <;> simp [accepts, Relates, lt, lt.le, lt.ne, lt.not_gt, lt.not_ge]
  · rw [compare_eq_iff_eq.2 rfl]
    cases c <;> simp [accepts, Relates]
  · rw [compare_gt_iff_gt.2 gt]
    cases c <;> simp [accepts, Relates, gt, gt.le, gt.ne', gt.not_gt, gt.not_ge]

/-- A comparison with a bound that is a number goes by value. -/
theorem holds_iff (c : Comparison) (q : Option Quantity) {bound : Binary64}
    (number : bound ≠ .notANumber) :
    c.holds (Filter.valueOr (.ofQuantity? q) (.int 0)) bound = .ok true ↔ c.HoldsOf q bound := by
  have bounded : (Quantity.real bound).IsNumber := fun same => number (Quantity.real.inj same)
  simp only [Comparison.holds, Filter.quantity?_valueOr, Except.ok.injEq]
  by_cases all : ∀ p, q = some p → p.IsNumber
  · rw [Quantity.compare?_eq_compare (SortKey.isNumber_quantityOf all) bounded,
      accepts_compare_iff, SortKey.value_quantityOf]
    exact ⟨fun related => ⟨all, related⟩, fun holds => holds.2⟩
  · -- The quantity is there, and it is not a number.
    obtain rfl : q = some (.real .notANumber) := by
      by_contra other
      refine all fun p found bad => other (found.trans ?_)
      rw [bad]
    have none : (SortKey.quantityOf (some (.real .notANumber))).compare? (.real bound) = none := rfl
    rw [none]
    simp only [accepts, HoldsOf, all, false_and]
    simp

/-- What stands before something that is no equals sign is read as a comparison. -/
theorem read?_append (c : Comparison) {rest : List Char} (apart : rest.head? ≠ some '=') :
    read? (c.spelling ++ rest) = some (c, rest) := by
  cases c with
  | atMost | atLeast | same => rfl
  | less | more =>
    cases rest with
    | nil => rfl
    | cons d rest =>
      simp only [spelling, List.singleton_append]
      unfold read?
      split <;> simp_all

theorem eq_append_of_read? {text rest : List Char} {c : Comparison}
    (read : read? text = some (c, rest)) : text = c.spelling ++ rest := by
  unfold read? at read
  split at read <;> (cases read; try rfl)

/-- No longer comparison stands before a digit. -/
theorem spelling_longest (c c' : Comparison) {d : Char} {rest : List Char}
    (digit : Text.isDigit d = true) (stands : c'.spelling <+: c.spelling ++ d :: rest) :
    c'.spelling <+: c.spelling := by
  have apart : d ≠ '=' := by
    rintro rfl
    exact absurd digit (by decide)
  cases c <;> cases c' <;> simp [spelling, apart.symm] at stands ⊢

end Comparison

/-! ### Numerals at the start of a text -/

namespace Filter

/-- The longest plain numeral is split off. -/
theorem splitNumeral_append {numeral rest : List Char} (plain : Numeral.Plain numeral)
    (stops : ∀ c ∈ rest.head?, Text.isDigit c = false ∧ c ≠ '.') :
    splitNumeral (numeral ++ rest) = (numeral, rest) := by
  have digits : ∀ c ∈ rest.head?, Text.isDigit c = false := fun c first => (stops c first).1
  cases plain with
  | whole some all =>
    obtain ⟨taken, left⟩ := Text.takeWhile_dropWhile_append all rest digits
    simp only [splitNumeral, taken, left]
    split
    · exact absurd rfl (stops '.' rfl).2
    · rfl
  | @fraction whole fraction some more all all' =>
    obtain ⟨taken, left⟩ :=
      Text.takeWhile_dropWhile_append all ('.' :: (fraction ++ rest)) (by simp; decide)
    obtain ⟨taken', left'⟩ := Text.takeWhile_dropWhile_append all' rest digits
    have both : (whole.isEmpty || fraction.isEmpty) = false := by simp [some, more]
    rw [List.append_assoc, List.cons_append]
    simp only [splitNumeral, taken, left, taken', left', both]
    rfl

/-- What is split off is a plain numeral. -/
theorem plain_of_splitNumeral {text numeral rest : List Char}
    (split : splitNumeral text = (numeral, rest)) (nonempty : numeral ≠ []) :
    Numeral.Plain numeral ∧ text = numeral ++ rest := by
  have digits (text : List Char) : ∀ c ∈ text.takeWhile Text.isDigit, Text.isDigit c = true :=
    fun c mem => List.mem_takeWhile_imp mem
  have parts := List.takeWhile_append_dropWhile (p := Text.isDigit) (l := text)
  unfold splitNumeral at split
  dsimp only at split
  split at split
  · next more left =>
    split at split
    · obtain ⟨rfl, rfl⟩ := Prod.mk.inj split
      exact ⟨.whole nonempty (digits text), parts.symm⟩
    · next both =>
      obtain ⟨rfl, rfl⟩ := Prod.mk.inj split
      obtain ⟨nonempty, nonempty'⟩ :
          text.takeWhile Text.isDigit ≠ [] ∧ more.takeWhile Text.isDigit ≠ [] := by
        simpa using both
      refine ⟨.fraction nonempty nonempty' (digits text) (digits more), ?_⟩
      rw [List.append_assoc, List.cons_append, List.takeWhile_append_dropWhile, ← left, parts]
  · obtain ⟨rfl, rfl⟩ := Prod.mk.inj split
    exact ⟨.whole nonempty (digits text), parts.symm⟩

/-- A plain numeral stands for what it is read as. -/
theorem numeralValue_eq {numeral : List Char} {x : Binary64}
    (read : Numeral.real (String.ofList numeral) = .ok x) : numeralValue numeral = x := by
  rw [numeralValue, read]

end Filter

/-! ### Bounds -/

/-- A token is a word in any case, the longest comparison that stands there, a plain numeral and
what follows. -/
structure Bounded (word token : String) (c : Comparison) (numeral unit : List Char) : Prop where
  plain : Numeral.Plain numeral
  parts : ∃ front, Spells word front ∧ token.toList = front ++ (c.spelling ++ (numeral ++ unit))
  longest : ∀ c' : Comparison, c'.spelling <+: c.spelling ++ (numeral ++ unit) →
    c'.spelling <+: c.spelling

section Bounds

open VideoCatalog.Filter

variable {word token : String} {c : Comparison} {numeral unit : List Char}

/-- A token has no line break to drop. -/
theorem Unbroken.dropFinalNewline (unbroken : Unbroken token) :
    dropFinalNewline token.toList = token.toList := by
  unfold Filter.dropFinalNewline
  split
  · next last =>
    have blank := unbroken '\n' (List.mem_of_getLast? last)
    exact absurd blank (by decide)
  · rfl

theorem Bounded.bound? (bounded : Bounded word token c numeral unit) (unbroken : Unbroken token)
    (letters : ∀ w ∈ word.toList, w ∈ wordLetters)
    (stops : ∀ c ∈ unit.head?, Text.isDigit c = false ∧ c ≠ '.') :
    Filter.bound? word token.toList = some (c, numeral, unit) := by
  obtain ⟨front, spelled, split⟩ := bounded.parts
  have after : afterWord? word.toList token.toList = some (c.spelling ++ (numeral ++ unit)) :=
    (afterWord?_eq_some_iff letters).2 ⟨front, split, spelled⟩
  obtain ⟨d, rest, rfl, digit⟩ := bounded.plain.head
  have apart : (d :: rest ++ unit).head? ≠ some '=' := by
    rintro same
    obtain rfl : d = '=' := Option.some.inj same
    exact absurd digit (by decide)
  simp only [Filter.bound?, unbroken.dropFinalNewline, after, Option.bind_eq_bind, Option.bind_some,
    Comparison.read?_append c apart, splitNumeral_append bounded.plain stops]
  rfl

theorem bounded_of_bound? (unbroken : Unbroken token) (letters : ∀ w ∈ word.toList, w ∈ wordLetters)
    (found : Filter.bound? word token.toList = some (c, numeral, unit)) :
    Bounded word token c numeral unit := by
  unfold Filter.bound? at found
  rw [unbroken.dropFinalNewline] at found
  obtain ⟨rest, after, found⟩ := Option.bind_eq_some_iff.1 found
  obtain ⟨⟨c', rest'⟩, read, found⟩ := Option.bind_eq_some_iff.1 found
  dsimp only at found
  split at found
  · cases found
  · next nonempty =>
    obtain ⟨rfl, numbered⟩ := Prod.mk.inj (Option.some.inj found)
    have numeral_nonempty : numeral ≠ [] := by
      rintro rfl
      exact nonempty (List.isEmpty_iff.2 (Prod.mk.inj numbered).1)
    obtain ⟨plain, rfl⟩ := plain_of_splitNumeral numbered numeral_nonempty
    obtain rfl := Comparison.eq_append_of_read? read
    obtain ⟨front, cut, spelled⟩ := (afterWord?_eq_some_iff letters).1 after
    refine ⟨plain, ⟨front, spelled, cut⟩, fun c' stands => ?_⟩
    obtain ⟨d, rest, rfl, digit⟩ := plain.head
    exact Comparison.spelling_longest _ c' digit stands

/-- The first character of a bound is one of its word. -/
theorem Bounded.first (bounded : Bounded word token c numeral unit) {w : Char}
    (letter : w ∈ word.toList.head?) :
    ∃ d rest, token.toList = d :: rest ∧ Text.SameLetter d w := by
  obtain ⟨front, spelled, split⟩ := bounded.parts
  unfold Spells at spelled
  generalize word.toList = letters at spelled letter
  cases spelled with
  | nil => cases letter
  | cons same others =>
    obtain rfl := Option.some.inj letter
    exact ⟨_, _, split, same⟩

theorem durationBound?_eq_some_iff (unbroken : Unbroken token) {filter : Filter} :
    durationBound? token.toList = some filter ↔ ∃ c numeral, Bounded "dur:" token c numeral [] ∧
      filter = .duration c (numeralValue numeral) := by
  have letters : ∀ w ∈ "dur:".toList, w ∈ wordLetters := by decide
  unfold durationBound?
  constructor
  · intro found
    split at found
    · next c numeral bound =>
      exact ⟨c, numeral, bounded_of_bound? unbroken letters bound, (Option.some.inj found).symm⟩
    · cases found
  · rintro ⟨c, numeral, bounded, rfl⟩
    rw [bounded.bound? unbroken letters (by simp)]

theorem sizeBound?_eq_some_iff (unbroken : Unbroken token) {filter : Filter} :
    sizeBound? token.toList = some filter ↔ ∃ c numeral unit power,
      Bounded "size:" token c numeral unit ∧ unitPower? unit = some power ∧
        filter = .size c ((numeralValue numeral).mul (Binary64.ofNat (Nat.pow 1024 power))) := by
  have letters : ∀ w ∈ "size:".toList, w ∈ wordLetters := by decide
  unfold sizeBound?
  constructor
  · intro found
    split at found
    · next c numeral unit bound =>
      obtain ⟨power, known, rfl⟩ := Option.map_eq_some_iff.1 found
      exact ⟨c, numeral, unit, power, bounded_of_bound? unbroken letters bound, known, rfl⟩
    · cases found
  · rintro ⟨c, numeral, unit, power, bounded, known, rfl⟩
    rw [bounded.bound? unbroken letters (isUnit_of_power known).head]
    exact Option.map_eq_some_iff.2 ⟨power, known, rfl⟩

/-- A mark starts no bound. -/
theorem Bounded.unmarked (bounded : Bounded word token c numeral unit) {w : Char}
    (letter : w ∈ word.toList.head?) (apart : ¬Text.SameLetter '#' w) (wanted : List Char) :
    token.toList ≠ '#' :: wanted := by
  intro marked
  obtain ⟨d, rest, starts, same⟩ := bounded.first letter
  obtain rfl : d = '#' := (List.cons.inj (starts.symm.trans marked)).1
  exact apart same

/-- No character starts both words of bounds. -/
theorem not_both (one : Bounded "dur:" token c numeral unit) {c' : Comparison}
    {numeral' unit' : List Char} : ¬Bounded "size:" token c' numeral' unit' := by
  intro other
  obtain ⟨d, rest, starts, same⟩ := one.first (w := 'd') rfl
  obtain ⟨d', rest', starts', same'⟩ := other.first (w := 's') rfl
  obtain rfl : d = d' := (List.cons.inj (starts.symm.trans starts')).1
  have apart : ∀ d ∈ spellings 'd', d ∉ spellings 's' := by decide
  exact apart d ((mem_spellings_iff (by decide) d).2 same)
    ((mem_spellings_iff (by decide) d).2 same')

end Bounds

namespace Filter

/-- The filter of a token that is marked. -/
theorem ofToken_marked {token : String} {wanted : List Char}
    (marked : token.toList = '#' :: wanted) :
    ofToken token = .tag (Text.lower (String.ofList wanted)) := by
  unfold ofToken
  split
  · next wanted' marked' => rw [(List.cons.inj (marked'.symm.trans marked)).2]
  · next unmarked => exact absurd marked (unmarked wanted)

/-- The filter of a token that is not. -/
theorem ofToken_unmarked {token : String} (unmarked : ∀ wanted, token.toList ≠ '#' :: wanted) :
    ofToken token = ((durationBound? token.toList).or (sizeBound? token.toList)).getD
      (.piece (Text.lower token)) := by
  unfold ofToken
  split
  · next wanted marked => exact absurd marked (unmarked wanted)
  · cases durationBound? token.toList with
    | some filter => rfl
    | none => cases sizeBound? token.toList <;> rfl

/-- The powers of 1024 that units stand for are exact. -/
theorem ofNat_power : ∀ u ∈ units, Binary64.ofNat (Nat.pow 1024 u.2) =
    .finite false (Nat.pow 1024 u.2 * Binary64.unitsPerOne) := by
  decide +kernel

theorem anyTag_iff (wanted : String) (tags : List String) :
    anyTag wanted (tags.map .text) = .ok true ↔
      ∃ tag ∈ tags, wanted.toList <:+: (Text.lower tag).toList := by
  induction tags with
  | nil => simp [anyTag]
  | cons tag rest ih =>
    simp only [List.map_cons, anyTag, Value.asText, List.exists_mem_cons_iff]
    cases found : Text.contains wanted (Text.lower tag) with
    | true => simp [(Text.hasPiece_iff _ _).1 found]
    | false =>
      have missing : ¬wanted.toList <:+: (Text.lower tag).toList := fun piece =>
        Bool.false_ne_true (found.symm.trans ((Text.hasPiece_iff _ _).2 piece))
      simp [missing, ih]

end Filter

/-! ### The rules -/

/-- What the filter of a token says of an item, by the rule that fits the token. -/
structure Decided (token : String) (item : Item) : Prop where
  said : ∃ answer, (Filter.ofToken token).holds item.row = .ok answer
  tag : ∀ wanted, token.toList = '#' :: wanted →
    ((Filter.ofToken token).holds item.row = .ok true ↔
      ∃ tag ∈ item.tags,
        (Text.lower (String.ofList wanted)).toList <:+: (Text.lower tag).toList)
  duration : ∀ c numeral, Bounded "dur:" token c numeral [] →
    ∃ limit, Numeral.real (String.ofList numeral) = .ok limit ∧
      ((Filter.ofToken token).holds item.row = .ok true ↔ c.HoldsOf item.duration limit)
  size : ∀ c numeral unit, Bounded "size:" token c numeral unit → IsUnit unit →
    ∃ limit power, Numeral.real (String.ofList numeral) = .ok limit ∧
      Filter.units.lookup (Text.lower (if unit = [] then "b" else String.ofList unit)) =
        some power ∧
      ((Filter.ofToken token).holds item.row = .ok true ↔
        c.HoldsOf item.size (limit.mul (Binary64.ofNat (Nat.pow 1024 power))))
  piece : (∀ wanted, token.toList ≠ '#' :: wanted) →
    (∀ c numeral, ¬Bounded "dur:" token c numeral []) →
    (∀ c numeral unit, Bounded "size:" token c numeral unit → ¬IsUnit unit) →
    ((Filter.ofToken token).holds item.row = .ok true ↔
      (Text.lower token).toList <:+: (Text.lower item.name).toList ∨
        (Text.lower token).toList <:+: (Text.lower item.relativePath).toList)

section Rules

open VideoCatalog.Filter

variable {token : String} {c : Comparison} {numeral unit : List Char}

theorem ofToken_duration (unbroken : Unbroken token) (bounded : Bounded "dur:" token c numeral []) :
    ofToken token = .duration c (numeralValue numeral) := by
  have found := (durationBound?_eq_some_iff unbroken).2 ⟨c, numeral, bounded, rfl⟩
  rw [ofToken_unmarked (bounded.unmarked (w := 'd') rfl (by decide)), found]
  rfl

theorem ofToken_size (unbroken : Unbroken token) (bounded : Bounded "size:" token c numeral unit)
    {power : Nat} (known : unitPower? unit = some power) :
    ofToken token =
      .size c ((numeralValue numeral).mul (Binary64.ofNat (Nat.pow 1024 power))) := by
  have missing : durationBound? token.toList = none := by
    refine Option.eq_none_iff_forall_ne_some.2 fun filter found => ?_
    obtain ⟨c', numeral', other, -⟩ := (durationBound?_eq_some_iff unbroken).1 found
    exact not_both other bounded
  have found := (sizeBound?_eq_some_iff unbroken).2 ⟨c, numeral, unit, power, bounded, known, rfl⟩
  rw [ofToken_unmarked (bounded.unmarked (w := 's') rfl (by decide)), missing, found]
  rfl

theorem ofToken_piece (unbroken : Unbroken token)
    (unmarked : ∀ wanted, token.toList ≠ '#' :: wanted)
    (noDuration : ∀ c numeral, ¬Bounded "dur:" token c numeral [])
    (noSize : ∀ c numeral unit, Bounded "size:" token c numeral unit → ¬IsUnit unit) :
    ofToken token = .piece (Text.lower token) := by
  have missing : durationBound? token.toList = none := by
    refine Option.eq_none_iff_forall_ne_some.2 fun filter found => ?_
    obtain ⟨c, numeral, bounded, -⟩ := (durationBound?_eq_some_iff unbroken).1 found
    exact noDuration c numeral bounded
  have missing' : sizeBound? token.toList = none := by
    refine Option.eq_none_iff_forall_ne_some.2 fun filter found => ?_
    obtain ⟨c, numeral, unit, power, bounded, known, -⟩ := (sizeBound?_eq_some_iff unbroken).1 found
    exact noSize c numeral unit bounded (isUnit_of_power known)
  rw [ofToken_unmarked unmarked, missing, missing']
  rfl

example : ["dur:>>5", "size:<1xb", "dur:5.", "size:>1.5.2mb"].map ofToken =
    ["dur:>>5", "size:<1xb", "dur:5.", "size:>1.5.2mb"].map .piece := by
  decide +kernel

/-- The limit of a size is a number. -/
theorem limit_ne_notANumber {limit : Binary64} (counts : limit.Counts) {power : Nat}
    (known : unitPower? unit = some power) :
    limit.mul (Binary64.ofNat (Nat.pow 1024 power)) ≠ .notANumber := by
  obtain ⟨u, among, rfl⟩ := mem_units_of_power known
  rw [ofNat_power u among]
  refine (counts.mul (Nat.mul_ne_zero ?_ ?_)).ne_notANumber
  · exact (Nat.pow_pos (by decide)).ne'
  · exact fun zero => Binary64.unitsPerOne_pos.ne' (by rw [zero, Nat.cast_zero])

theorem holds_piece_iff (needle : String) (item : Item) :
    (Filter.piece needle).holds item.row = .ok true ↔
      needle.toList <:+: (Text.lower item.name).toList ∨
        needle.toList <:+: (Text.lower item.relativePath).toList := by
  simp only [holds, Item.row, Value.asText, Except.map]
  rw [← Text.hasPiece_iff, ← Text.hasPiece_iff]
  split
  · next found => simp [show Text.hasPiece _ _ = true from found]
  · next missing => simp [show ¬Text.hasPiece _ _ = true from missing, Text.contains]

/-- Each token is decided by the first rule that fits it. -/
theorem first_rule_decides :
    (∀ query, ∀ token ∈ tokenize query, Unbroken token) ∧
      ∀ token, Unbroken token → ∀ item, Decided token item := by
  refine ⟨fun query token mem => unbroken_of_tokenize mem, fun token unbroken item => ?_⟩
  constructor
  case said => exact ⟨_, holds_row _ item⟩
  case tag =>
    intro wanted marked
    rw [ofToken_marked marked]
    exact anyTag_iff _ item.tags
  case duration =>
    intro c numeral bounded
    obtain ⟨limit, read, counts⟩ := bounded.plain.read
    refine ⟨limit, read, ?_⟩
    rw [ofToken_duration unbroken bounded, numeralValue_eq read]
    exact Comparison.holds_iff c item.duration counts.ne_notANumber
  case size =>
    intro c numeral unit bounded isUnit
    obtain ⟨limit, read, counts⟩ := bounded.plain.read
    obtain ⟨power, known, listed⟩ := isUnit.power
    refine ⟨limit, power, read, listed, ?_⟩
    rw [ofToken_size unbroken bounded known, numeralValue_eq read]
    exact Comparison.holds_iff c item.size (limit_ne_notANumber counts known)
  case piece =>
    intro unmarked noDuration noSize
    rw [ofToken_piece unbroken unmarked noDuration noSize]
    exact holds_piece_iff _ item

/-- The Kelvin sign is a letter of a unit, which is found in the table. -/
theorem first_rule_decides_kelvin :
    Unbroken "size:>=1.5\u212aB" ∧
      Bounded "size:" "size:>=1.5\u212aB" .atLeast ['1', '.', '5'] ['\u212a', 'B'] ∧
      IsUnit ['\u212a', 'B'] ∧
      ∃ limit power, Numeral.real "1.5" = .ok limit ∧
        units.lookup (Text.lower "\u212aB") = some power ∧
        Comparison.atLeast.HoldsOf (some (.whole 1536))
          (limit.mul (Binary64.ofNat (Nat.pow 1024 power))) := by
  have unbroken : Unbroken "size:>=1.5\u212aB" := by
    unfold Unbroken
    decide +kernel
  have bound : bound? "size:" "size:>=1.5\u212aB".toList =
      some (.atLeast, ['1', '.', '5'], ['\u212a', 'B']) := by
    decide +kernel
  have bounded := bounded_of_bound? unbroken (by decide) bound
  have power : unitPower? ['\u212a', 'B'] = some 1 := by decide +kernel
  have isUnit := isUnit_of_power power
  obtain ⟨limit, power, read, listed, rule⟩ := (first_rule_decides.2 _ unbroken
    (sizedItem "clip" (some (.whole 1536)))).size _ _ _ bounded isUnit
  exact ⟨unbroken, bounded, isUnit, limit, power, read, listed, rule.1 (by decide +kernel)⟩

end Rules

end VideoCatalog
