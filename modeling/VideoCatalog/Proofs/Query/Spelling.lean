import Mathlib.Data.List.Forall2
import VideoCatalog.Query.Filter

/-!
# Words in any case

The words of filters are spelled in any case. Letters are the same if their small letters are, and
two letters count as another one although they are small themselves. A unit that is spelled so is
found in the table of units by its lower case.

* `Text.smallLetter`, `Text.SameLetter`: letters without regard to case.
* `Filter.mem_spellings_iff`: the listed spellings of a letter are the letters that are the same.
* `Spells`: a text spells a word; `Filter.afterWord?_eq_some_iff` says that this is looked for.
* `IsUnit`, `IsUnit.power`: the units, and how they are found.
-/

namespace VideoCatalog

namespace Text

/-- The small letter of a character, or its first one. -/
def smallLetter (c : Char) : Char :=
  if c.toNat < 0x80 then c.toLower else (lowerTable.apply c).headD c

/-- The letters that count as another one: the i without a dot and the long s. -/
def likeOthers : List (Nat × Char) := [(0x131, 'i'), (0x17f, 's')]

/-- Two letters are the same without regard to case, the second being a small one. -/
def SameLetter (c w : Char) : Prop := smallLetter c = w ∨ (c.toNat, w) ∈ likeOthers

instance (c w : Char) : Decidable (SameLetter c w) :=
  inferInstanceAs (Decidable (smallLetter c = w ∨ (c.toNat, w) ∈ likeOthers))

-- What is asked of some characters is not to be decided by going through all that there are.
section Decidable

variable {p : Char → Prop} [DecidablePred p]

instance (priority := high) decidableForallMem (text : List Char) : Decidable (∀ c ∈ text, p c) :=
  List.decidableBAll p text

instance (priority := high) decidableForallMem? (c? : Option Char) : Decidable (∀ c ∈ c?, p c) :=
  Option.decidableForallMem c?

end Decidable

end Text

namespace Filter

open Text

/-- The characters of the words of filters. -/
def wordLetters : List Char := ['d', 'u', 'r', ':', 's', 'i', 'z', 'e', 'k', 'b', 'm', 'g', 't']

/-! ### The spellings of a letter -/

theorem sameLetter_of_mem : ∀ w ∈ wordLetters, ∀ c ∈ spellings w, SameLetter c w := by
  decide +kernel

theorem mem_of_ascii : ∀ n < 0x80, ∀ w ∈ wordLetters, (Char.ofNat n).toLower = w →
    Char.ofNat n ∈ spellings w := by
  decide +kernel

/-- No other run of the table leads to these characters but the one of the Kelvin sign. -/
theorem runs_apart : ∀ run ∈ lowerTable.runs, ∀ w ∈ wordLetters,
    run.first ≤ ((w.toNat : Int) - run.distance).toNat →
    ((w.toNat : Int) - run.distance).toNat ≤ run.last →
    ((w.toNat : Int) - run.distance).toNat < 0x80 ∨
      ((w.toNat : Int) - run.distance).toNat = 0x212a ∧ w = 'k' := by
  decide +kernel

theorem wordLetters_ascii : ∀ w ∈ wordLetters, 0 < w.toNat ∧ w.toNat < 0x80 := by decide

/-- A character that a run moves to one of these is spelled so. -/
theorem mem_of_shift? {run : Run} (among : run ∈ lowerTable.runs) {w : Char}
    (letter : w ∈ wordLetters) {c : Char} (beyond : ¬c.toNat < 0x80) {n : Nat}
    (shifted : run.shift? c.toNat = some n) (small : Char.ofNat n = w) : c ∈ spellings w := by
  obtain ⟨positive, -⟩ := wordLetters_ascii w letter
  unfold Run.shift? at shifted
  split at shifted
  · next range =>
    obtain ⟨above, below, -⟩ := range
    -- The distance tells where the character comes from.
    have same : n = w.toNat := by
      by_cases valid : n.isValidChar
      · rw [← small, Char.ofNat, dif_pos valid]
        rfl
      · rw [Char.ofNat, dif_neg valid] at small
        subst small
        exact absurd positive (by decide)
    have moved : (c.toNat + run.distance).toNat = n := Option.some.inj shifted
    have origin : c.toNat = ((w.toNat : Int) - run.distance).toNat := by omega
    rw [origin] at above below beyond
    rcases runs_apart run among w letter above below with ascii | ⟨kelvin, rfl⟩
    · exact absurd ascii beyond
    · rw [← Char.ofNat_toNat c, origin, kelvin]
      decide
  · cases shifted

/-- The listed spellings of a letter are the letters that are the same. -/
theorem mem_spellings_iff {w : Char} (letter : w ∈ wordLetters) (c : Char) :
    c ∈ spellings w ↔ SameLetter c w := by
  refine ⟨sameLetter_of_mem w letter c, ?_⟩
  rintro (small | other)
  · unfold smallLetter at small
    by_cases ascii : c.toNat < 0x80
    · rw [if_pos ascii] at small
      have listed := mem_of_ascii c.toNat ascii w letter
      rw [Char.ofNat_toNat] at listed
      exact listed small
    · rw [if_neg ascii] at small
      unfold Mapping.apply at small
      split at small
      · next text found =>
        -- Only the capital i with a dot becomes more than one letter.
        have only : lowerTable.exceptions = [(0x130, [0x69, 0x307])] := rfl
        rw [only, List.lookup_cons] at found
        split at found
        · next dotted =>
          obtain rfl := Option.some.inj found
          obtain rfl : 'i' = w := small
          rw [← Char.ofNat_toNat c, eq_of_beq dotted]
          decide
        · cases found
      · split at small
        · next n found =>
          obtain ⟨run, among, shifted⟩ := List.exists_of_findSome?_eq_some found
          exact mem_of_shift? among letter ascii shifted small
        · obtain rfl : c = w := small
          exact absurd (wordLetters_ascii c letter).2 ascii
  · simp only [likeOthers, List.mem_cons, Prod.mk.injEq, List.not_mem_nil, or_false] at other
    rw [← Char.ofNat_toNat c]
    rcases other with ⟨code, rfl⟩ | ⟨code, rfl⟩ <;> (rw [code]; decide)

/-! ### Words -/

end Filter

/-- A text spells a word if it has the same letters. -/
def Spells (word : String) (text : List Char) : Prop :=
  List.Forall₂ Text.SameLetter text word.toList

namespace Filter

theorem afterWord?_eq_some_iff {word text rest : List Char}
    (letters : ∀ w ∈ word, w ∈ wordLetters) :
    afterWord? word text = some rest ↔
      ∃ front, text = front ++ rest ∧ List.Forall₂ Text.SameLetter front word := by
  induction word generalizing text with
  | nil => simp [afterWord?]
  | cons w word ih =>
    obtain ⟨letter, others⟩ := List.forall_mem_cons.1 letters
    cases text with
    | nil => simp [afterWord?]
    | cons c text =>
      rw [afterWord?]
      constructor
      · intro read
        split at read
        · next spelled =>
          obtain ⟨front, rfl, same⟩ := (ih others).1 read
          have first := (mem_spellings_iff letter c).1 (by simpa using spelled)
          exact ⟨c :: front, rfl, .cons first same⟩
        · cases read
      · rintro ⟨front, split, same⟩
        cases same with
        | @cons d _ front _ first same =>
          obtain ⟨rfl, rfl⟩ := List.cons.inj split
          have spelled := (mem_spellings_iff letter c).2 first
          rw [if_pos (by simpa using spelled)]
          exact (ih others).2 ⟨front, rfl, same⟩

/-- The texts that spell a word. -/
def variants : List Char → List (List Char)
  | [] => [[]]
  | w :: word => (spellings w).flatMap fun c => (variants word).map (c :: ·)

theorem mem_variants {word text : List Char} (letters : ∀ w ∈ word, w ∈ wordLetters)
    (same : List.Forall₂ Text.SameLetter text word) : text ∈ variants word := by
  induction same with
  | nil => exact List.mem_singleton.2 rfl
  | @cons c w text word first same ih =>
    obtain ⟨letter, others⟩ := List.forall_mem_cons.1 letters
    exact List.mem_flatMap.2 ⟨c, (mem_spellings_iff letter c).2 first,
      List.mem_map.2 ⟨text, ih others, rfl⟩⟩

/-! ### Units -/

theorem units_letters : ∀ u ∈ units, ∀ w ∈ u.1.toList, w ∈ wordLetters := by decide +kernel

/-- What is needed of all spellings of the units: they stand for the same power, have the unit as
their lower case, and do not go on with a numeral. -/
theorem unit_of_variant : ∀ u ∈ units, ∀ text ∈ variants u.1.toList,
    unitPower? text = some u.2 ∧ Text.lowerAfter [] text = u.1.toList ∧
      units.lookup u.1 = some u.2 ∧ text ≠ [] ∧
      ∀ c ∈ text.head?, Text.isDigit c = false ∧ c ≠ '.' := by
  decide +kernel

end Filter

/-- A unit in any case, or none. -/
def IsUnit (unit : List Char) : Prop := unit = [] ∨ ∃ u ∈ Filter.units, Spells u.1 unit

/-- A unit stands for a power of 1024, which is found under its lower case; none counts as bytes. -/
theorem IsUnit.power {unit : List Char} (known : IsUnit unit) :
    ∃ power, Filter.unitPower? unit = some power ∧
      Filter.units.lookup (Text.lower (if unit = [] then "b" else String.ofList unit)) =
        some power := by
  rcases known with rfl | ⟨u, among, spelled⟩
  · exact ⟨0, by decide +kernel⟩
  · have variant := Filter.mem_variants (Filter.units_letters u among) spelled
    obtain ⟨power, lower, found, some, -⟩ := Filter.unit_of_variant u among unit variant
    refine ⟨u.2, power, ?_⟩
    rw [if_neg some, Text.lower, String.toList_ofList, lower, String.ofList_toList, found]

/-- A unit does not go on with a numeral. -/
theorem IsUnit.head {unit : List Char} (known : IsUnit unit) :
    ∀ c ∈ unit.head?, Text.isDigit c = false ∧ c ≠ '.' := by
  rcases known with rfl | ⟨u, among, spelled⟩
  · simp
  · have variant := Filter.mem_variants (Filter.units_letters u among) spelled
    exact (Filter.unit_of_variant u among unit variant).2.2.2.2

/-- The powers that texts stand for are those of the table. -/
theorem Filter.mem_units_of_power {unit : List Char} {power : Nat}
    (found : unitPower? unit = some power) : ∃ u ∈ units, power = u.2 := by
  unfold unitPower? at found
  split at found
  · exact ⟨("b", 0), List.mem_cons_self, (Option.some.inj found).symm⟩
  · obtain ⟨u, first, same⟩ := Option.map_eq_some_iff.1 found
    exact ⟨u, List.mem_of_find?_eq_some first, same.symm⟩

/-- Only units stand for powers. -/
theorem isUnit_of_power {unit : List Char} {power : Nat}
    (found : Filter.unitPower? unit = some power) : IsUnit unit := by
  unfold Filter.unitPower? at found
  split at found
  · next empty => exact .inl (List.isEmpty_iff.1 empty)
  · obtain ⟨u, first, -⟩ := Option.map_eq_some_iff.1 found
    have whole : Filter.afterWord? u.1.toList unit = some [] := by
      simpa using List.find?_some first
    have among := List.mem_of_find?_eq_some first
    obtain ⟨front, rfl, same⟩ :=
      (Filter.afterWord?_eq_some_iff (Filter.units_letters u among)).1 whole
    exact .inr ⟨u, among, by rwa [List.append_nil]⟩

end VideoCatalog
