import Mathlib.Tactic.Common
import VideoCatalog.Text.Blank

/-!
# Words of texts that are put together

A text that has a blank in it has the words of the part before the blank and those of the part
after it, and all that is said here of words comes from that.

* `BlankRun`: a run of blanks, at least one.
* `words_append`: the words of two texts with a run of blanks between them.
* `words_blankRun`, `words_append_blankRun`, `words_blankRun_append`: runs of blanks alone, and at
  the ends of a text.
* `words_of_solid`: a text without blanks is one word.
-/

namespace VideoCatalog.Text

/-- A run of blanks. -/
structure BlankRun (w : String) : Prop where
  nonempty : w ≠ ""
  blank : ∀ c ∈ w.toList, isBlank c = true

/-- A blank ends a word that has begun, and what follows is read anew. -/
theorem wordsFrom_append_cons {c : Char} (blank : isBlank c = true) (word a b : List Char) :
    wordsFrom word (a ++ c :: b) = wordsFrom word a ++ wordsFrom [] b := by
  induction a generalizing word with
  | nil =>
    simp only [List.nil_append, wordsFrom, blank, if_true]
    split <;> rfl
  | cons d a ih =>
    simp only [List.cons_append, wordsFrom]
    split
    · split
      · exact ih []
      · rw [ih [], List.cons_append]
    · exact ih (d :: word)

theorem wordsFrom_append {w : List Char} (nonempty : w ≠ []) (blank : ∀ c ∈ w, isBlank c = true)
    (word a b : List Char) : wordsFrom word (a ++ w ++ b) = wordsFrom word a ++ wordsFrom [] b := by
  induction w generalizing word a with
  | nil => exact absurd rfl nonempty
  | cons c w ih =>
    obtain ⟨first, others⟩ := List.forall_mem_cons.1 blank
    rw [List.append_assoc, List.cons_append, wordsFrom_append_cons first]
    cases w with
    | nil => rfl
    | cons d w =>
      have rest := ih (List.cons_ne_nil d w) others [] []
      rw [List.nil_append] at rest
      rw [rest]
      rfl

/-- A text without blanks goes on with the word that has begun. -/
theorem wordsFrom_of_solid {text : List Char} (solid : ∀ c ∈ text, isBlank c = false)
    {word : List Char} (nonempty : word.reverse ++ text ≠ []) :
    wordsFrom word text = [word.reverse ++ text] := by
  induction text generalizing word with
  | nil =>
    have begun : word.isEmpty = false := by simpa using nonempty
    rw [wordsFrom, begun, List.append_nil]
    rfl
  | cons c text ih =>
    obtain ⟨first, others⟩ := List.forall_mem_cons.1 solid
    have begun : (c :: word).reverse ++ text ≠ [] := by simp
    rw [wordsFrom, first]
    simpa using ih others begun

/-- A run of blanks stands between the words of two texts. -/
theorem words_append {w : String} (run : BlankRun w) (a b : String) :
    words (a ++ w ++ b) = words a ++ words b := by
  have nonempty : w.toList ≠ [] := by simpa using run.nonempty
  rw [words, String.toList_append, String.toList_append, wordsFrom_append nonempty run.blank,
    List.map_append]
  rfl

theorem words_blankRun {w : String} (run : BlankRun w) : words w = [] := by
  simpa [words, wordsFrom] using words_append run "" ""

theorem words_append_blankRun {w : String} (run : BlankRun w) (a : String) :
    words (a ++ w) = words a := by
  simpa [words, wordsFrom] using words_append run a ""

theorem words_blankRun_append {w : String} (run : BlankRun w) (b : String) :
    words (w ++ b) = words b := by
  simpa [words, wordsFrom] using words_append run "" b

/-- A text without blanks is one word. -/
theorem words_of_solid {text : String} (nonempty : text ≠ "")
    (solid : ∀ c ∈ text.toList, isBlank c = false) : words text = [text] := by
  have nonempty : ([] : List Char).reverse ++ text.toList ≠ [] := by simpa using nonempty
  rw [words, wordsFrom_of_solid solid nonempty]
  simp

end VideoCatalog.Text
