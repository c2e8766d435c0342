import Mathlib.Data.List.Basic
import Mathlib.Tactic.Common

/-!
# Looking up in lists of pairs

What is found under a key after a pair was put somewhere or added at the end.

* `lookup_replace`: every pair with a key is replaced.
* `lookup_append_of_absent`: a pair with a new key is added.
* `lookup_eq_some_iff_mem`: with distinct keys, what is found is what is listed.
-/

namespace VideoCatalog

variable {α β : Type} [BEq α] [LawfulBEq α] [DecidableEq α] {entries : List (α × β)} {key : α}

theorem lookup_replace (entries : List (α × β)) (key other : α) (value : β) :
    (entries.map fun e => if e.1 == key then (key, value) else e).lookup other =
      if other = key then (entries.lookup key).map fun _ => value else entries.lookup other := by
  induction entries with
  | nil => simp
  | cons e rest ih =>
    obtain ⟨k, v⟩ := e
    by_cases hk : k = key
    · subst hk
      by_cases ho : other = k
      · subst ho
        simp
      · have ne : (other == k) = false := beq_false_of_ne ho
        simp only [List.map_cons, beq_self_eq_true, if_true, List.lookup_cons, ne, ih, ho, if_false]
    · have nk : (k == key) = false := beq_false_of_ne hk
      have kn : (key == k) = false := beq_false_of_ne (Ne.symm hk)
      simp only [List.map_cons, nk, Bool.false_eq_true, if_false, List.lookup_cons, ih, kn]
      by_cases ho : other = key
      · subst ho
        simp [kn]
      · simp only [ho, if_false]

theorem lookup_append_of_absent (absent : entries.any (·.1 == key) = false) (other : α)
    (value : β) : (entries ++ [(key, value)]).lookup other =
      if other = key then some value else entries.lookup other := by
  induction entries with
  | nil =>
    by_cases ho : other = key
    · simp [ho]
    · simp [List.lookup_cons, beq_false_of_ne ho, ho]
  | cons e rest ih =>
    obtain ⟨k, v⟩ := e
    simp only [List.any_cons, Bool.or_eq_false_iff] at absent
    have hk : k ≠ key := by simpa using absent.1
    simp only [List.cons_append, List.lookup_cons, ih absent.2]
    by_cases ho : other = key
    · subst ho
      simp [beq_false_of_ne (Ne.symm hk)]
    · simp only [ho, if_false]

theorem isSome_lookup (present : entries.any (·.1 == key) = true) :
    ∃ value, entries.lookup key = some value := by
  induction entries with
  | nil => simp at present
  | cons e rest ih =>
    obtain ⟨k, v⟩ := e
    by_cases hk : key = k
    · exact ⟨v, by simp [hk]⟩
    · have tail : rest.any (·.1 == key) = true := by
        simpa [beq_false_of_ne (Ne.symm hk)] using present
      obtain ⟨value, found⟩ := ih tail
      exact ⟨value, by simpa [List.lookup_cons, beq_false_of_ne hk] using found⟩

theorem lookup_eq_some_iff_mem (distinct : (entries.map (·.1)).Nodup) {value : β} :
    entries.lookup key = some value ↔ (key, value) ∈ entries := by
  induction entries with
  | nil => simp
  | cons e rest ih =>
    obtain ⟨k, v⟩ := e
    obtain ⟨fresh, distinct⟩ := List.nodup_cons.1 distinct
    by_cases hk : key = k
    · subst hk
      have absent : (key, value) ∉ rest := fun mem =>
        fresh (List.mem_map.2 ⟨(key, value), mem, rfl⟩)
      simp [absent, eq_comm]
    · simp [List.lookup_cons, beq_false_of_ne hk, hk, ih distinct]

end VideoCatalog
