import Mathlib.Data.String.Basic
import VideoCatalog.Discovery.Walk
import VideoCatalog.Proofs.Query.Stable

/-!
# The order of a walk

* `ComesBefore`: a file of a directory comes before what is in its subdirectories, and otherwise
  the names decide.
* `ComesBefore.asymm`, `eq_of_mem_iff`: paths in this order are told by which they are.
* `pairwise_sortNames`, `filter_sortNames`: sorted names.
-/

namespace VideoCatalog

/-- Whether one path comes before another one: in one directory its files come in the order of
their names, and after them what is in its subdirectories, in the order of their names. -/
def ComesBefore : List String → List String → Prop
  | [], _ | _, [] => False
  | [a], [b] => a < b
  | [_], _ :: _ :: _ => True
  | _ :: _ :: _, [_] => False
  | a :: a' :: front, b :: b' :: rest => a < b ∨ a = b ∧ ComesBefore (a' :: front) (b' :: rest)

namespace ComesBefore

variable {a b : String} {x y : List String}

theorem file_iff : ComesBefore [a] [b] ↔ a < b := by rw [ComesBefore]

theorem file_inner (filled : y ≠ []) : ComesBefore [a] (b :: y) := by
  obtain ⟨c, y, rfl⟩ := List.exists_cons_of_ne_nil filled
  trivial

theorem inner_iff (hx : x ≠ []) (hy : y ≠ []) :
    ComesBefore (a :: x) (b :: y) ↔ a < b ∨ a = b ∧ ComesBefore x y := by
  obtain ⟨c, x, rfl⟩ := List.exists_cons_of_ne_nil hx
  obtain ⟨d, y, rfl⟩ := List.exists_cons_of_ne_nil hy
  rw [ComesBefore]

theorem asymm (one : ComesBefore x y) : ¬ComesBefore y x := by
  intro other
  induction x, y using ComesBefore.induct with
  | case1 => exact one
  | case2 => cases other
  | case3 a b => exact lt_asymm one other
  | case4 => cases other
  | case5 => cases one
  | case6 a a' front b b' rest ih =>
    rw [inner_iff (by simp) (by simp)] at one other
    rcases one with less | ⟨rfl, one⟩ <;> rcases other with less' | ⟨same, other⟩
    · exact lt_asymm less less'
    · exact less.ne' same
    · exact less'.false
    · exact ih one other

end ComesBefore

variable {paths others : List (List String)}

theorem nodup_of_pairwise (ordered : paths.Pairwise ComesBefore) : paths.Nodup :=
  ordered.imp fun before same => by
    subst same
    exact before.asymm before

/-- Paths in this order are told by which they are. -/
theorem eq_of_mem_iff (ordered : paths.Pairwise ComesBefore)
    (ordered' : others.Pairwise ComesBefore) (same : ∀ path, path ∈ paths ↔ path ∈ others) :
    paths = others := by
  have perm := (List.perm_ext_iff_of_nodup (nodup_of_pairwise ordered)
    (nodup_of_pairwise ordered')).2 same
  exact perm.eq_of_pairwise (fun _ _ _ _ one other => absurd other one.asymm) ordered ordered'

/-! ### Sorted names -/

variable {names : List String}

theorem mem_sortNames {name : String} : name ∈ sortNames names ↔ name ∈ names :=
  (List.mergeSort_perm ..).mem_iff

theorem filter_sortNames (keep : String → Bool) :
    (sortNames names).filter keep = sortNames (names.filter keep) :=
  filter_mergeSort (fun a b c => by simpa using le_trans) (fun a b => by simpa using le_total a b)
    keep names

/-- Distinct names stand in their order. -/
theorem pairwise_sortNames (distinct : names.Nodup) : (sortNames names).Pairwise (· < ·) := by
  have sorted : (sortNames names).Pairwise fun a b => decide (a ≤ b) = true :=
    List.pairwise_mergeSort (fun a b c => by simpa using le_trans)
      (fun a b => by simpa using le_total a b) names
  have apart : (sortNames names).Nodup := (List.mergeSort_perm ..).nodup_iff.2 distinct
  exact sorted.imp₂ (fun a b le ne => lt_of_le_of_ne (by simpa using le) ne) apart

end VideoCatalog
