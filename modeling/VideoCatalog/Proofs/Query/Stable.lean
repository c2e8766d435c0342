import Mathlib.Data.List.Sort

/-!
# Stable sorting

Elements that may stand in either order keep the order that they had.

* `filter_mergeSort_of_ties`: sorting leaves a class of such elements as it was.
* `eq_of_pairwise_of_classes`: a sorted list is told by these classes.
* `filter_mergeSort`: so it makes no difference whether a list is filtered before or after it is
  sorted.
-/

namespace VideoCatalog

variable {α : Type} {le : α → α → Bool}

/-- Elements that may stand in either order keep their order. -/
theorem filter_mergeSort_of_ties (trans : ∀ a b c, le a b = true → le b c = true → le a c = true)
    (total : ∀ a b, (le a b || le b a) = true) {tied : α → Bool}
    (ties : ∀ a b, tied a = true → tied b = true → le a b = true) (l : List α) :
    (l.mergeSort le).filter tied = l.filter tied := by
  have kept : (l.filter tied).Sublist (l.mergeSort le) := by
    refine List.sublist_mergeSort trans total ?_ List.filter_sublist
    exact List.pairwise_of_forall_mem_list fun a ha b hb =>
      ties a b (List.mem_filter.1 ha).2 (List.mem_filter.1 hb).2
  have inner : (l.filter tied).Sublist ((l.mergeSort le).filter tied) := by
    simpa using kept.filter tied
  exact (inner.eq_of_length ((List.mergeSort_perm l le).filter tied).length_eq.symm).symm

/-- Two sorted lists with the same classes of elements that may stand in either order are equal. -/
theorem eq_of_pairwise_of_classes (total : ∀ a b, (le a b || le b a) = true) {x y : List α}
    (hx : x.Pairwise (le · ·)) (hy : y.Pairwise (le · ·))
    (same : ∀ e, x.filter (fun a => le a e && le e a) = y.filter fun a => le a e && le e a) :
    x = y := by
  have refl (a : α) : le a a = true := by simpa using total a a
  induction x generalizing y with
  | nil =>
    cases y with
    | nil => rfl
    | cons b y => simpa [refl] using same b
  | cons a x ih =>
    cases y with
    | nil => simpa [refl] using (same a).symm
    | cons b y =>
      obtain ⟨least, hx⟩ := List.pairwise_cons.1 hx
      have least' := (List.pairwise_cons.1 hy).1
      have ab : le a b = true := by
        have mem : b ∈ (a :: x).filter fun c => le c b && le b c := by simp [same b, refl]
        rcases List.mem_cons.1 (List.mem_of_mem_filter mem) with rfl | mem
        · exact refl b
        · exact least b mem
      have ba : le b a = true := by
        have mem : a ∈ (b :: y).filter fun c => le c a && le a c := by simp [← same a, refl]
        rcases List.mem_cons.1 (List.mem_of_mem_filter mem) with rfl | mem
        · exact refl a
        · exact least' a mem
      obtain rfl : a = b := by
        have heads := same a
        simp only [List.filter_cons, refl, ab, ba, Bool.and_self, if_true, List.cons.injEq] at heads
        exact heads.1
      refine congrArg (a :: ·) (ih hx (List.pairwise_cons.1 hy).2 fun e => ?_)
      have tails := same e
      simp only [List.filter_cons] at tails
      split at tails
      · exact (List.cons.inj tails).2
      · exact tails

/-- Filtering may come before sorting or after it. -/
theorem filter_mergeSort (trans : ∀ a b c, le a b = true → le b c = true → le a c = true)
    (total : ∀ a b, (le a b || le b a) = true) (keep : α → Bool) (l : List α) :
    (l.mergeSort le).filter keep = (l.filter keep).mergeSort le := by
  refine eq_of_pairwise_of_classes total
    ((List.pairwise_mergeSort trans total l).sublist List.filter_sublist)
    (List.pairwise_mergeSort trans total _) fun e => ?_
  have ties (a b : α) (ha : (le a e && le e a) = true) (hb : (le b e && le e b) = true) :
      le a b = true := by
    rw [Bool.and_eq_true] at ha hb
    exact trans a e b ha.1 hb.2
  rw [filter_mergeSort_of_ties trans total ties, List.filter_comm,
    filter_mergeSort_of_ties trans total ties, List.filter_comm]

end VideoCatalog
