import Mathlib.Data.List.Sort

/-!
# Sorting by a key

A list that is sorted by a key is in order (`pairwise_ascending`, `pairwise_descending`), and two of
its members that were in order stay so, with equal keys, too (`ties_descending`); hence so does any
part of it that was in order (`filter_descending`).  The first with a property is one of the least
(`find?_ascending`).
-/

namespace WezuBackend.Lib.Sorting

variable {α β : Type} [LinearOrder β] (key : α → β)

theorem pairwise_ascending (l : List α) :
    (l.mergeSort fun x y => key x ≤ key y).Pairwise fun x y => key x ≤ key y := by
  have h : (l.mergeSort fun x y => key x ≤ key y).Pairwise fun x y =>
      decide (key x ≤ key y) = true := by
    refine List.pairwise_mergeSort (fun x y z hxy hyz => ?_) (fun x y => ?_) l
    · rw [decide_eq_true_eq] at *
      exact hxy.trans hyz
    · simpa using le_total (key x) (key y)
  exact h.imp of_decide_eq_true

theorem pairwise_descending (l : List α) :
    (l.mergeSort fun x y => key y ≤ key x).Pairwise fun x y => key y ≤ key x := by
  have h : (l.mergeSort fun x y => key y ≤ key x).Pairwise fun x y =>
      decide (key y ≤ key x) = true := by
    refine List.pairwise_mergeSort (fun x y z hxy hyz => ?_) (fun x y => ?_) l
    · rw [decide_eq_true_eq] at *
      exact hyz.trans hxy
    · simpa using le_total (key y) (key x)
  exact h.imp of_decide_eq_true

variable {l : List α}

theorem ties_descending {x y : α} (h : [x, y].Sublist l) (hkey : key y ≤ key x) :
    [x, y].Sublist (l.mergeSort fun x y => key y ≤ key x) := by
  refine List.pair_sublist_mergeSort (fun x y z hxy hyz => ?_) (fun x y => ?_)
    (decide_eq_true hkey) h
  · rw [decide_eq_true_eq] at *
    exact hyz.trans hxy
  · simpa using le_total (key y) (key x)

/-- Of two members of a list in order, the greater one comes first. -/
theorem pair_sublist_of_lt (h : l.Pairwise fun x y => key y ≤ key x) {x y : α}
    (hx : x ∈ l) (hy : y ∈ l) (hlt : key y < key x) : [x, y].Sublist l := by
  induction l with
  | nil => cases hx
  | cons z l ih =>
    obtain ⟨hz, hl⟩ := List.pairwise_cons.mp h
    rcases List.mem_cons.mp hx with rfl | hxl
    · rcases List.mem_cons.mp hy with rfl | hyl
      · exact absurd hlt (lt_irrefl _)
      · exact (List.singleton_sublist.mpr hyl).cons_cons x
    · rcases List.mem_cons.mp hy with rfl | hyl
      · exact absurd (hz x hxl) (not_le.mpr hlt)
      · exact (ih hl hxl hyl).cons z

/-- **What was in order stays as it was.** -/
theorem filter_descending {p : α → Bool} (h : (l.filter p).Pairwise fun x y => key y ≤ key x) :
    (l.mergeSort fun x y => key y ≤ key x).filter p = l.filter p := by
  have hsub : (l.filter p).Sublist (l.mergeSort fun x y => key y ≤ key x) := by
    refine List.sublist_mergeSort (fun x y z hxy hyz => ?_) (fun x y => ?_)
      (h.imp decide_eq_true) List.filter_sublist
    · rw [decide_eq_true_eq] at *
      exact hyz.trans hxy
    · simpa using le_total (key y) (key x)
  have hsub' := hsub.filter p
  rw [List.filter_filter] at hsub'
  simp only [Bool.and_self] at hsub'
  refine (hsub'.eq_of_length ?_).symm
  exact ((List.mergeSort_perm l _).filter p).length_eq.symm

/-- **The first with a property is one of the least.** -/
theorem find?_ascending {p : α → Bool} {x : α}
    (h : (l.mergeSort fun x y => key x ≤ key y).find? p = some x) :
    x ∈ l ∧ p x = true ∧ ∀ y ∈ l, p y = true → key x ≤ key y := by
  obtain ⟨hx, before, after, hsplit, hbefore⟩ := List.find?_eq_some_iff_append.mp h
  have hperm := List.mergeSort_perm l fun x y => decide (key x ≤ key y)
  have hmem : x ∈ l := hperm.mem_iff.mp (by
    rw [hsplit]
    simp)
  refine ⟨hmem, hx, fun y hy hpy => ?_⟩
  have hsorted := pairwise_ascending key l
  rw [hsplit, List.pairwise_append, List.pairwise_cons] at hsorted
  rw [← hperm.mem_iff, hsplit, List.mem_append, List.mem_cons] at hy
  rcases hy with hy | rfl | hy
  · have hnot := hbefore y hy
    rw [hpy] at hnot
    cases hnot
  · exact le_rfl
  · exact hsorted.2.1.1 y hy

end WezuBackend.Lib.Sorting
