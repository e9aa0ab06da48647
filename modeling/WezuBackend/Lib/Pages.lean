import WezuBackend.Lib.Sorting
import Mathlib.Algebra.Order.BigOperators.Group.List
import Mathlib.Algebra.Order.Group.Nat

/-!
# Pages

A list is read page by page until a page is empty (`ReadsOut`).  The slices of a list read it out
(`readsOut_slices`).  A page that is merged from the slices of two sorted lists, each at the same
offset, and cut to the length of one slice loses entries unless one slice holds both lists or one
list is empty (`merged_pages_iff`).
-/

namespace WezuBackend.Lib.Pages

open Lib.Sorting

/-- The pages up to the first empty one, one after the other. -/
def ReadsOut {α : Type} (page : ℕ → List α) (all : List α) : Prop :=
  ∃ m, (∀ i < m, page i ≠ []) ∧ page m = [] ∧ all = (List.range m).flatMap page

/-- `limit` entries from `skip` on. -/
def slice {α : Type} (l : List α) (skip limit : ℕ) : List α := (l.drop skip).take limit

section

variable {α : Type}

@[simp] theorem slice_nil (skip limit : ℕ) : slice ([] : List α) skip limit = [] := by
  simp [slice]

theorem slice_eq_nil {l : List α} {skip limit : ℕ} (h : l.length ≤ skip) :
    slice l skip limit = [] := by
  rw [slice, List.drop_eq_nil_of_le h, List.take_nil]

theorem length_slice (l : List α) (skip limit : ℕ) :
    (slice l skip limit).length = min limit (l.length - skip) := by
  rw [slice, List.length_take, List.length_drop]

theorem slice_sublist (l : List α) (skip limit : ℕ) : (slice l skip limit).Sublist l :=
  (List.take_sublist _ _).trans (List.drop_sublist _ _)

theorem flatMap_slice (l : List α) (n m : ℕ) :
    (List.range m).flatMap (fun i => slice l (i * n) n) = l.take (m * n) := by
  induction m with
  | zero => simp
  | succ m ih =>
    rw [List.range_succ, List.flatMap_append, ih, List.flatMap_singleton, Nat.succ_mul,
      List.take_add]
    rfl

theorem readsOut_slices (l : List α) {n : ℕ} (hn : 0 < n) :
    ReadsOut (fun i => slice l (i * n) n) l := by
  have hend : ∃ i, l.length ≤ i * n := ⟨l.length, Nat.le_mul_of_pos_right _ hn⟩
  refine ⟨Nat.find hend, fun i hi hnil => ?_, slice_eq_nil (Nat.find_spec hend), ?_⟩
  · have hlen := congrArg List.length hnil
    rw [length_slice, List.length_nil] at hlen
    have hlt := Nat.find_min hend hi
    omega
  · rw [flatMap_slice, List.take_of_length_le (Nat.find_spec hend)]

/-! ## Pages of two lists -/

variable {β : Type} [LinearOrder β] (key : α → β)

/-- The greatest first. -/
def Descending (l : List α) : Prop := l.Pairwise fun x y => key y ≤ key x

def mergedPage (A B : List α) (limit i : ℕ) : List α :=
  ((slice A (i * limit) limit ++ slice B (i * limit) limit).mergeSort
    fun x y => key y ≤ key x).take limit

variable {key} {A B : List α} {limit : ℕ}

theorem mergeSort_of_descending {l : List α} (h : Descending key l) :
    (l.mergeSort fun x y => key y ≤ key x) = l :=
  List.mergeSort_of_pairwise (h.imp decide_eq_true)

theorem length_mergedPage (i : ℕ) : (mergedPage key A B limit i).length =
    min limit ((slice A (i * limit) limit).length + (slice B (i * limit) limit).length) := by
  rw [mergedPage, List.length_take, List.length_mergeSort, List.length_append]

theorem pos_of_mergedPage {i : ℕ} (h : mergedPage key A B limit i ≠ []) : 0 < limit := by
  refine Nat.pos_of_ne_zero fun hzero => h (List.eq_nil_of_length_eq_zero ?_)
  rw [length_mergedPage, hzero]
  exact Nat.zero_min _

/-- With one of the lists empty, the pages read out the other one. -/
theorem readsOut_of_nil (hA : Descending key A) (hpos : 0 < limit) :
    ReadsOut (mergedPage key A [] limit) A ∧ ReadsOut (mergedPage key [] A limit) A := by
  have hsorted : ∀ i, (slice A (i * limit) limit).mergeSort (fun x y => key y ≤ key x) =
      slice A (i * limit) limit := fun i =>
    mergeSort_of_descending (List.Pairwise.sublist (slice_sublist A (i * limit) limit) hA)
  have htake : ∀ i, (slice A (i * limit) limit).take limit = slice A (i * limit) limit := by
    intro i
    rw [slice, List.take_take, min_self]
  have hleft : mergedPage key A [] limit = fun i => slice A (i * limit) limit := by
    funext i
    rw [mergedPage, slice_nil, List.append_nil, hsorted, htake]
  have hright : mergedPage key [] A limit = fun i => slice A (i * limit) limit := by
    funext i
    rw [mergedPage, slice_nil, List.nil_append, hsorted, htake]
  rw [hleft, hright]
  exact ⟨readsOut_slices A hpos, readsOut_slices A hpos⟩

theorem readsOut_onePage (hfits : A.length + B.length ≤ limit) (hA : A ≠ []) :
    ReadsOut (mergedPage key A B limit) ((A ++ B).mergeSort fun x y => key y ≤ key x) := by
  have hlen := List.length_pos_iff.mpr hA
  have hfirst : mergedPage key A B limit 0 = (A ++ B).mergeSort fun x y => key y ≤ key x := by
    unfold mergedPage slice
    rw [Nat.zero_mul, List.drop_zero, List.drop_zero,
      List.take_of_length_le (by omega : A.length ≤ _),
      List.take_of_length_le (by omega : B.length ≤ _), List.take_of_length_le]
    rw [List.length_mergeSort, List.length_append]
    exact hfits
  refine ⟨1, fun i hi => ?_, ?_, ?_⟩
  · obtain rfl : i = 0 := by omega
    intro hnil
    have h := congrArg List.length (hfirst.symm.trans hnil)
    rw [List.length_mergeSort, List.length_append, List.length_nil] at h
    omega
  · refine List.eq_nil_of_length_eq_zero ?_
    rw [length_mergedPage, length_slice, length_slice]
    omega
  · rw [List.range_one, List.flatMap_singleton, hfirst]

theorem length_readsOut_lt (hA : A ≠ []) (hB : B ≠ []) (hlarge : limit < A.length + B.length)
    {all : List α} (h : ReadsOut (mergedPage key A B limit) all) :
    all.length < A.length + B.length := by
  obtain ⟨m, hfull, -, rfl⟩ := h
  have hposA := List.length_pos_iff.mpr hA
  have hposB := List.length_pos_iff.mpr hB
  rcases m with _ | m
  · simp only [List.range_zero, List.flatMap_nil, List.length_nil]
    omega
  have hpos : 0 < limit := pos_of_mergedPage (hfull 0 (Nat.succ_pos m))
  -- what the slices have together, the first ones apart
  have hslices : ∀ l : List α, (slice l (0 * limit) limit).length +
      ((List.range m).map fun i => (slice l ((i + 1) * limit) limit).length).sum ≤ l.length := by
    intro l
    have htotal := congrArg List.length (flatMap_slice l limit (m + 1))
    rw [List.range_succ_eq_map, List.flatMap_cons, List.length_append, List.flatMap_map,
      List.length_flatMap] at htotal
    have htake := List.length_take_le' ((m + 1) * limit) l
    simp only [Nat.succ_eq_add_one] at htotal
    omega
  have hrest : ((List.range m).map fun i => (mergedPage key A B limit (i + 1)).length).sum ≤
      ((List.range m).map fun i => (slice A ((i + 1) * limit) limit).length).sum +
        ((List.range m).map fun i => (slice B ((i + 1) * limit) limit).length).sum := by
    rw [← List.sum_map_add]
    refine List.sum_le_sum fun i _ => ?_
    rw [length_mergedPage]
    exact min_le_right _ _
  have hfirst : (mergedPage key A B limit 0).length <
      (slice A (0 * limit) limit).length + (slice B (0 * limit) limit).length := by
    rw [length_mergedPage, length_slice, length_slice, Nat.zero_mul, Nat.sub_zero, Nat.sub_zero]
    omega
  have hA' := hslices A
  have hB' := hslices B
  rw [List.range_succ_eq_map, List.flatMap_cons, List.length_append, List.flatMap_map,
    List.length_flatMap]
  simp only [Nat.succ_eq_add_one]
  omega

/-- **Merged pages read out both lists** in order exactly if one page holds them or one of them is
empty. -/
theorem merged_pages_iff (hA : Descending key A) (hB : Descending key B) (limit : ℕ) :
    (∃ all, ReadsOut (mergedPage key A B limit) all ∧ all.Perm (A ++ B) ∧ Descending key all) ↔
      A.length + B.length ≤ limit ∨ 0 < limit ∧ (A = [] ∨ B = []) := by
  constructor
  · rintro ⟨all, hall, hperm, -⟩
    by_cases hfits : A.length + B.length ≤ limit
    · exact .inl hfits
    have hlen : all.length = A.length + B.length := by rw [hperm.length_eq, List.length_append]
    have hempty : A = [] ∨ B = [] := by
      by_contra hne
      obtain ⟨hneA, hneB⟩ := not_or.mp hne
      exact absurd (length_readsOut_lt hneA hneB (by omega) hall) (by omega)
    refine .inr ⟨Nat.pos_of_ne_zero fun hzero => hfits ?_, hempty⟩
    obtain ⟨m, hfull, -, rfl⟩ := hall
    rcases m with _ | m
    · rw [← hlen]
      exact Nat.zero_le _
    · exact absurd hzero (pos_of_mergedPage (hfull 0 (Nat.succ_pos m))).ne'
  · rintro (hfits | ⟨hpos, rfl | rfl⟩)
    · rcases eq_or_ne A [] with rfl | hneA
      · rcases limit with _ | n
        · obtain rfl : B = [] := List.eq_nil_of_length_eq_zero (by simpa using hfits)
          exact ⟨[], ⟨0, by simp, by simp [mergedPage], rfl⟩, .refl _, .nil⟩
        · exact ⟨B, (readsOut_of_nil hB n.succ_pos).2, .refl _, hB⟩
      · exact ⟨_, readsOut_onePage hfits hneA, List.mergeSort_perm _ _, pairwise_descending key _⟩
    · exact ⟨B, (readsOut_of_nil hB hpos).2, .refl _, hB⟩
    · refine ⟨A, (readsOut_of_nil hA hpos).1, ?_, hA⟩
      rw [List.append_nil]

end

end WezuBackend.Lib.Pages
