import WezuBackend.Dealers.Ledger
import WezuBackend.Lib.Pages

/-!
# The pages of the dealer ledger

Each page of the list is merged from as many rentals and as many commissions as it has room for, and
cut to its size; the next page goes on after those that were read, not after those that were shown.
So the pages lose entries unless there is one page, or entries of one kind
(`ledger_pages_iff`).
-/

namespace WezuBackend.Dealers.LedgerPages

open Lib.Pages Lib.Sorting Dealers.Ledger

/-! ## What there is to show -/

def matchingRentals (engine : Engine) (db : Db) (dealerId : ℕ) (f : Filters) : List Rental :=
  if f.wants "Rental Income" then
    db.rentals.filter fun r =>
      r.startStationId ∈ chosenStations db dealerId f ∧ rentalAsked engine db f r
  else []

def matchingCommissions (db : Db) (dealerId : ℕ) (f : Filters) : List CommissionLog :=
  if f.wants "Commission" then
    db.commissions.filter fun c => c.dealerId = some dealerId ∧ commissionAsked f c
  else []

def matching (engine : Engine) (db : Db) (dealerId : ℕ) (f : Filters) : List LedgerEntry :=
  (matchingRentals engine db dealerId f).map (rentalEntry db) ++
    (matchingCommissions db dealerId f).map commissionEntry

/-- The `i`-th page, of `limit` entries. -/
def pageOf (engine : Engine) (db : Db) (dealerId : ℕ) (f : Filters) (limit i : ℕ) :
    List LedgerEntry :=
  (getLedgerEntries engine db dealerId f limit (i * limit)).data

/-- The pages up to the first empty one have every entry that matches once, the latest first. -/
def PagesComplete (engine : Engine) (db : Db) (dealerId : ℕ) (f : Filters) (limit : ℕ) : Prop :=
  ∃ all, ReadsOut (pageOf engine db dealerId f limit) all ∧
    all.Perm (matching engine db dealerId f) ∧ Descending LedgerEntry.date all

/-! ## The pages as merged ones -/

def entriesOf {α : Type} (date : α → ℤ) (entry : α → LedgerEntry) (rows : List α) :
    List LedgerEntry :=
  (rows.mergeSort fun x y => date y ≤ date x).map entry

section

variable {α : Type} {date : α → ℤ} {entry : α → LedgerEntry}

theorem map_page (rows : List α) (skip limit : ℕ) :
    (page date rows skip limit).map entry = slice (entriesOf date entry rows) skip limit := by
  rw [page, slice, entriesOf, List.map_take, List.map_drop]

theorem descending_entriesOf (date : α → ℤ) (entry : α → LedgerEntry)
    (h : ∀ x, (entry x).date = date x) (rows : List α) :
    Descending LedgerEntry.date (entriesOf date entry rows) := by
  unfold Descending entriesOf
  rw [List.pairwise_map]
  refine (pairwise_descending date rows).imp fun {x y} hxy => ?_
  rw [h, h]
  exact hxy

theorem perm_entriesOf (date : α → ℤ) (rows : List α) :
    (entriesOf date entry rows).Perm (rows.map entry) :=
  (List.mergeSort_perm rows _).map entry

theorem length_entriesOf (rows : List α) : (entriesOf date entry rows).length = rows.length := by
  rw [entriesOf, List.length_map, List.length_mergeSort]

theorem entriesOf_eq_nil {rows : List α} : entriesOf date entry rows = [] ↔ rows = [] := by
  rw [← List.length_eq_zero_iff, length_entriesOf, List.length_eq_zero_iff]

@[simp] theorem entriesOf_nil : entriesOf date entry [] = [] := entriesOf_eq_nil.mpr rfl

end

section

variable {engine : Engine} {db : Db} {dealerId : ℕ} {f : Filters} {limit : ℕ}

/-- For a dealer with stations, a page is merged from the slices of the two lists. -/
theorem pageOf_eq (hstations : chosenStations db dealerId f ≠ []) :
    pageOf engine db dealerId f limit = mergedPage LedgerEntry.date
      (entriesOf Rental.createdAt (rentalEntry db) (matchingRentals engine db dealerId f))
      (entriesOf CommissionLog.createdAt commissionEntry (matchingCommissions db dealerId f))
      limit := by
  funext i
  have hrentals : rentalEntries engine db (chosenStations db dealerId f) f limit (i * limit) =
      slice (entriesOf Rental.createdAt (rentalEntry db) (matchingRentals engine db dealerId f))
        (i * limit) limit := by
    unfold rentalEntries matchingRentals
    split_ifs
    · exact map_page _ _ _
    · rw [entriesOf_nil, slice_nil]
  have hcommissions : commissionEntries db dealerId f limit (i * limit) =
      slice (entriesOf CommissionLog.createdAt commissionEntry (matchingCommissions db dealerId f))
        (i * limit) limit := by
    unfold commissionEntries matchingCommissions
    split_ifs
    · exact map_page _ _ _
    · rw [entriesOf_nil, slice_nil]
  unfold pageOf getLedgerEntries mergedPage
  rw [← hrentals, ← hcommissions, if_neg (by simpa using hstations)]

theorem pageOf_of_noStations (h : chosenStations db dealerId f = []) (i : ℕ) :
    pageOf engine db dealerId f limit i = [] := by
  unfold pageOf getLedgerEntries
  rw [h]
  rfl

theorem length_pageOf_le (i : ℕ) : (pageOf engine db dealerId f limit i).length ≤ limit := by
  simp only [pageOf, getLedgerEntries]
  split_ifs
  · exact Nat.zero_le _
  · exact List.length_take_le _ _

theorem matchingRentals_of_noStations (engine : Engine) (h : chosenStations db dealerId f = []) :
    matchingRentals engine db dealerId f = [] := by
  unfold matchingRentals
  split_ifs
  · refine List.filter_eq_nil_iff.mpr fun r _ hr => ?_
    rw [h, decide_eq_true_eq] at hr
    cases hr.1
  · rfl

theorem perm_matching (engine : Engine) (l l' : List LedgerEntry)
    (hl : l.Perm ((matchingRentals engine db dealerId f).map (rentalEntry db)))
    (hl' : l'.Perm ((matchingCommissions db dealerId f).map commissionEntry)) :
    (l ++ l').Perm (matching engine db dealerId f) := hl.append hl'

end

/-- **The pages are complete** exactly if there are stations to list or no commission matches, and
one page holds everything or all that matches is of one kind. -/
theorem ledger_pages_iff (engine : Engine) (db : Db) (dealerId : ℕ) (f : Filters) (limit : ℕ) :
    PagesComplete engine db dealerId f limit ↔
      (chosenStations db dealerId f ≠ [] ∨ matchingCommissions db dealerId f = []) ∧
        ((matchingRentals engine db dealerId f).length +
            (matchingCommissions db dealerId f).length ≤ limit ∨
          0 < limit ∧ (matchingRentals engine db dealerId f = [] ∨
            matchingCommissions db dealerId f = [])) := by
  by_cases hstations : chosenStations db dealerId f = []
  · have hrentals := matchingRentals_of_noStations engine hstations
    rw [or_iff_right (not_not_intro hstations), hrentals]
    constructor
    · rintro ⟨all, ⟨m, hfull, -, rfl⟩, hperm, -⟩
      obtain rfl : m = 0 := Nat.eq_zero_of_not_pos fun hm =>
        hfull 0 hm (pageOf_of_noStations hstations 0)
      have hnone : matchingCommissions db dealerId f = [] := by
        have hempty := hperm.symm.eq_nil
        simpa [matching, hrentals] using hempty
      exact ⟨hnone, .inl (by simp [hnone])⟩
    · rintro ⟨hnone, -⟩
      refine ⟨[], ⟨0, by simp, pageOf_of_noStations hstations 0, rfl⟩, ?_, .nil⟩
      simp [matching, hrentals, hnone]
  · rw [and_iff_right (Or.inl hstations)]
    have hiff := merged_pages_iff
      (descending_entriesOf Rental.createdAt (rentalEntry db) (fun _ => rfl)
        (matchingRentals engine db dealerId f))
      (descending_entriesOf CommissionLog.createdAt commissionEntry (fun _ => rfl)
        (matchingCommissions db dealerId f)) limit
    rw [length_entriesOf, length_entriesOf, entriesOf_eq_nil, entriesOf_eq_nil,
      ← pageOf_eq hstations] at hiff
    rw [← hiff]
    have hperm := perm_matching engine _ _
      (perm_entriesOf Rental.createdAt (matchingRentals engine db dealerId f))
      (perm_entriesOf CommissionLog.createdAt (matchingCommissions db dealerId f))
    constructor
    · rintro ⟨all, hall, h, hsorted⟩
      exact ⟨all, hall, h.trans hperm.symm, hsorted⟩
    · rintro ⟨all, hall, h, hsorted⟩
      exact ⟨all, hall, h.trans hperm, hsorted⟩

/-- One rental and one commission of one dealer. -/
def twoKinds : Db where
  stations := ⟨[⟨1, "East", some 4⟩], by decide⟩
  rentals := ⟨[⟨1, 9, 3, 1, 0, none, 50, .active, 20⟩], by decide⟩
  commissions := ⟨[⟨1, some 4, 5, "pending", 10⟩], by decide⟩

/-- On pages of one entry the commission is never shown. -/
theorem commission_lost : ¬ PagesComplete sampleEngine twoKinds 4 {} 1 := by
  rintro ⟨all, ⟨m, hfull, -, rfl⟩, hperm, -⟩
  have hnext : pageOf sampleEngine twoKinds 4 {} 1 1 = [] := by decide +kernel
  have hm : m = 0 ∨ m = 1 := by
    by_contra hm
    exact hfull 1 (by omega) hnext
  have hlen : (matching sampleEngine twoKinds 4 {}).length = 2 := by decide +kernel
  have hfirst : (pageOf sampleEngine twoKinds 4 {} 1 0).length ≤ 1 := length_pageOf_le 0
  have htotal := hperm.length_eq
  rcases hm with rfl | rfl
  · rw [hlen] at htotal
    cases htotal
  · rw [hlen, List.range_one, List.flatMap_singleton] at htotal
    omega

end WezuBackend.Dealers.LedgerPages
