import WezuBackend.Rental.LateFeeBalance
import WezuBackend.Lib.UniqueColumns

/-!
# The late fee of a rental

`apply_late_fee` of a late rental, called any number of times.  A late fee that is there is charged
again; a first one takes its `original_end_date`, which may not be null, from the end of the rental.
While the rental is still out it has none, and the integrity error is swallowed.  So the late fee is
recorded if and only if the rental has ended or has a late fee already (`recorded_iff`).
-/

namespace WezuBackend.Rental.AppliedFees

open Lib.Tables Lib.Runs Fleet.Model Rental.Service
open Rental.LateFees Rental.LateFeeBalance

/-- The unique index on `late_fees.rental_id`. -/
def FeeIndex (db : LateDb) : Prop := db.lateFees.UniqueOn LateFee.rentalId

def feesOf (rentalId : ℕ) (db : LateDb) : List LateFee :=
  db.lateFees.filter fun fee => fee.rentalId = rentalId

/-- The store after a call of `apply_late_fee`, given by its time and its rental. -/
def applied (db : LateDb) (call : ℕ × ℕ) : LateDb := ((applyLateFee call.1 call.2).call db).2

/-- The call returns a late fee, the only one of the rental, and further calls leave it at one. -/
def Recorded (now rentalId : ℕ) (db : LateDb) : Prop :=
  (∃ fee, ((applyLateFee now rentalId).call db).1 = .ok (some fee) ∧
    feesOf rentalId (applied db (now, rentalId)) = [fee]) ∧
  ∀ calls, (feesOf rentalId (run applied (applied db (now, rentalId)) calls)).length = 1

/-! ## One late fee -/

variable {db : LateDb} {fee : LateFee}

variable {rentalId : ℕ}

theorem feeOf_some
    (h : feeOf rentalId db = some fee) : fee ∈ db.lateFees ∧ fee.rentalId = rentalId := by
  unfold feeOf at h
  exact Table.find?_spec h

theorem feeOf_none (h : feeOf rentalId db = none)
    (hfee : fee ∈ db.lateFees) : fee.rentalId ≠ rentalId := by
  simpa using Table.find?_eq_none.mp h fee hfee

theorem applied_keeps (h : FeeIndex db) (call : ℕ × ℕ) :
    FeeIndex (applied db call) ∧ ∀ k, (∃ fee ∈ db.lateFees, fee.rentalId = k) →
      ∃ fee ∈ (applied db call).lateFees, fee.rentalId = k := by
  obtain ⟨now, rentalId⟩ := call
  unfold FeeIndex applied
  dsimp only
  rcases applyLateFee_cases now rentalId db with ⟨hsame, -⟩ |
    ⟨rental, hrental, -, ⟨fee, hfee, hrows⟩ | ⟨endDate, hfee, hrows⟩⟩
  · rw [hsame]
    exact ⟨h, fun _ hk => hk⟩
  · obtain ⟨hmem, -⟩ := feeOf_some hfee
    rw [hrows]
    refine ⟨h.set hmem rfl rfl, ?_⟩
    rintro k ⟨x, hx, rfl⟩
    by_cases hkey : Row.key x = Row.key (recharge fee (calculateLateFee now rental))
    · obtain rfl := Table.eq_of_key hx hmem hkey
      exact ⟨_, Table.mem_set.mpr (.inr ⟨rfl, x, hx, rfl⟩), rfl⟩
    · exact ⟨x, Table.mem_set.mpr (.inl ⟨hx, hkey⟩), rfl⟩
  · obtain rfl : rental.id = rentalId := (Table.get?_eq_some.mp hrental).2
    rw [hrows]
    refine ⟨h.add fun x hx => feeOf_none hfee hx, ?_⟩
    rintro k ⟨x, hx, rfl⟩
    exact ⟨x, Table.mem_add.mpr (.inl hx), rfl⟩

theorem one_fee (h : FeeIndex db) {k : ℕ}
    (hfee : ∃ fee ∈ db.lateFees, fee.rentalId = k) (calls : List (ℕ × ℕ)) :
    (feesOf k (run applied db calls)).length = 1 := by
  have hkept : FeeIndex (run applied db calls) ∧
      ∃ fee ∈ (run applied db calls).lateFees, fee.rentalId = k :=
    run_invariant (I := fun db => FeeIndex db ∧ ∃ fee ∈ db.lateFees, fee.rentalId = k)
      (fun db call hdb => ⟨(applied_keeps hdb.1 call).1, (applied_keeps hdb.1 call).2 k hdb.2⟩)
      ⟨h, hfee⟩ calls
  obtain ⟨hindex, fee, hmem, rfl⟩ := hkept
  unfold feesOf
  rw [hindex.filter_eq hmem]
  rfl

theorem recorded_of_call (h : FeeIndex db) {now rentalId : ℕ}
    {db' : LateDb} (hcall : (applyLateFee now rentalId).call db = (.ok (some fee), db'))
    (hmem : fee ∈ db'.lateFees) (hrental : fee.rentalId = rentalId) :
    Recorded now rentalId db := by
  have hafter : applied db (now, rentalId) = db' := by
    unfold applied
    rw [hcall]
  have hindex : FeeIndex db' := by
    rw [← hafter]
    exact (applied_keeps h (now, rentalId)).1
  subst hrental
  unfold Recorded
  rw [hafter, hcall]
  exact ⟨⟨fee, rfl, hindex.filter_eq hmem⟩, one_fee hindex ⟨fee, hmem, rfl⟩⟩

/-- **The late fee of a late rental is recorded** if and only if the rental has ended, or has a late
fee from before. -/
theorem recorded_iff {db : LateDb} (h : FeeIndex db) {now : ℕ} {rental : Rental}
    (hrental : db.fleet.rentals.get? rental.id = some rental)
    (hpositive : 0 < (calculateLateFee now rental).lateFee) :
    Recorded now rental.id db ↔
      rental.endTime ≠ none ∨ ∃ fee ∈ db.lateFees, fee.rentalId = rental.id := by
  rcases hfee : feeOf rental.id db with _ | fee
  · rcases hend : rental.endTime with _ | endDate
    · have hcall := apply_raised hrental hpositive (charge_raises hfee hend _)
      refine iff_of_false ?_ ?_
      · rintro ⟨⟨fee, hok, -⟩, -⟩
        rw [hcall] at hok
        cases hok
      · rintro (hout | ⟨fee, hmem, hsame⟩)
        · exact hout rfl
        · exact feeOf_none hfee hmem hsame
    · have hcall := apply_charged hrental hpositive (charge_of_none hfee hend _)
      refine iff_of_true (recorded_of_call h hcall ?_ rfl) (.inl (Option.some_ne_none endDate))
      exact (Table.mem_add_mk fun _ => rfl).mpr (.inr rfl)
  · obtain ⟨hmem, hsame⟩ := feeOf_some hfee
    have hcall := apply_charged hrental hpositive (charge_of_some hfee _)
    refine iff_of_true (recorded_of_call h hcall ?_ hsame) (.inr ⟨fee, hmem, hsame⟩)
    exact Table.mem_set.mpr (.inr ⟨rfl, fee, hmem, rfl⟩)

/-! ## An example -/

/-- A rental of one day at one rupee an hour, with an end or without. -/
def overdueRental (endTime : Option ℕ) : Rental :=
  { id := 61, userId := 4, batteryId := 7, startStationId := 3, startTime := 0
    expectedEndTime := day, endTime, totalAmount := 24, securityDeposit := 0, status := .active }

def overdueStore (endTime : Option ℕ) : LateDb where
  fleet := { rentals := ⟨[overdueRental endTime], List.nodup_singleton _⟩ }
  wallet := .ofWallets .empty .empty

theorem overdueStore_index (endTime : Option ℕ) : FeeIndex (overdueStore endTime) :=
  Table.UniqueOn.empty

theorem recorded_iff_sample :
    Recorded (3 * day) 61 (overdueStore (some (2 * day))) := by
  have hfound : (overdueStore (some (2 * day))).fleet.rentals.get? 61 =
      some (overdueRental (some (2 * day))) := rfl
  have hpositive :
      0 < (calculateLateFee (3 * day) (overdueRental (some (2 * day)))).lateFee := by
    decide +kernel
  exact (recorded_iff (overdueStore_index _) hfound hpositive).mpr
    (.inl (Option.some_ne_none _))

/-- The rental is still out after three days: 69 rupees are due, and nothing is recorded. -/
theorem still_out_unrecorded : ¬ ∀ (db : LateDb) (now : ℕ) (rental : Rental), FeeIndex db →
    db.fleet.rentals.get? rental.id = some rental → 0 < (calculateLateFee now rental).lateFee →
      Recorded now rental.id db := by
  intro hclaim
  have hpositive : 0 < (calculateLateFee (3 * day) (overdueRental none)).lateFee := by
    decide +kernel
  have hfound : (overdueStore none).fleet.rentals.get? (overdueRental none).id =
      some (overdueRental none) := rfl
  have hraised := apply_raised hfound hpositive (charge_raises rfl rfl _)
  obtain ⟨⟨fee, hok, -⟩, -⟩ := hclaim (overdueStore none) (3 * day) (overdueRental none)
    (overdueStore_index none) hfound hpositive
  rw [hraised] at hok
  cases hok

end WezuBackend.Rental.AppliedFees
