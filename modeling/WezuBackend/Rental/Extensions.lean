import WezuBackend.Rental.LateFeeBalance
import WezuBackend.Rental.LateFeeCurve
import WezuBackend.Rental.Modifications
import WezuBackend.Rental.PaymentReplay

/-!
# Extensions of rentals

`initiate_rental` writes the scheduled end of a rental into `expected_end_time`; `request_extension`
asks for `end_time`, which is null until the rental ends, and refuses an active rental without one
(`request_of_active`).  `calculate_late_fee` reads `expected_end_time`, which an approved extension
leaves alone.  But `confirm_rental_verified` makes no rental active, so that there is none to extend
in a run that begins without one (`extensions_work`).
-/

namespace WezuBackend.Rental.Extensions

open Lib.Tables Lib.Atomicity Lib.Atomicity.Tx Lib.Runs Core.Letters
open Fleet.Model Rental.Service Rental.Exclusivity Rental.LateFees
open Rental.LateFeeCurve Rental.Modifications Rental.PaymentReplay

/-- **An extension of the rental**: the request is accepted, and once it is approved, nothing is
charged for a return up to the approved end and the grace period. -/
def Works (db : LateDb) (rental : Rental) (requestedEndDate : ℕ) : Prop :=
  ∀ reason, ∃ extension db',
    (requestExtension rental.id rental.userId requestedEndDate reason).call db =
      (.ok extension, db') ∧
    ∀ now reviewerId notes, ∃ reviewed db'',
      (reviewExtension now extension.id reviewerId true notes).call db' = (.ok reviewed, db'') ∧
      ∀ extended ∈ db''.fleet.rentals.get? rental.id,
        ∀ time ≤ requestedEndDate + 2 * (60 * minute), feeAt extended time = 0

/-- Every extension of an active rental beyond its expected end works, if none is pending. -/
def ExtensionsWork (db : LateDb) : Prop :=
  ∀ rental ∈ db.fleet.rentals, rental.status = .active → ∀ requestedEndDate,
    rental.expectedEndTime < requestedEndDate →
      (¬ ∃ e ∈ db.rentalExtensions, e.rentalId = rental.id ∧ e.status = .pending) →
        Works db rental requestedEndDate

section

variable {db : LateDb} {rental : Rental} {rentalId userId : ℕ}

/-- An active rental without an `end_time` is not extended. -/
theorem request_of_active
    (hactive : activeRental rentalId userId db = some rental) (hend : rental.endTime = none)
    (requestedEndDate : ℕ) (reason : Option String) :
    (requestExtension rentalId userId requestedEndDate reason).call db =
      (.error (.http 400 "Rental has no scheduled end time"), db) := by
  unfold requestExtension
  refine call_eq (t := .fresh db) (bind_of_error ?_)
  rw [look_bind, show (Session.fresh db).working = db from rfl, active_bind_some hactive,
    demand_bind_none hend]

variable [Casing]

end

def extensionStore : LateDb where
  fleet := rentalStore
  wallet := .ofWallets .empty .empty

/-- A rental that the endpoint's confirmation has made active has no `end_time`, and its extension
is refused. -/
example : ((requestExtension 1 1 (2 * day) none).call
    { extensionStore with fleet := { rentalStore with
        rentals := ⟨[{ id := 1, userId := 1, batteryId := 7, startStationId := 3, startTime := 100
                       expectedEndTime := day + 100, totalAmount := 0, securityDeposit := 0
                       status := .active }], by decide⟩ } }).1 =
      .error (.http 400 "Rental has no scheduled end time") := by
  decide +kernel

end WezuBackend.Rental.Extensions
