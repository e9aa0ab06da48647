import WezuBackend.Rental.Service
import WezuBackend.Wallet.Service

/-!
# Late fees

`app/services/late_fee_service.py`, and the extensions and late fee waivers of
`app/services/rental_service.py`.  The late fee of a rental is computed anew at every
`apply_late_fee`, from the rental's end or, while it has none, from the clock; `pay_late_fee` and
`review_late_fee_waiver` change the amounts of the same row.  Amounts are exact, in hundredths.
-/

namespace WezuBackend.Rental.LateFees

open Lib.Tables Lib.Atomicity Lib.Atomicity.Tx Core.Base Core.Amounts Core.Letters Core.Floats
open Fleet.Model
open Rental.Service

/-! ## Rows -/

/-- `LateFee.payment_status`. -/
inductive FeeStatus where
  | pending
  /-- `PARTIAL` -/
  | partiallyWaived
  | paid
  | waived
  | other (text : String)
  deriving DecidableEq, Repr

structure LateFee where
  id : ℕ
  rentalId : ℕ
  userId : ℕ
  originalEndDate : ℕ
  daysOverdue : ℤ
  dailyLateFeeRate : ℤ
  baseLateFee : ℤ
  totalLateFee : ℤ
  amountPaid : ℤ := 0
  amountWaived : ℤ := 0
  amountOutstanding : ℤ
  paymentStatus : FeeStatus
  deriving DecidableEq, Repr

inductive ReviewStatus where
  | pending
  | approved
  | rejected
  | other (text : String)
  deriving DecidableEq, Repr

structure LateFeeWaiver where
  id : ℕ
  lateFeeId : ℕ
  userId : ℕ
  requestedWaiverAmount : ℤ
  reason : String
  supportingDocuments : Option String
  status : ReviewStatus
  approvedWaiverAmount : Option ℤ := none
  rejectionReason : Option String := none
  reviewedBy : Option ℕ := none
  reviewedAt : Option ℕ := none
  adminNotes : Option String := none
  deriving DecidableEq, Repr

structure RentalExtension where
  id : ℕ
  rentalId : ℕ
  userId : ℕ
  currentEndDate : ℕ
  requestedEndDate : ℕ
  extensionDays : ℤ
  /-- in rupees -/
  additionalCost : ℚ
  reason : Option String
  status : ReviewStatus
  approvedBy : Option ℕ := none
  approvedAt : Option ℕ := none
  adminNotes : Option String := none
  deriving DecidableEq, Repr

structure RentalPause where
  id : ℕ
  rentalId : ℕ
  userId : ℕ
  pauseStartDate : ℕ
  pauseEndDate : ℕ
  pauseDays : ℤ
  reason : String
  /-- in rupees -/
  dailyPauseCharge : ℚ
  totalPauseCost : ℚ
  status : ReviewStatus
  deriving DecidableEq, Repr

instance : Row LateFee ℕ := ⟨LateFee.id⟩
instance : Row LateFeeWaiver ℕ := ⟨LateFeeWaiver.id⟩
instance : Row RentalExtension ℕ := ⟨RentalExtension.id⟩
instance : Row RentalPause ℕ := ⟨RentalPause.id⟩

structure LateDb where
  fleet : Db
  wallet : Financial.Model.Db
  lateFees : Table LateFee := .empty
  lateFeeWaivers : Table LateFeeWaiver := .empty
  rentalExtensions : Table RentalExtension := .empty
  rentalPauses : Table RentalPause := .empty

abbrev LateTx (α : Type) : Type := Tx Exc LateDb α

/-- A program on the fleet tables. -/
def onFleet {α : Type} (x : FleetTx α) : LateTx α :=
  focus LateDb.fleet (fun fleet db => { db with fleet }) x

/-- A program on the wallet tables. -/
def onWallet {α : Type} (x : Wallet.Service.WalletTx α) : LateTx α :=
  focus LateDb.wallet (fun wallet db => { db with wallet }) x

def saveLateFee (fee : LateFee) : LateTx Unit :=
  update fun db => { db with lateFees := db.lateFees.set fee }

def saveWaiver (waiver : LateFeeWaiver) : LateTx Unit :=
  update fun db => { db with lateFeeWaivers := db.lateFeeWaivers.set waiver }

def saveExtension (extension : RentalExtension) : LateTx Unit :=
  update fun db => { db with rentalExtensions := db.rentalExtensions.set extension }

def feeOf (rentalId : ℕ) (db : LateDb) : Option LateFee :=
  db.lateFees.find? fun fee => fee.rentalId = rentalId

/-! ## Amounts -/

/-- `RentalService._to_money`; a NaN raises where it is first compared. -/
def moneyOf (value : Amount) : Except Exc ℤ :=
  match value with
  | .unparsable => .error (.http 400 "Invalid monetary amount")
  | .nan => .error .invalidOperation
  | .infinity => .error (.http 400 "Invalid monetary amount")
  | .finite coeff exp => Service.toMoney (decimalValue coeff exp)

/-- `_to_money` of a stored amount. -/
def storedMoney (value : ℤ) : Except Exc ℤ := moneyOf (.ofMoney value)

/-- `round(value, 2)`, in hundredths. -/
def round2 (value : ℚ) : ℤ := roundHalfEven (100 * value).num (100 * value).den

/-! ## Dates -/

/-- The year, the month and the day of a number of days after 1970-01-01. -/
def civil (days : ℕ) : ℕ × ℕ × ℕ :=
  -- years begin in March here, so that a leap day is the last day of one
  let z := days + 719468
  let dayOfEra := z % 146097
  let yearOfEra := (dayOfEra - dayOfEra / 1460 + dayOfEra / 36524 - dayOfEra / 146096) / 365
  let dayOfYear := dayOfEra - (365 * yearOfEra + yearOfEra / 4 - yearOfEra / 100)
  let marchMonth := (5 * dayOfYear + 2) / 153
  let month := if marchMonth < 10 then marchMonth + 3 else marchMonth - 9
  (yearOfEra + z / 146097 * 400 + if month ≤ 2 then 1 else 0, month,
    dayOfYear - (153 * marchMonth + 2) / 5 + 1)

/-- The number with leading zeros. -/
def padded (width n : ℕ) : String :=
  "".pushn '0' (width - (toString n).length) ++ toString n

/-- `datetime.isoformat()`. -/
def isoformat (time : ℕ) : String :=
  let date := civil (time / day)
  let seconds := time % day / 1000000
  let micros := time % 1000000
  padded 4 date.1 ++ "-" ++ padded 2 date.2.1 ++ "-" ++ padded 2 date.2.2 ++ "T" ++
    padded 2 (seconds / 3600) ++ ":" ++ padded 2 (seconds / 60 % 60) ++ ":" ++
    padded 2 (seconds % 60) ++ if micros = 0 then "" else "." ++ padded 6 micros

example : isoformat 1709210096000500 = "2024-02-29T12:34:56.000500" := by decide +kernel

/-! ## The fee -/

def rentalGracePeriodHours : ℚ := 2

def lateFeeMultiplier : ℚ := 3 / 2

/-- A number of microseconds, in hours. -/
def inHours (time : ℤ) : ℚ := time / (60 * minute : ℕ)

/-- What `calculate_late_fee` returns; the amounts and the hours are rounded to hundredths. -/
structure FeeDetails where
  lateFee : ℤ := 0
  hoursLate : ℤ := 0
  chargeableHours : ℤ := 0
  hourlyRate : ℤ := 0
  isLate : Bool := false
  inGracePeriod : Bool := false
  deriving DecidableEq, Repr

def calculateLateFee (now : ℕ) (rental : Rental) : FeeDetails :=
  let endTime := rental.endTime.getD now
  if endTime ≤ rental.expectedEndTime then {}
  else
    let hoursLate := inHours (endTime - rental.expectedEndTime)
    if hoursLate ≤ rentalGracePeriodHours then
      { hoursLate := round2 hoursLate, isLate := true, inGracePeriod := true }
    else
      let chargeableHours := hoursLate - rentalGracePeriodHours
      let duration := inHours (rental.expectedEndTime - rental.startTime)
      let totalHours := if duration = 0 then 24 else duration
      let hourlyRate := rental.totalAmount / totalHours
      { lateFee := round2 (chargeableHours * hourlyRate * lateFeeMultiplier)
        hoursLate := round2 hoursLate
        chargeableHours := round2 chargeableHours
        hourlyRate := round2 hourlyRate
        isLate := true }

/-- `int(hours_late // 24)`. -/
def FeeDetails.daysOverdue (details : FeeDetails) : ℤ := details.hoursLate / 2400

/-- The late fee, charged again. -/
def recharge (fee : LateFee) (details : FeeDetails) : LateFee :=
  { fee with
    daysOverdue := details.daysOverdue
    totalLateFee := details.lateFee
    amountOutstanding := details.lateFee - fee.amountPaid - fee.amountWaived }

def newLateFee (rental : Rental) (originalEndDate : ℕ) (details : FeeDetails) (id : ℕ) : LateFee :=
  { id, rentalId := rental.id, userId := rental.userId, originalEndDate
    daysOverdue := details.daysOverdue, dailyLateFeeRate := details.hourlyRate * 24
    baseLateFee := details.lateFee, totalLateFee := details.lateFee
    amountOutstanding := details.lateFee, paymentStatus := .pending }

/-- `apply_late_fee` of a positive fee, up to the commit.  The column `original_end_date` may not be
null. -/
def chargeLateFee (rental : Rental) (details : FeeDetails) : LateTx LateFee := do
  let db ← look
  match feeOf rental.id db with
  | some existingFee =>
    saveLateFee (recharge existingFee details)
    return recharge existingFee details
  | none =>
    let originalEndDate ← demand rental.endTime .integrityError
    update fun db =>
      { db with lateFees := db.lateFees.add (newLateFee rental originalEndDate details) }
    return newLateFee rental originalEndDate details db.lateFees.freshKey

/-- The body of the `try` of `apply_late_fee`. -/
def chargeRental (now rentalId : ℕ) : LateTx (Option LateFee) := do
  let db ← look
  match db.fleet.rentals.get? rentalId with
  | none => return none
  | some rental => do
    let feeDetails := calculateLateFee now rental
    if feeDetails.lateFee ≤ 0 then return none
    else return some (← thenCommit (chargeLateFee rental feeDetails))

def applyLateFee (now rentalId : ℕ) : LateTx (Option LateFee) :=
  handle (chargeRental now rentalId) fun _ => do
    rollback
    return none

def pay (fee : LateFee) : LateFee :=
  { fee with
    amountPaid := fee.amountPaid + fee.amountOutstanding
    amountOutstanding := 0
    paymentStatus := .paid }

/-- The commit is the one at the end of `deduct_balance`. -/
def payLateFee (rentalId : ℕ) : LateTx Bool := thenCommit do
  let db ← look
  match (feeOf rentalId db).filter fun fee => 0 < fee.amountOutstanding with
  | none => return false
  | some fee => do
    saveLateFee (pay fee)
    let _ ← onWallet (Wallet.Service.deductBalance fee.userId (.ofMoney fee.amountOutstanding)
      s!"Late Fee Payment for Rental {rentalId}")
    return true

/-! ## Waivers -/

/-- The unique index on `late_fee_id` refuses a second waiver of one late fee. -/
def requestLateFeeWaiver (rentalId userId : ℕ) (requestedWaiverAmount : Amount) (reason : String)
    (supportingDocuments : Option String := none) : LateTx LateFeeWaiver := thenCommit do
  let db ← look
  let lateFee ← demand (feeOf rentalId db) (.http 404 "No late fees found")
  ensure (lateFee.userId = userId) (.http 403 "Not authorized")
  let outstanding ← lift (storedMoney lateFee.amountOutstanding)
  ensure (0 < outstanding) (.http 400 "No outstanding late fees")
  let requestedAmount ← lift (moneyOf requestedWaiverAmount)
  ensure (0 < requestedAmount) (.http 400 "requested_waiver_amount must be greater than zero")
  ensure (requestedAmount ≤ outstanding) (.http 400 "Waiver amount exceeds outstanding late fee")
  ensure (¬ ∃ w ∈ db.lateFeeWaivers, w.lateFeeId = lateFee.id ∧ w.status = .pending)
    (.http 409 "A waiver request is already pending")
  ensure (¬ ∃ w ∈ db.lateFeeWaivers, w.lateFeeId = lateFee.id) .integrityError
  let waiver (id : ℕ) : LateFeeWaiver :=
    { id, lateFeeId := lateFee.id, userId, requestedWaiverAmount := requestedAmount, reason
      supportingDocuments, status := .pending }
  update fun db => { db with lateFeeWaivers := db.lateFeeWaivers.add waiver }
  return waiver db.lateFeeWaivers.freshKey

def waive (lateFee : LateFee) (amountWaived outstanding targetAmount : ℤ) : LateFee :=
  { lateFee with
    amountWaived := amountWaived + targetAmount
    amountOutstanding := outstanding - targetAmount
    paymentStatus := if outstanding - targetAmount = 0 then .waived else .partiallyWaived }

def reviewLateFeeWaiver (now waiverId reviewerId : ℕ) (approve : Bool)
    (approvedWaiverAmount : Option Amount := none) (adminNotes : Option String := none) :
    LateTx LateFeeWaiver := thenCommit do
  let db ← look
  let waiver ← demand (db.lateFeeWaivers.get? waiverId) (.http 404 "Waiver request not found")
  ensure (waiver.status = .pending) (.http 400 "Waiver request already processed")
  let lateFee ← demand (db.lateFees.get? waiver.lateFeeId) (.http 404 "Late fee record not found")
  let waiver :=
    { waiver with reviewedBy := some reviewerId, reviewedAt := some now, adminNotes }
  if approve then do
    let targetAmount ← lift <|
      moneyOf (approvedWaiverAmount.getD (.ofMoney waiver.requestedWaiverAmount))
    ensure (0 < targetAmount) (.http 400 "Approved waiver amount must be greater than zero")
    let outstanding ← lift (storedMoney lateFee.amountOutstanding)
    ensure (targetAmount ≤ outstanding) (.http 400 "Approved waiver exceeds outstanding amount")
    let waiver := { waiver with status := .approved, approvedWaiverAmount := some targetAmount }
    let amountWaived ← lift (storedMoney lateFee.amountWaived)
    saveLateFee (waive lateFee amountWaived outstanding targetAmount)
    saveWaiver waiver
    return waiver
  else do
    let waiver :=
      { waiver with
        status := .rejected
        rejectionReason := some ((truthy adminNotes).getD "Waiver request rejected") }
    saveWaiver waiver
    return waiver

/-! ## Extensions -/

/-- A duration in whole days, rounded up. -/
def wholeDays (time : ℤ) : ℤ := ⌈(time : ℚ) / day⌉

def requestExtension (rentalId userId requestedEndDate : ℕ) (reason : Option String) :
    LateTx RentalExtension := thenCommit do
  let db ← look
  let rental ← demand ((db.fleet.rentals.get? rentalId).filter fun r => r.userId = userId)
    (.http 404 "Rental not found")
  ensure (rental.status = .active) (.http 400 "Rental is not active")
  let endTime ← demand rental.endTime (.http 400 "Rental has no scheduled end time")
  let extensionDays := wholeDays (requestedEndDate - endTime)
  ensure (0 < extensionDays) (.http 400 "Extension date must be after current end date")
  ensure (¬ ∃ e ∈ db.rentalExtensions, e.rentalId = rentalId ∧ e.status = .pending)
    (.http 409 "An extension request is already pending")
  let originalDays := max 1 (wholeDays (rental.expectedEndTime - rental.startTime))
  let totalAmount ← lift (Service.toMoney rental.totalAmount)
  let computedDailyRate := decimal28 ((totalAmount : ℚ) / 100 / originalDays)
  let additionalCost ← lift (Service.toMoney (decimal28 (computedDailyRate * extensionDays)))
  let extension (id : ℕ) : RentalExtension :=
    { id, rentalId, userId, currentEndDate := endTime, requestedEndDate, extensionDays
      additionalCost := (additionalCost : ℚ) / 100, reason, status := .pending }
  update fun db => { db with rentalExtensions := db.rentalExtensions.add extension }
  onFleet (addRentalEvent rental.id "extension_requested" (some rental.startStationId)
    (some rental.batteryId) (some s!"Extension requested until {isoformat requestedEndDate}"))
  return extension db.rentalExtensions.freshKey

def reviewExtension (now extensionId reviewerId : ℕ) (approve : Bool)
    (adminNotes : Option String := none) : LateTx RentalExtension := thenCommit do
  let db ← look
  let extension ← demand (db.rentalExtensions.get? extensionId)
    (.http 404 "Extension request not found")
  ensure (extension.status = .pending) (.http 400 "Extension request already processed")
  let rental ← demand (db.fleet.rentals.get? extension.rentalId) (.http 404 "Rental not found")
  let extension :=
    { extension with
      status := if approve then .approved else .rejected
      approvedBy := some reviewerId, approvedAt := some now, adminNotes }
  let endTime := if approve then some extension.requestedEndDate else rental.endTime
  onFleet (saveRental { rental with endTime })
  onFleet <| addRentalEvent rental.id
    (if approve then "extension_approved" else "extension_rejected") (some rental.startStationId)
    (some rental.batteryId) <| some <|
      if approve then s!"Extension approved to {isoformat extension.requestedEndDate}"
      else (truthy adminNotes).getD "Extension request rejected"
  saveExtension extension
  return extension

/-! ## Requests -/

/-- The operations on late fees and on the ends of rentals, with their arguments. -/
inductive Op where
  | applyLateFee (now rentalId : ℕ)
  | payLateFee (rentalId : ℕ)
  | requestLateFeeWaiver (rentalId userId : ℕ) (requestedWaiverAmount : Amount) (reason : String)
      (supportingDocuments : Option String)
  | reviewLateFeeWaiver (now waiverId reviewerId : ℕ) (approve : Bool)
      (approvedWaiverAmount : Option Amount) (adminNotes : Option String)
  | requestExtension (rentalId userId requestedEndDate : ℕ) (reason : Option String)
  | reviewExtension (now extensionId reviewerId : ℕ) (approve : Bool) (adminNotes : Option String)
  | returnBattery (now rentalId stationId : ℕ)

/-- The program of an operation; what it returns is dropped. -/
def program [Casing] : Op → LateTx Unit
  | .applyLateFee now k => do let _ ← applyLateFee now k
  | .payLateFee k => do let _ ← payLateFee k
  | .requestLateFeeWaiver k u a r d => do let _ ← requestLateFeeWaiver k u a r d
  | .reviewLateFeeWaiver now k u b a n => do let _ ← reviewLateFeeWaiver now k u b a n
  | .requestExtension k u t r => do let _ ← requestExtension k u t r
  | .reviewExtension now k u b n => do let _ ← reviewExtension now k u b n
  | .returnBattery now k s => do let _ ← onFleet (returnBattery now k s)

/-- The stored state after an operation. -/
def step [Casing] (db : LateDb) (op : Op) : LateDb := ((program op).call db).2

end WezuBackend.Rental.LateFees
