import WezuBackend.Fleet.Consistency
import Mathlib.Data.Rat.Floor

/-!
# Rentals

`app/services/rental_service.py` and `execute_swap` of `app/services/swap_service.py`.  A rental is
`pending_payment` from `initiate_rental` until `confirm_rental_verified` finds it paid or
`cleanup_stale_pending_rentals` cancels it; then it is active until `return_battery`, and
`execute_swap` may point it to another battery.  Every operation moves the battery with
`apply_battery_transition` and commits at its end.
-/

namespace WezuBackend.Rental.Service

open Lib.Tables Lib.Atomicity.Tx Core.Base Core.Amounts Core.Text Core.Letters
open Fleet.Model Fleet.Consistency

/-! ## Settings -/

def rentalPaymentPendingTimeoutMinutes : ℕ := 30

def maxActiveRentalsPerUser : ℕ := 1

def minBatterySocForRental : ℤ := 20

def minute : ℕ := 60 * 1000000

def day : ℕ := 24 * 60 * minute

/-- `datetime.max`. -/
def lastTime : ℕ := 253402300799999999

/-! ## Arguments -/

structure RentalCreate where
  batteryId : ℕ
  startStationId : ℕ
  durationDays : ℤ := 1
  promoCode : Option String := none

/-- A payment as the gateway reports it; a key that is missing is `none`. -/
structure GatewayPayment where
  orderId : Option String
  status : Option String
  amount : Option Amount
  noteRentalId : Option String
  noteUserId : Option String

/-- What `confirm_rental_verified` finds outside the store.  As the source stands `PaymentService`
has no `fetch_payment` and `PaymentTransaction` no `reference_type` (`PaymentSide.asItStands`), and
to read one raises. -/
structure PaymentSide where
  signatureOk : Bool
  fetchPayment : Option GatewayPayment
  hasReferenceColumns : Bool

def PaymentSide.asItStands (signatureOk : Bool) : PaymentSide := ⟨signatureOk, none, false⟩

/-! ## Amounts -/

/-- Rounded to whole hundredths, a tie away from zero. -/
def roundHalfUp (value : ℚ) : ℤ :=
  if 0 ≤ value then ⌊100 * value + 1 / 2⌋ else -⌊100 * -value + 1 / 2⌋

/-- `RentalService._to_money` of a finite number. -/
def toMoney (value : ℚ) : Except Exc ℤ :=
  if Fits (roundHalfUp value) then .ok (roundHalfUp value)
  else .error (.http 400 "Invalid monetary amount")

/-- `coeff * 10 ^ exp`. -/
def decimalValue (coeff exp : ℤ) : ℚ :=
  if 0 ≤ exp then coeff * 10 ^ exp.toNat else coeff / 10 ^ (-exp).toNat

/-- `_to_money` of an amount in paise; a NaN raises where it is first compared. -/
def paidMoney (paise : Amount) : Except Exc ℤ :=
  match paise.divHundred with
  | .unparsable => .error .invalidOperation
  | .nan => .error .invalidOperation
  | .infinity => .error (.http 400 "Invalid monetary amount")
  | .finite coeff exp => toMoney (decimalValue coeff exp)

/-! ## Writes -/

def saveRental (rental : Rental) : FleetTx Unit :=
  update fun db => { db with rentals := db.rentals.set rental }

def addRentalEvent (rentalId : ℕ) (eventType : String) (stationId batteryId : Option ℕ)
    (description : Option String) : FleetTx Unit :=
  update fun db =>
    { db with
      rentalEvents := db.rentalEvents.add fun id =>
        { id, rentalId, eventType, stationId, batteryId, description } }

def safeCommit : FleetTx Unit :=
  handle commitAll fun e => rollback >>= fun _ => raise e

/-- The statuses `active` and `pending_payment`. -/
def isLive (rental : Rental) : Prop := rental.status = .active ∨ rental.status = .pendingPayment

instance (rental : Rental) : Decidable (isLive rental) := by
  unfold isLive
  infer_instance

section

variable [Casing]

/-! ## Clean-up -/

/-- The battery of a cancelled rental goes back to its station. -/
def releaseReserved (now : ℕ) (rental : Rental) (battery : Option Battery) : FleetTx Unit :=
  match battery with
  | none => pure ()
  | some battery =>
    if battery.status = .reserved then do
      let _ ← applyBatteryTransition now battery
        { toStatus := some .available
          toLocationType := some .station
          toLocationId := some (some rental.startStationId)
          eventType := "rental_reservation_timeout_release"
          eventDescription := s!"Released reservation for expired rental #{rental.id}"
          actorId := some rental.userId }
    else pure ()

/-- The body of the loop over the stale rentals. -/
def cancelStale (now : ℕ) (rental : Rental) : FleetTx Unit := do
  saveRental { rental with status := .cancelled, endTime := some now }
  addRentalEvent rental.id "payment_timeout_cancelled" (some rental.startStationId)
    (some rental.batteryId)
    (some "Pending payment timed out; rental cancelled and battery released")
  let db ← query
  releaseReserved now rental (db.batteries.get? rental.batteryId)

def staleRentals (now : ℕ) (userId : Option ℕ) (db : Db) : List Rental :=
  let cutoff := now - (max 1 rentalPaymentPendingTimeoutMinutes) * minute
  db.rentals.filter fun r => r.status = .pendingPayment ∧ r.startTime < cutoff ∧
    ∀ u ∈ userId, r.userId = u

/-- The clean-up before its commit; the number of rentals cancelled. -/
def cancelStales (now : ℕ) (userId : Option ℕ) : FleetTx ℕ := do
  let db ← query
  (staleRentals now userId db).forM (cancelStale now)
  return (staleRentals now userId db).length

def cleanupStalePendingRentals (now : ℕ) (userId : Option ℕ := none) : FleetTx ℕ := do
  let cancelled ← cancelStales now userId
  unlessSkipped (cancelled = 0) safeCommit
  return cancelled

/-! ## Prices -/

structure PriceDetails where
  dailyRate : ℚ
  durationDays : ℤ
  rentalCost : ℚ
  discount : ℚ
  deposit : ℚ
  totalPayable : ℚ
  promoCodeId : Option ℕ

def checkPromo (now : ℕ) (durationDays : ℤ) (totalRent : ℚ) (promo : PromoCode) : FleetTx Unit := do
  ensure promo.isActive (.http 400 "Promo code is inactive")
  ensure (promo.validFrom ≤ now) (.http 400 "Promo code is not yet active")
  ensure (∀ u ∈ promo.validUntil, now ≤ u) (.http 400 "Promo code has expired")
  ensure (0 < promo.usageLimit → promo.usageCount < promo.usageLimit)
    (.http 400 "Promo code usage limit reached")
  ensure (max 0 promo.minRentalDays ≤ durationDays)
    (.http 400 s!"Promo code requires a minimum rental of {promo.minRentalDays} day(s)")
  ensure (promo.minOrderAmount ≤ totalRent)
    (.http 400 s!"Promo code requires a minimum order amount of {promo.minOrderAmount}")

/-- The discount.  The columns of a promo code are floats and the rent is a `Decimal`, so a discount
that is not nothing or the whole rent raises. -/
def promoDiscount (totalRent : ℚ) (promo : PromoCode) : Except Exc ℚ :=
  if 0 < promo.discountAmount ∨ 0 < promo.discountPercentage then .error .typeError
  else
    let capped := promo.maxDiscountAmount.filter (· < 0)
    if totalRent < capped.getD 0 then .ok totalRent
    else if capped.isSome then .error .typeError
    else .ok 0

def promoOf (now : ℕ) (durationDays : ℤ) (totalRent : ℚ) (promoCode : Option String) :
    FleetTx (ℚ × Option ℕ) :=
  match truthy promoCode with
  | none => pure (0, none)
  | some code => do
    ensure (normal code ≠ "") (.http 400 "promo_code cannot be empty")
    let db ← query
    let promo ← demand (db.promoCodes.find? fun p => sqlUpper p.code = normal code)
      (.http 400 "Invalid promo code")
    checkPromo now durationDays totalRent promo
    let discount ← lift (promoDiscount totalRent promo)
    return (discount, some promo.id)

/-- The price per day of the battery's SKU. -/
def dailyRate (db : Db) (battery : Battery) : ℚ :=
  match (battery.skuId.filter (· ≠ 0)).bind db.batteryCatalog.get? with
  | some catalog => catalog.pricePerDay
  | none => 0

def calculatePrice (now batteryId : ℕ) (durationDays : ℤ) (promoCode : Option String) :
    FleetTx PriceDetails := do
  ensure (0 < durationDays) (.http 400 "duration_days must be greater than 0")
  let db ← query
  let battery ← demand (db.batteries.get? batteryId) (.http 404 "Battery not found")
  let rate := dailyRate db battery
  let deposit := battery.purchaseCost * (1 / 10)
  let totalRent := rate * durationDays
  let promo ← promoOf now durationDays totalRent promoCode
  return {
    dailyRate := rate, durationDays, rentalCost := totalRent, discount := promo.1, deposit,
    totalPayable := totalRent - promo.1 + deposit, promoCodeId := promo.2 }

/-! ## Initiation -/

/-- `int(battery.current_charge or 0)`. -/
def currentSoc (battery : Battery) : ℤ := battery.currentCharge.num.tdiv battery.currentCharge.den

/-- The checks of `initiate_rental` on the battery. -/
def checkRentable (rentalIn : RentalCreate) (battery : Battery) : FleetTx Unit := do
  ensure (battery.status = .ready ∨ battery.status = .available) <| .http 400
    s!"Battery is not available for rental (current status: {battery.status.text})"
  ensure (battery.locationType = some .station ∧ battery.locationId = some rentalIn.startStationId)
    <| .http 400 <|
      s!"Battery is not available at pickup station {rentalIn.startStationId}. " ++
        "Current location: " ++ (battery.locationType.map LocationType.text).getD "None" ++ " #" ++
        (battery.locationId.map toString).getD "None"
  let minSoc := max 0 minBatterySocForRental
  ensure (minSoc ≤ currentSoc battery) <| .http 400
    s!"Battery SOC {currentSoc battery}% is below rental minimum {minSoc}%"

/-- Take one use of the promo code, if one is left. -/
def reservePromo (promoCodeId : Option ℕ) : FleetTx Unit :=
  match promoCodeId.filter (· ≠ 0) with
  | none => pure ()
  | some k => do
    let db ← query
    let promo ← demand ((db.promoCodes.get? k).filter fun p =>
      p.usageLimit = 0 ∨ p.usageCount < p.usageLimit) (.http 400 "Promo code usage limit reached")
    update fun db =>
      { db with promoCodes := db.promoCodes.set { promo with usageCount := promo.usageCount + 1 } }

/-- `datetime.utcnow() + timedelta(days=duration_days)` of a positive duration. -/
def expectedEnd (now : ℕ) (durationDays : ℤ) : Except Exc ℕ :=
  let expected := now + durationDays.toNat * day
  if expected ≤ lastTime then .ok expected else .error .overflowError

/-- The battery of a new rental; the user and the battery must be free. -/
def rentableBattery (userId : ℕ) (rentalIn : RentalCreate) : FleetTx Battery := do
  let db ← query
  let maxActive := max 1 maxActiveRentalsPerUser
  ensure ((db.rentals.filter fun r => r.userId = userId ∧ isLive r).length < maxActive)
    (.http 409 s!"Maximum active rentals reached ({maxActive})")
  let battery ← demand (db.batteries.get? rentalIn.batteryId) (.http 404 "Battery not found")
  checkRentable rentalIn battery
  ensure (db.rentals.filter (fun r => r.batteryId = rentalIn.batteryId ∧ isLive r) = [])
    (.http 409 "Battery is already assigned to an active rental")
  return battery

/-- The row of a new rental; its id. -/
def addRental (rental : ℕ → Rental) (hkey : ∀ k, Row.key (rental k) = k := by intro _; rfl) :
    FleetTx ℕ := do
  let db ← look
  update fun db => { db with rentals := db.rentals.add rental hkey }
  flush
  return db.rentals.freshKey

/-- `initiate_rental` after the clean-up and before the commit. -/
def reserveRental (now userId : ℕ) (rentalIn : RentalCreate) : FleetTx Rental := do
  let battery ← rentableBattery userId rentalIn
  let price ← calculatePrice now rentalIn.batteryId rentalIn.durationDays rentalIn.promoCode
  reservePromo price.promoCodeId
  let expectedEndTime ← lift (expectedEnd now rentalIn.durationDays)
  let rental (id : ℕ) : Rental :=
    { id, userId, batteryId := rentalIn.batteryId, startStationId := rentalIn.startStationId
      startTime := now, expectedEndTime, totalAmount := price.totalPayable
      securityDeposit := price.deposit, status := .pendingPayment }
  let k ← addRental rental
  let _ ← applyBatteryTransition now battery
    { toStatus := some .reserved
      toLocationType := some .station
      toLocationId := some (some rentalIn.startStationId)
      eventType := "rental_reserved"
      eventDescription := s!"Reserved for rental #{k}"
      actorId := some userId }
  return rental k

def initiateRental (now userId : ℕ) (rentalIn : RentalCreate) : FleetTx Rental := do
  let _ ← cleanupStalePendingRentals now (some userId)
  let rental ← reserveRental now userId rentalIn
  safeCommit
  return rental

/-! ## Confirmation -/

structure PaymentProof where
  razorpayOrderId : String
  razorpayPaymentId : String
  razorpaySignature : String

/-- The payment must be of the order, settled, of the user and the rental, and enough; the amounts
required and paid. -/
def checkPayment (rental : Rental) (proof : PaymentProof) (payment : GatewayPayment) :
    FleetTx (ℤ × ℤ) := do
  ensure (payment.orderId = some proof.razorpayOrderId)
    (.http 400 "Payment does not match order")
  let paymentStatus := lower (payment.status.getD "")
  ensure (paymentStatus = "captured" ∨ paymentStatus = "authorized")
    (.http 400 s!"Payment not settled (status={paymentStatus})")
  let requiredAmount ← lift (toMoney rental.totalAmount)
  let paidAmount ← lift (paidMoney (payment.amount.getD (.finite 0 0)))
  ensure (requiredAmount ≤ paidAmount)
    (.http 400 "Paid amount is below rental payable amount")
  let noteRentalId := strip (payment.noteRentalId.getD "")
  let noteUserId := strip (payment.noteUserId.getD "")
  ensure (noteRentalId ≠ "" → noteRentalId = toString rental.id)
    (.http 400 "Payment note rental_id mismatch")
  ensure (noteUserId ≠ "" → noteUserId = toString rental.userId)
    (.http 400 "Payment note user_id mismatch")
  return (requiredAmount, paidAmount)

/-- The columns `reference_type` and `reference_id` name the rental. -/
def referencesRental (rental : Rental) (txn : PaymentTransaction) : Prop :=
  txn.referenceType = some "rental" ∧ txn.referenceId = some (toString rental.id)

instance (rental : Rental) (txn : PaymentTransaction) :
    Decidable (referencesRental rental txn) := by
  unfold referencesRental
  infer_instance

/-- The payment transaction becomes `success`; it is made if there is none of the order. -/
def settlePayment (side : PaymentSide) (rental : Rental) (userId : ℕ) (proof : PaymentProof)
    (requiredAmount paidAmount : ℤ) : FleetTx Unit := do
  ensure side.hasReferenceColumns .attributeError
  let settled (txn : PaymentTransaction) : PaymentTransaction :=
    { txn with
      status := .success, amount := paidAmount
      razorpayPaymentId := some proof.razorpayPaymentId
      razorpaySignature := some proof.razorpaySignature
      errorCode := none, errorDescription := none }
  let db ← query
  match db.paymentTransactions.find? fun t => t.userId = userId ∧ referencesRental rental t ∧
      t.razorpayOrderId = some proof.razorpayOrderId with
  | some txn =>
    update fun db => { db with paymentTransactions := db.paymentTransactions.set (settled txn) }
  | none =>
    update fun db =>
      { db with
        paymentTransactions := db.paymentTransactions.add (fun id =>
          settled
            { id, userId, amount := requiredAmount, status := .pending
              razorpayOrderId := some proof.razorpayOrderId, referenceType := some "rental"
              referenceId := some (toString rental.id) }) }

def confirmedBefore (side : PaymentSide) (rental : Rental) (proof : PaymentProof) :
    FleetTx Unit := do
  ensure side.hasReferenceColumns .attributeError
  let db ← query
  ensure (db.paymentTransactions.find? fun t => referencesRental rental t ∧
      t.razorpayPaymentId = some proof.razorpayPaymentId ∧ t.status = .success).isSome
    (.http 409 "Rental already confirmed")

/-- `confirm_rental_verified` of a pending rental, before the commit. -/
def activateRental (now : ℕ) (side : PaymentSide) (rental : Rental) (userId : ℕ)
    (proof : PaymentProof) (paymentReference : Option String) : FleetTx Rental := do
  ensure (rental.status = .pendingPayment) (.http 400 "Invalid rental state")
  ensure side.signatureOk (.http 400 "Invalid payment signature")
  let payment ← demand side.fetchPayment .attributeError
  let amounts ← checkPayment rental proof payment
  settlePayment side rental userId proof amounts.1 amounts.2
  let rental := { rental with status := .active }
  saveRental rental
  addRentalEvent rental.id "payment_confirmed" (some rental.startStationId)
    (some rental.batteryId) <|
    some <| s!"Rental payment verified. payment_id={proof.razorpayPaymentId} " ++
      "reference=" ++ (truthy paymentReference).getD "n/a"
  let db ← query
  let battery ← demand (db.batteries.get? rental.batteryId) (.http 404 "Battery not found")
  let _ ← applyBatteryTransition now battery
    { toStatus := some .deployed
      toLocationType := some .customer
      toLocationId := some none
      eventType := "rental_started"
      eventDescription := s!"Rental #{rental.id} confirmed"
      actorId := some rental.userId }
  return rental

/-- `confirm_rental_verified` before the commit; whether there is one. -/
def confirmOrReplay (now : ℕ) (side : PaymentSide) (rentalId userId : ℕ) (proof : PaymentProof)
    (paymentReference : Option String) : FleetTx (Rental × Bool) := do
  ensure (proof.razorpayOrderId ≠ "" ∧ proof.razorpayPaymentId ≠ "" ∧ proof.razorpaySignature ≠ "")
    (.http 400 "Payment verification payload is required")
  let db ← query
  let rental ← demand ((db.rentals.get? rentalId).filter fun r => r.userId = userId)
    (.http 404 "Rental not found")
  if rental.status = .active then do
    confirmedBefore side rental proof
    return (rental, false)
  else do
    let rental ← activateRental now side rental userId proof paymentReference
    return (rental, true)

def confirmRentalVerified (now : ℕ) (side : PaymentSide) (rentalId userId : ℕ)
    (proof : PaymentProof) (paymentReference : Option String := none) : FleetTx Rental := do
  let confirmed ← confirmOrReplay now side rentalId userId proof paymentReference
  unlessSkipped (¬ confirmed.2) safeCommit
  return confirmed.1

/-- `return_battery` before the commit. -/
def completeRental (now rentalId stationId : ℕ) : FleetTx Rental := do
  let db ← query
  let rental ← demand ((db.rentals.get? rentalId).filter fun r => r.status = .active)
    (.http 400 "Invalid rental")
  let rental :=
    { rental with status := .completed, endStationId := some stationId, endTime := some now }
  saveRental rental
  let db ← query
  let battery ← demand (db.batteries.get? rental.batteryId) (.http 404 "Battery not found")
  let _ ← applyBatteryTransition now battery
    { toStatus := some .available
      toLocationType := some .station
      toLocationId := some (some stationId)
      eventType := "rental_completed"
      eventDescription := s!"Returned to station #{stationId} for rental #{rental.id}"
      actorId := some rental.userId }
  addRentalEvent rental.id "stop" (some stationId) (some rental.batteryId) (some "Rental completed")
  return rental

def returnBattery (now rentalId stationId : ℕ) : FleetTx Rental := do
  let rental ← completeRental now rentalId stationId
  safeCommit
  return rental

/-! ## Swap -/

/-- `execute_swap` before the commit.  The session holds one object for each battery, so the second
transition sees what the first one has done. -/
def swapBatteries (now rentalId newBatteryId stationId : ℕ) : FleetTx Unit := do
  let db ← query
  let rental ← demand ((db.rentals.get? rentalId).filter fun r => r.status = .active)
    (.valueError "Invalid rental")
  let oldBattery ← demand (db.batteries.get? rental.batteryId) (.valueError "Old battery not found")
  let newBattery ← demand ((db.batteries.get? newBatteryId).filter fun b => b.status = .available)
    (.valueError "New battery not available")
  ensure (newBattery.locationId = some stationId ∧ newBattery.locationType = some .station)
    (.valueError "Battery not at specified station")
  let oldBattery ← applyBatteryTransition now oldBattery
    { toStatus := some .available
      toLocationType := some .station
      toLocationId := some (some stationId)
      eventType := "swap_returned"
      eventDescription := s!"Swap return for rental #{rentalId} at station #{stationId}" }
  let newBattery := if newBattery.id = oldBattery.id then oldBattery else newBattery
  let newBattery ← applyBatteryTransition now newBattery
    { toStatus := some .deployed
      toLocationType := some .customer
      toLocationId := some none
      eventType := "swap_dispensed"
      eventDescription := s!"Swap dispense for rental #{rentalId} at station #{stationId}" }
  saveRental { rental with batteryId := newBatteryId }
  addRentalEvent rentalId "swap_complete" (some stationId) (some newBatteryId) <| some <|
    s!"Swapped battery from {oldBattery.serialNumber} to {newBattery.serialNumber} " ++
      s!"at station {stationId}"

def executeSwap (now rentalId newBatteryId stationId : ℕ) (autoCommit : Bool := true) :
    FleetTx Bool :=
  if autoCommit then
    handle (do
      swapBatteries now rentalId newBatteryId stationId
      safeCommit
      return true) fun _ => rollback >>= fun _ => pure false
  else do
    swapBatteries now rentalId newBatteryId stationId
    flush
    return true

end

end WezuBackend.Rental.Service
