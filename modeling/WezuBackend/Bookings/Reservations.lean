import WezuBackend.Bookings.Payment
import WezuBackend.Fleet.Model

/-!
# Reservations

Two APIs write the rows of `battery_reservations`: `app/api/v1/bookings.py` with `BookingService`,
and `app/api/v1/customer_reservations.py`.  The first creates pending reservations of a battery and
moves them along `is_transition_allowed`; the second creates active ones without a battery.

A request sees the stations and batteries as they are when it comes (`Site`).  Times without a time
zone do not compare with `datetime.now(UTC)`; `naive` says that the database hands out such times.
-/

namespace WezuBackend.Bookings.Reservations

open Lib.Tables Lib.Atomicity.Tx Core.Base Core.Text Core.Letters Bookings.Payment

/-- The stations and the batteries. -/
structure Site where
  stations : Table Fleet.Model.Station
  batteries : Table Fleet.Model.Battery

def minute : ℕ := 60 * 1000000

/-- Waiting for the payment, or paid: `ACTIVE_RESERVATION_STATUSES`. -/
def Open (status : String) : Prop := status = "PENDING" ∨ status = "ACTIVE"

instance (status : String) : Decidable (Open status) := by
  unfold Open
  infer_instance

def Live (now : ℕ) (r : BatteryReservation) : Prop := Open r.status ∧ now < r.endTime

instance (now : ℕ) (r : BatteryReservation) : Decidable (Live now r) := by
  unfold Live
  infer_instance

/-! ## Rows -/

/-- The rows with a property, rewritten. -/
def rewrite (p : BatteryReservation → Bool) (f : BatteryReservation → BatteryReservation)
    (hf : ∀ r, Row.key (f r) = Row.key r) (db : Db) : Db :=
  { db with reservations := db.reservations.update p f hf }

def save (r : BatteryReservation) (db : Db) : Db :=
  { db with reservations := db.reservations.set r }

def expired (now : ℕ) (r : BatteryReservation) : BatteryReservation :=
  { r with status := "EXPIRED", updatedAt := now }

theorem key_expired (now : ℕ) (r : BatteryReservation) : Row.key (expired now r) = Row.key r := rfl

/-! ## `BookingService` -/

def isStationBookable (station : Fleet.Model.Station) : Bool :=
  !(["maintenance", "closed", "offline", "error"].contains (lower (strip station.status)))

/-- A pending reservation of the user whose time is over. -/
def lapsed (now userId : ℕ) (r : BatteryReservation) : Bool :=
  r.status = "PENDING" && r.endTime ≤ now && r.userId = userId

def releaseExpiredReservations (now userId : ℕ) : BookingTx ℕ := do
  let db ← look
  let rows := db.reservations.filter (lapsed now userId)
  if rows ≠ [] then
    update (rewrite (lapsed now userId) (expired now) (key_expired now))
    commit
  return rows.length

/-- The ids of the batteries that are held. -/
def reservedIds (now : ℕ) (db : Db) : List ℕ :=
  (db.reservations.filter fun r => Live now r).filterMap BatteryReservation.batteryId

def HasLive (now userId : ℕ) (db : Db) : Prop :=
  ∃ r ∈ db.reservations, r.userId = userId ∧ Live now r

instance (now userId : ℕ) (db : Db) : Decidable (HasLive now userId db) := by
  unfold HasLive
  infer_instance

/-- The first of the list in the order of `before`. -/
def firstBy {α : Type} (before : α → α → Bool) : List α → Option α
  | [] => none
  | a :: as => some ((firstBy before as).elim a fun b => if before b a then b else a)

theorem firstBy_mem {α : Type} {before : α → α → Bool} {as : List α} {a : α}
    (h : firstBy before as = some a) : a ∈ as := by
  induction as generalizing a with
  | nil => cases h
  | cons x as ih =>
    rcases hrest : firstBy before as with _ | b
    · rw [firstBy, hrest] at h
      cases h
      exact List.mem_cons_self
    · rw [firstBy, hrest] at h
      cases h
      rw [Option.elim_some]
      split_ifs
      · exact List.mem_cons_of_mem _ (ih hrest)
      · exact List.mem_cons_self

/-- The fuller battery comes first, and of two equally full ones the older. -/
def fuller (a b : Fleet.Model.Battery) : Bool :=
  b.currentCharge < a.currentCharge || (a.currentCharge = b.currentCharge && a.id < b.id)

def pickBattery (site : Site) (stationId : ℕ) (reserved : List ℕ) : Option Fleet.Model.Battery :=
  firstBy fuller <| site.batteries.filter fun b =>
    b.stationId = some stationId && b.status = .available && 70 ≤ b.currentCharge &&
      !reserved.contains b.id

def newReservation (now userId stationId batteryId id : ℕ) : BatteryReservation :=
  { id, userId, stationId, batteryId := some batteryId, startTime := now
    endTime := now + 30 * minute, status := "PENDING", updatedAt := now }

theorem key_newReservation (now userId stationId batteryId id : ℕ) :
    Row.key (newReservation now userId stationId batteryId id) = id := rfl

def reserved (now userId stationId batteryId : ℕ) (db : Db) : Db :=
  { db with
    reservations := db.reservations.add (newReservation now userId stationId batteryId)
      (key_newReservation now userId stationId batteryId) }

/-- `create_reservation`, up to the reminder. -/
def createReservation (now : ℕ) (site : Site) (userId stationId : ℕ) :
    BookingTx BatteryReservation := do
  let _ ← releaseExpiredReservations now userId
  let station ← demand (site.stations.get? stationId) (.valueError "Station not found")
  ensure (isStationBookable station) (.valueError "Station is currently not accepting bookings")
  let db ← look
  ensure (¬ HasLive now userId db) (.valueError "User already has an active reservation")
  let battery ← demand (pickBattery site stationId (reservedIds now db))
    (.valueError "No bookable batteries available at this station")
  update (reserved now userId stationId battery.id)
  commit
  return newReservation now userId stationId battery.id db.reservations.freshKey

/-- `is_transition_allowed`, of normalised statuses. -/
def allowedTransitions (current : String) : List String :=
  if current = "PENDING" then ["ACTIVE", "CANCELLED", "EXPIRED"]
  else if current = "ACTIVE" then ["COMPLETED", "CANCELLED"]
  else []

section

variable [Casing]

def isTransitionAllowed (currentStatus targetStatus : String) : Bool :=
  (allowedTransitions (normal currentStatus)).contains (normal targetStatus)

/-! ## The bookings API -/

def createBooking (now : ℕ) (site : Site) (userId stationId : ℕ) : BookingTx BatteryReservation :=
  handle (createReservation now site userId stationId) fun e =>
    raise <| match e with
      | .valueError message => .http 400 message
      | e => e

/-- `list_my_bookings`, the latest first. -/
def listMyBookings (now userId : ℕ) : BookingTx (List BatteryReservation) := do
  let _ ← releaseExpiredReservations now userId
  let db ← look
  return (db.reservations.filter fun r => r.userId = userId).reverse

/-- The booking as every endpoint finds it. -/
def currentBooking (now bookingId userId : ℕ) : BookingTx BatteryReservation := do
  let booking ← getUserBookingOr404 bookingId userId
  markExpiredIfDue now booking

def getBookingDetails (now bookingId userId : ℕ) : BookingTx BatteryReservation :=
  currentBooking now bookingId userId

def withStatus (now : ℕ) (status : String) (r : BatteryReservation) : BatteryReservation :=
  { r with status, updatedAt := now }

/-- The write of an endpoint that sets the status. -/
def setStatus (now : ℕ) (status : String) (booking : BatteryReservation) :
    BookingTx BatteryReservation := do
  update (save (withStatus now status booking))
  commit
  return withStatus now status booking

def updateBooking (now bookingId userId : ℕ) (status : Option String) :
    BookingTx BatteryReservation := do
  let booking ← currentBooking now bookingId userId
  match truthy status with
  | none => return booking
  | some status =>
    let targetStatus := normal status
    let currentStatus := normal booking.status
    if targetStatus = currentStatus then return booking
    else
      ensure (isTransitionAllowed currentStatus targetStatus) <|
        .http 400 s!"Cannot transition booking from {currentStatus} to {targetStatus}"
      setStatus now targetStatus booking

def cancelBooking (now bookingId userId : ℕ) : BookingTx String := do
  let booking ← currentBooking now bookingId userId
  let currentStatus := normal booking.status
  ensure (currentStatus ≠ "COMPLETED" ∧ currentStatus ≠ "EXPIRED")
    (.http 400 s!"Cannot cancel booking in {currentStatus} state")
  if currentStatus = "CANCELLED" then return "Booking already cancelled"
  else
    ensure (isTransitionAllowed currentStatus "CANCELLED")
      (.http 400 s!"Cannot cancel booking in {currentStatus} state")
    let _ ← setStatus now "CANCELLED" booking
    return "Booking cancelled"

/-- `send_booking_reminder`, without the notification. -/
def sendBookingReminder (now bookingId userId : ℕ) : BookingTx String := do
  let booking ← currentBooking now bookingId userId
  ensure (normal booking.status ≠ "EXPIRED")
    (.http 400 "Cannot send reminder for expired booking")
  return "Reminder sent"

end

/-! ## The customer API -/

/-- The columns of the answer that are the reservation's own. -/
structure ReservationResponse where
  id : ℕ
  stationId : ℕ
  batteryType : String
  startTime : ℕ
  expiryTime : ℕ
  status : String
  fee : ℚ := 0
  deriving DecidableEq, Repr

def responseOf (batteryType : Option String) (r : BatteryReservation) : ReservationResponse :=
  { id := r.id, stationId := r.stationId, batteryType := (truthy batteryType).getD "48V/30Ah"
    startTime := r.startTime, expiryTime := r.endTime, status := lower r.status }

def activeOf (userId : ℕ) (db : Db) : Option BatteryReservation :=
  db.reservations.find? fun r => r.userId = userId ∧ r.status = "ACTIVE"

/-- The customer API leaves `updated_at` alone. -/
def asStatus (status : String) (r : BatteryReservation) : BatteryReservation := { r with status }

/-- `end_time < datetime.now(UTC)`. -/
def overdue (naive : Bool) (now : ℕ) (r : BatteryReservation) : BookingTx Bool := do
  ensure (naive = false) .typeError
  return r.endTime < now

def newActive (now userId stationId : ℕ) (durationMinutes : ℤ) (id : ℕ) : BatteryReservation :=
  { id, userId, stationId, startTime := now
    endTime := (now + durationMinutes * minute).toNat, status := "ACTIVE", updatedAt := now }

theorem key_newActive (now userId stationId : ℕ) (durationMinutes : ℤ) (id : ℕ) :
    Row.key (newActive now userId stationId durationMinutes id) = id := rfl

def activated (now userId stationId : ℕ) (durationMinutes : ℤ) (db : Db) : Db :=
  { db with
    reservations := db.reservations.add (newActive now userId stationId durationMinutes)
      (key_newActive now userId stationId durationMinutes) }

def expireActive (r : BatteryReservation) : BookingTx Unit := do
  update (save (asStatus "EXPIRED" r))
  commit

/-- The check of `reserve_battery`. -/
def checkExisting (naive : Bool) (now userId : ℕ) : BookingTx Unit := do
  let db ← look
  match activeOf userId db with
  | none => return ()
  | some existing =>
    if ← overdue naive now existing then expireActive existing
    else raise (.http 400 "You already have an active reservation")

def reserveBattery (naive : Bool) (now : ℕ) (site : Site) (userId stationId : ℕ)
    (durationMinutes : ℤ := 15) (batteryType : Option String := none) :
    BookingTx ReservationResponse := do
  checkExisting naive now userId
  let _ ← demand (site.stations.get? stationId) (.http 404 "Station not found")
  let db ← look
  update (activated now userId stationId durationMinutes)
  commit
  return responseOf batteryType
    (newActive now userId stationId durationMinutes db.reservations.freshKey)

def getActiveReservation (naive : Bool) (now : ℕ) (site : Site) (userId : ℕ) :
    BookingTx (Option ReservationResponse) := do
  let db ← look
  match activeOf userId db with
  | none => return none
  | some reservation =>
    if ← overdue naive now reservation then
      expireActive reservation
      return none
    else return (site.stations.get? reservation.stationId).map fun _ => responseOf none reservation

def userReservation (reservationId userId : ℕ) : BookingTx BatteryReservation := do
  let db ← look
  let reservation ← demand (db.reservations.get? reservationId) (.http 404 "Reservation not found")
  ensure (reservation.userId = userId) (.http 404 "Reservation not found")
  return reservation

def cancelReservation (reservationId userId : ℕ) : BookingTx String := do
  let reservation ← userReservation reservationId userId
  update (save (asStatus "CANCELLED" reservation))
  commit
  return "Reservation cancelled"

def getReservationStatus (naive : Bool) (now reservationId userId : ℕ) : BookingTx String := do
  let reservation ← userReservation reservationId userId
  if reservation.status = "ACTIVE" then
    if ← overdue naive now reservation then
      expireActive reservation
      return lower "EXPIRED"
  return lower reservation.status

/-! ## Runs -/

inductive BookingRequest where
  | create (site : Site) (userId stationId : ℕ)
  | list (userId : ℕ)
  | get (bookingId userId : ℕ)
  | update (bookingId userId : ℕ) (status : Option String)
  | cancel (bookingId userId : ℕ)
  | remind (bookingId userId : ℕ)
  | pay (bookingId userId : ℕ) (paymentIn : Option BookingPaymentRequest)

inductive CustomerRequest where
  | reserve (site : Site) (userId stationId : ℕ) (durationMinutes : ℤ) (batteryType : Option String)
  | active (site : Site) (userId : ℕ)
  | cancel (reservationId userId : ℕ)
  | status (reservationId userId : ℕ)

/-- The tables after a request to the bookings API. -/
def bookingStep [Casing] (now : ℕ) (db : Db) : BookingRequest → Db
  | .create site userId stationId => ((createBooking now site userId stationId).call db).2
  | .list userId => ((listMyBookings now userId).call db).2
  | .get bookingId userId => ((getBookingDetails now bookingId userId).call db).2
  | .update bookingId userId status => ((updateBooking now bookingId userId status).call db).2
  | .cancel bookingId userId => ((cancelBooking now bookingId userId).call db).2
  | .remind bookingId userId => ((sendBookingReminder now bookingId userId).call db).2
  | .pay bookingId userId paymentIn => ((payForBooking now bookingId paymentIn userId).call db).2

/-- The tables after a request to the customer API. -/
def customerStep (naive : Bool) (now : ℕ) (db : Db) : CustomerRequest → Db
  | .reserve site userId stationId durationMinutes batteryType =>
    ((reserveBattery naive now site userId stationId durationMinutes batteryType).call db).2
  | .active site userId => ((getActiveReservation naive now site userId).call db).2
  | .cancel reservationId userId => ((cancelReservation reservationId userId).call db).2
  | .status reservationId userId =>
    ((getReservationStatus naive now reservationId userId).call db).2

def oneBattery : Site where
  stations := ⟨[{ id := 1 }], by simp⟩
  batteries := ⟨[{ id := 7, serialNumber := "B-07", stationId := some 1 }], by simp⟩

/-- No reservations, and a wallet of user 1 with 100. -/
def noReservations : Db where
  wallet := .ofWallets .empty ⟨[{ id := 2, userId := 1, balance := 10000 }], by simp⟩
  reservations := .empty

end WezuBackend.Bookings.Reservations
