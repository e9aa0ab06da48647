import WezuBackend.Bookings.Reservations
import WezuBackend.Fleet.Acceptance
import WezuBackend.Rental.Exclusivity
import WezuBackend.Rental.Initiation

/-!
# Renting a battery that another user has booked

A booking holds a battery for its user until it ends, and `create_reservation` never picks a battery
that is held.  `initiate_rental` does not look at the bookings: it rents out any battery that is
ready at the station.  `Initiable` lists all that it asks for (`initiateRental_accepts_iff`), so a
held battery is refused to the other users exactly if something on that list is missing
(`held_refused_iff`).
-/

namespace WezuBackend.Rental.BookedBatteries

open Lib.Tables Lib.Atomicity Lib.Atomicity.Tx Lib.Runs Core.Letters Fleet.Model
open Fleet.Consistency Fleet.Transitions Fleet.Acceptance Bookings.Reservations Rental.Service
open Rental.Effects Rental.Exclusivity Rental.Initiation

/-- The bookings and the fleet at a time. -/
structure World where
  clock : ℕ
  bookings : Bookings.Payment.Db
  fleet : Fleet.Model.Db

def World.site (w : World) : Site := ⟨w.fleet.stations, w.fleet.batteries⟩

/-- Another user has a live reservation of the battery. -/
def HeldByOther (now userId batteryId : ℕ) (db : Bookings.Payment.Db) : Prop :=
  ∃ r ∈ db.reservations, r.batteryId = some batteryId ∧ r.userId ≠ userId ∧ Live now r

/-! ## Runs -/

/-- Requests of the two booking APIs and calls of the rental services.  They see the clock, the
stations and the batteries of the world, whatever times and sites they come with. -/
inductive Op where
  | elapse (time : ℕ)
  | booking (request : BookingRequest)
  | customer (naive : Bool) (request : CustomerRequest)
  | rental (call : Call)

def bookingAt (site : Site) : BookingRequest → BookingRequest
  | .create _ userId stationId => .create site userId stationId
  | request => request

def customerAt (site : Site) : CustomerRequest → CustomerRequest
  | .reserve _ userId stationId durationMinutes batteryType =>
    .reserve site userId stationId durationMinutes batteryType
  | .active _ userId => .active site userId
  | request => request

def callAt (now : ℕ) : Call → Call
  | .initiateRental _ userId rentalIn => .initiateRental now userId rentalIn
  | .confirmRentalVerified _ side rentalId userId proof reference =>
    .confirmRentalVerified now side rentalId userId proof reference
  | .cleanupStalePendingRentals _ userId => .cleanupStalePendingRentals now userId
  | .returnBattery _ rentalId stationId => .returnBattery now rentalId stationId
  | .executeSwap _ rentalId newBatteryId stationId autoCommit callerCommits =>
    .executeSwap now rentalId newBatteryId stationId autoCommit callerCommits

section

variable [Casing]

def step (w : World) : Op → World
  | .elapse time => { w with clock := w.clock + time }
  | .booking request =>
    { w with bookings := bookingStep w.clock w.bookings (bookingAt w.site request) }
  | .customer naive request =>
    { w with bookings := customerStep naive w.clock w.bookings (customerAt w.site request) }
  | .rental call => { w with fleet := Exclusivity.step w.fleet (callAt w.clock call) }

/-- The step does not rent a battery out that another user holds. -/
def Respects (w : World) (o : Op) : Prop :=
  ∀ now userId rentalIn, o = .rental (.initiateRental now userId rentalIn) →
    HeldByOther w.clock userId rentalIn.batteryId w.bookings →
      ∃ e, ((initiateRental w.clock userId rentalIn).call w.fleet).1 = .error e

/-! ## What a rental asks for -/

/-- The battery is free, charged and at the station. -/
structure RentableAt (rentalIn : RentalCreate) (battery : Battery) : Prop where
  status : battery.status = .ready ∨ battery.status = .available
  place : battery.locationType = some .station ∧
    battery.locationId = some rentalIn.startStationId
  charge : max 0 minBatterySocForRental ≤ currentSoc battery

/-- The transition of a new rental's battery. -/
def reservation (userId : ℕ) (rentalIn : RentalCreate) (k : ℕ) : Transition where
  toStatus := some .reserved
  toLocationType := some .station
  toLocationId := some (some rentalIn.startStationId)
  eventType := "rental_reserved"
  eventDescription := s!"Reserved for rental #{k}"
  actorId := some userId

/-- All that `initiate_rental` asks for once the user's stale rentals are cancelled. -/
structure Placeable (now userId : ℕ) (rentalIn : RentalCreate) (db : Db) : Prop where
  few : (liveRentals userId db).length < max 1 maxActiveRentalsPerUser
  battery : ∃ b, db.batteries.get? rentalIn.batteryId = some b ∧ RentableAt rentalIn b ∧
    Transitionable now (reservation userId rentalIn db.rentals.freshKey) b db
  unrented : ∀ r ∈ db.rentals, isLive r → r.batteryId ≠ rentalIn.batteryId
  priced : ∃ price s, calculatePrice now rentalIn.batteryId rentalIn.durationDays
      rentalIn.promoCode (.fresh db) = (.ok price, s) ∧
    ∃ t, reservePromo price.promoCodeId (.fresh db) = (.ok (), t)
  ends : ∃ time, expectedEnd now rentalIn.durationDays = .ok time

/-- All that `initiate_rental` asks for. -/
def Initiable (now userId : ℕ) (rentalIn : RentalCreate) (db : Db) : Prop :=
  ∃ cancelled db', (cleanupStalePendingRentals now (some userId)).call db = (.ok cancelled, db') ∧
    Placeable now userId rentalIn db'

variable {now userId : ℕ} {rentalIn : RentalCreate} {db : Db}

variable {battery : Battery} {s : Session Db}

omit [Casing] in
theorem checkRentable_iff :
    checkRentable rentalIn battery s = (.ok (), s) ↔ RentableAt rentalIn battery := by
  constructor
  · intro h
    simp only [checkRentable, bind_ok, ensure_ok] at h
    obtain ⟨_, _, ⟨hstatus, rfl⟩, _, _, ⟨hplace, rfl⟩, hcharge, -⟩ := h
    exact ⟨hstatus, hplace, hcharge⟩
  · intro h
    rw [checkRentable, ensure_bind h.status, ensure_bind h.place]
    exact ensure_ok.mpr ⟨h.charge, rfl⟩

omit [Casing] in
/-- The battery is the one asked for, and the user and the battery are free. -/
theorem rentableBattery_iff :
    rentableBattery userId rentalIn s = (.ok battery, s) ↔ UniqueIndexes s.working ∧
      (liveRentals userId s.working).length < max 1 maxActiveRentalsPerUser ∧
      s.working.batteries.get? rentalIn.batteryId = some battery ∧ RentableAt rentalIn battery ∧
      ∀ r ∈ s.working.rentals, isLive r → r.batteryId ≠ rentalIn.batteryId := by
  constructor
  · intro h
    have hfree := (rentableBattery_ok h).2.2.2
    simp only [rentableBattery, bind_ok, query_ok, ensure_ok, demand_ok, pure_ok] at h
    obtain ⟨_, _, ⟨hu, rfl, rfl⟩, _, _, ⟨hfew, rfl⟩, b, _, ⟨hb, rfl⟩, _, t, hcheck, h⟩ := h
    obtain rfl := (readOnly_checkRentable _ _).eq hcheck
    obtain ⟨_, _, -, rfl, -⟩ := h
    exact ⟨hu, hfew, hb, checkRentable_iff.mp hcheck, hfree⟩
  · rintro ⟨hu, hfew, hb, hrentable, hfree⟩
    have hnone : s.working.rentals.filter
        (fun r => r.batteryId = rentalIn.batteryId ∧ isLive r) = [] := by
      refine List.filter_eq_nil_iff.mpr fun r hr => ?_
      rw [decide_eq_true_eq]
      exact fun h => hfree r hr h.2 h.1
    unfold liveRentals at hfew
    rw [rentableBattery, bind_of_ok (query_ok.mpr ⟨hu, rfl, rfl⟩), ensure_bind hfew,
      demand_bind hb, bind_of_ok (checkRentable_iff.mpr hrentable), ensure_bind hnone]
    rfl

variable {price : PriceDetails}

theorem calculatePrice_unique {batteryId : ℕ} {durationDays : ℤ} {promoCode : Option String}
    {s t : Session Db}
    (h : calculatePrice now batteryId durationDays promoCode s = (.ok price, t)) :
    UniqueIndexes s.working := by
  simp only [calculatePrice, bind_ok, ensure_ok, query_ok] at h
  obtain ⟨_, _, ⟨-, rfl⟩, _, _, ⟨hu, -, -⟩, -⟩ := h
  exact hu

/-- What `initiate_rental` writes before it moves the battery. -/
def recorded (userId : ℕ) (rentalIn : RentalCreate) (price : PriceDetails) (now endTime : ℕ)
    (db : Db) : Db :=
  { db with
    promoCodes := withUse price db.promoCodes
    rentals := db.rentals.add (newRental now userId rentalIn price endTime)
      (key_newRental now userId rentalIn price endTime) }

omit [Casing] in
theorem sameChecks_recorded {endTime : ℕ} :
    SameChecks db (recorded userId rentalIn price now endTime db) :=
  ⟨⟨rfl, rfl, rfl, rfl⟩, rfl, rfl, rfl, rfl⟩

omit [Casing] in
theorem addRental_eq (rental : ℕ → Rental) (hkey : ∀ k, Row.key (rental k) = k) (s : Session Db)
    (hu : UniqueIndexes s.working) : addRental rental hkey s = (.ok s.working.rentals.freshKey,
      ⟨s.committed, { s.working with rentals := s.working.rentals.add rental hkey }⟩) := by
  have hflush : UniqueIndexes { s.working with rentals := s.working.rentals.add rental hkey } :=
    ⟨hu.serials, hu.shelfBatteries, hu.orderBatteries⟩
  exact bind_of_ok (a := ()) (flush_ok.mpr ⟨hflush, rfl⟩)

theorem reserveRental_accepts_iff :
    (∃ r t, reserveRental now userId rentalIn (.fresh db) = (.ok r, t) ∧
      UniqueIndexes t.working) ↔ Placeable now userId rentalIn db := by
  rw [reserveRental_eq]
  constructor
  · rintro ⟨r, t, h, -⟩
    obtain ⟨battery, s₁, hbattery, h⟩ := bind_ok.mp h
    obtain rfl := (readOnly_rentableBattery _ _).eq hbattery
    obtain ⟨hu, hfew, hget, hrentable, hfree⟩ := rentableBattery_iff.mp hbattery
    obtain ⟨price, s₂, hprice, h⟩ := bind_ok.mp h
    obtain rfl := (readOnly_calculatePrice _ _ _ _).eq hprice
    obtain ⟨_, s₃, hpromo, h⟩ := bind_ok.mp h
    obtain rfl := update_ok.mp (takeUse_of_reserved hpromo)
    rw [placeRental] at h
    obtain ⟨endTime, s₄, hend, h⟩ := bind_ok.mp h
    obtain ⟨hends, rfl⟩ := lift_ok.mp hend
    have hadd := addRental_eq (newRental now userId rentalIn price endTime)
      (key_newRental now userId rentalIn price endTime)
      ⟨db, { db with promoCodes := withUse price db.promoCodes }⟩
      ⟨hu.serials, hu.shelfBatteries, hu.orderBatteries⟩
    obtain ⟨b, s₆, htrans, -⟩ := bind_ok.mp ((bind_of_ok hadd).symm.trans h)
    have haccepted : Transitionable now (reservation userId rentalIn db.rentals.freshKey) battery
        (recorded userId rentalIn price now endTime db) :=
      applyBatteryTransition_accepts_iff.mp ⟨b, s₆, htrans⟩
    have hback : SameChecks (recorded userId rentalIn price now endTime db) db :=
      ⟨⟨rfl, rfl, rfl, rfl⟩, rfl, rfl, rfl, rfl⟩
    exact ⟨hfew, ⟨battery, hget, hrentable, haccepted.congr hback rfl rfl⟩, hfree,
      ⟨price, _, hprice, _, hpromo⟩, endTime, hends⟩
  · rintro ⟨hfew, ⟨battery, hget, hrentable, haccepted⟩, hfree, ⟨price, s₁, hprice, s₂, hpromo⟩,
      endTime, hends⟩
    have hu := calculatePrice_unique hprice
    obtain rfl := (readOnly_calculatePrice _ _ _ _).eq hprice
    obtain rfl := update_ok.mp (takeUse_of_reserved hpromo)
    have hbattery := rentableBattery_iff.mpr ⟨hu, hfew, hget, hrentable, hfree⟩
    have hadd := addRental_eq (newRental now userId rentalIn price endTime)
      (key_newRental now userId rentalIn price endTime)
      ⟨db, { db with promoCodes := withUse price db.promoCodes }⟩
      ⟨hu.serials, hu.shelfBatteries, hu.orderBatteries⟩
    have haccepted' : Transitionable _ _ _ (recorded userId rentalIn price now endTime db) :=
      haccepted.congr sameChecks_recorded rfl rfl
    obtain ⟨b, t, htrans⟩ := (applyBatteryTransition_accepts_iff
      (s := ⟨db, recorded userId rentalIn price now endTime db⟩)).mpr haccepted'
    obtain ⟨-, -, a, htransitioned⟩ := applyBatteryTransition_ok htrans
    refine ⟨newRental now userId rentalIn price endTime db.rentals.freshKey, t, ?_,
      uniqueIndexes_of_transitioned htransitioned haccepted'.unique⟩
    rw [bind_of_ok hbattery, bind_of_ok hprice, bind_of_ok hpromo, placeRental, lift_bind hends]
    exact (bind_of_ok hadd).trans (bind_of_ok htrans)

theorem initiateRental_accepts_iff :
    (∃ r, ((initiateRental now userId rentalIn).call db).1 = .ok r) ↔
      Initiable now userId rentalIn db := by
  have hprogram : initiateRental now userId rentalIn =
      cleanupStalePendingRentals now (some userId) >>= fun _ =>
        reserveRental now userId rentalIn >>= fun rental => safeCommit >>= fun _ => pure rental :=
    rfl
  unfold Initiable
  rw [hprogram]
  rcases hrun : cleanupStalePendingRentals now (some userId) (.fresh db) with ⟨e | n, t⟩
  · rw [call_eq hrun, call_eq (bind_of_error hrun)]
    simp
  · have hrest : (cleanupStalePendingRentals now (some userId) >>= fun _ =>
        reserveRental now userId rentalIn >>= fun rental =>
          safeCommit >>= fun _ => pure rental).call db =
        (committing (reserveRental now userId rentalIn)).call t.committed := by
      rw [← call_safeCommit]
      unfold call
      rw [bind_of_ok hrun, cleanup_fresh hrun]
      rfl
    rw [hrest, call_eq hrun]
    have hplaced : (∃ r, ((committing (reserveRental now userId rentalIn)).call t.committed).1 =
        .ok r) ↔ Placeable now userId rentalIn t.committed := by
      rw [← reserveRental_accepts_iff]
      constructor
      · rintro ⟨r, hr⟩
        rcases call_committing (tentative_reserveRental now userId rentalIn) t.committed with
          ⟨e, he⟩ | ⟨r', w, hw, hu, -⟩
        · rw [he] at hr
          cases hr
        · exact ⟨r', w, hw, hu⟩
      · rintro ⟨r, w, hw, hu⟩
        exact ⟨r, by rw [call_committing_of_ok hw hu]⟩
    rw [hplaced]
    constructor
    · exact fun h => ⟨n, t.committed, rfl, h⟩
    · rintro ⟨_, _, heq, h⟩
      obtain ⟨-, rfl⟩ := Prod.mk.inj heq
      exact h

/-! ## Held batteries -/

/-- The step is no call of `initiate_rental` that finds all that it asks for and names a battery
with a live reservation of another user. -/
def Spares (w : World) (o : Op) : Prop :=
  ∀ now userId rentalIn, o = .rental (.initiateRental now userId rentalIn) →
    HeldByOther w.clock userId rentalIn.batteryId w.bookings →
      ¬ Initiable w.clock userId rentalIn w.fleet

theorem respects_iff (w : World) (o : Op) : Respects w o ↔ Spares w o := by
  refine forall_congr' fun now => forall_congr' fun userId => forall_congr' fun rentalIn =>
    imp_congr_right fun _ => imp_congr_right fun _ => ?_
  rw [← initiateRental_accepts_iff]
  rcases ((initiateRental w.clock userId rentalIn).call w.fleet).1 with e | r
  · simp
  · simp

/-- **Held batteries are refused** to the other users, in a run of bookings and rentals, exactly if
no call of `initiate_rental` that finds all that it asks for names one. -/
theorem held_refused_iff (w : World) (os : List Op) :
    Along step Respects w os ↔ Along step Spares w os :=
  along_congr (I := fun _ => True) (fun _ _ _ => trivial) (fun w o _ => respects_iff w o) trivial os

end

/-! ## A booked battery rented out -/

/-- A station with one full battery. -/
def station : Db where
  batteries := ⟨[{ id := 7, serialNumber := "B7", status := .available, currentCharge := 100
                   locationType := some .station, locationId := some 3, stationId := some 3 }],
    List.nodup_singleton _⟩
  stations := ⟨[{ id := 3 }], List.nodup_singleton _⟩

def opening : World where
  clock := 100
  bookings := noReservations
  fleet := station

/-- User 1 books the battery, and user 2 rents it. -/
def bookAndRent : List Op :=
  [.booking (.create opening.site 1 3),
    .rental (.initiateRental 0 2 { batteryId := 7, startStationId := 3 })]

/-- **A held battery is rented out**: the booking of user 1 is live when user 2 gets the battery. -/
theorem held_battery_rented :
    (run step opening (bookAndRent.take 1)).bookings.reservations.rows.map
        (fun r => (r.userId, r.batteryId, r.status, r.endTime)) =
      [(1, some 7, "PENDING", 100 + 30 * Bookings.Reservations.minute)] ∧
    (run step opening bookAndRent).fleet.rentals.rows.map (fun r => (r.userId, r.batteryId)) =
      [(2, 7)] ∧
    ¬ Along step Respects opening bookAndRent := by
  refine ⟨by decide +kernel, by decide +kernel, ?_⟩
  rintro ⟨-, hrefused, -⟩
  have hmem : newReservation 100 1 3 7 1 ∈
      (step opening (.booking (.create opening.site 1 3))).bookings.reservations.rows := by
    decide +kernel
  have hheld : HeldByOther 100 2 7 (step opening (.booking (.create opening.site 1 3))).bookings :=
    ⟨_, hmem, rfl, by decide, by decide⟩
  obtain ⟨e, he⟩ := hrefused 0 2 _ rfl hheld
  have hok : ((initiateRental 100 2 { batteryId := 7, startStationId := 3 }).call
      station).1.isOk = true := by decide +kernel
  have hfleet : (step opening (.booking (.create opening.site 1 3))).fleet = station := rfl
  have hclock : (step opening (.booking (.create opening.site 1 3))).clock = 100 := rfl
  rw [hfleet, hclock] at he
  rw [he] at hok
  cases hok

end WezuBackend.Rental.BookedBatteries
