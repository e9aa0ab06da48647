import WezuBackend.Rental.LateFees

/-!
# Extensions and pauses

`request_extension` and `request_pause`, once in `app/api/v1/rentals.py` and once in
`app/services/rental_service.py`.  Both charge days at the rental's daily rate, a pause at a fifth
of it.  The endpoints count full days and compute with floats; the service counts begun days,
computes with decimals, charges whole hundredths, and refuses while a request is open.  An amount of
a rental is the number that its float is written as.
-/

namespace WezuBackend.Rental.Modifications

open Lib.Atomicity Lib.Atomicity.Tx Core.Base Core.Amounts Core.Floats Fleet.Model
open Rental.Service Rental.LateFees

/-! ## The endpoints -/

/-- `timedelta.days`. -/
def fullDays (time : ℤ) : ℤ := time / day

def duration (rental : Rental) : ℤ := rental.expectedEndTime - rental.startTime

/-- The rental's days as the endpoints count them: `max(1, int(duration_secs / 86400))`. -/
def routerDays (rental : Rental) : ℤ := max 1 ((duration rental).tdiv day)

/-- `rental.total_amount / original_days`. -/
def routerRate (rental : Rental) : ℚ := binary64 (binary64 rental.totalAmount / routerDays rental)

/-- `POST /rentals/{rental_id}/extend`; without an end of the rental there are no days. -/
def postExtension (rentalId userId requestedEndDate : ℕ) (reason : Option String) :
    LateTx RentalExtension := thenCommit do
  let db ← look
  let rental ← demand ((db.fleet.rentals.get? rentalId).filter fun r => r.userId = userId)
    (.http 404 "Rental not found")
  ensure (rental.status = .active) (.http 400 "Rental is not active")
  let endTime ← demand rental.endTime (.http 400 "Extension date must be after current end date")
  let extensionDays := fullDays (requestedEndDate - endTime)
  ensure (0 < extensionDays) (.http 400 "Extension date must be after current end date")
  let extension (id : ℕ) : RentalExtension :=
    { id, rentalId, userId, currentEndDate := endTime, requestedEndDate, extensionDays
      additionalCost := binary64 (extensionDays * routerRate rental), reason, status := .pending }
  update fun db => { db with rentalExtensions := db.rentalExtensions.add extension }
  return extension db.rentalExtensions.freshKey

/-- `POST /rentals/{rental_id}/pause`. -/
def postPause (rentalId userId pauseStartDate pauseEndDate : ℕ) (reason : String) :
    LateTx RentalPause := thenCommit do
  let db ← look
  let rental ← demand ((db.fleet.rentals.get? rentalId).filter fun r => r.userId = userId)
    (.http 404 "Rental not found")
  ensure (rental.status = .active) (.http 400 "Rental is not active")
  let pauseDays := fullDays (pauseEndDate - pauseStartDate)
  ensure (0 < pauseDays) (.http 400 "Invalid pause period")
  let dailyPauseCharge := binary64 (routerRate rental * binary64 (1 / 5))
  let pause (id : ℕ) : RentalPause :=
    { id, rentalId, userId, pauseStartDate, pauseEndDate, pauseDays, reason, dailyPauseCharge
      totalPauseCost := binary64 (dailyPauseCharge * pauseDays), status := .pending }
  update fun db => { db with rentalPauses := db.rentalPauses.add pause }
  return pause db.rentalPauses.freshKey

/-! ## The service -/

def serviceDays (rental : Rental) : ℤ := max 1 (wholeDays (duration rental))

/-- The pause is pending, approved or active. -/
def OpenPause (rentalId : ℕ) (pause : RentalPause) : Prop :=
  pause.rentalId = rentalId ∧
    (pause.status = .pending ∨ pause.status = .approved ∨ pause.status = .other "ACTIVE")

instance (rentalId : ℕ) (pause : RentalPause) : Decidable (OpenPause rentalId pause) := by
  unfold OpenPause
  infer_instance

def requestPause (rentalId userId pauseStartDate pauseEndDate : ℕ) (reason : String) :
    LateTx RentalPause := thenCommit do
  let db ← look
  let rental ← demand ((db.fleet.rentals.get? rentalId).filter fun r => r.userId = userId)
    (.http 404 "Rental not found")
  ensure (rental.status = .active) (.http 400 "Rental is not active")
  let pauseDays := wholeDays (pauseEndDate - pauseStartDate)
  ensure (0 < pauseDays) (.http 400 "Invalid pause period")
  ensure (¬ ∃ p ∈ db.rentalPauses, OpenPause rentalId p)
    (.http 409 "A pause request is already active")
  let totalAmount ← lift (Service.toMoney rental.totalAmount)
  let computedDailyRate := decimal28 ((totalAmount : ℚ) / 100 / serviceDays rental)
  let dailyPauseCharge := decimal28 (computedDailyRate * (1 / 5))
  let totalPauseCost ← lift (Service.toMoney (decimal28 (dailyPauseCharge * pauseDays)))
  let pause (id : ℕ) : RentalPause :=
    { id, rentalId, userId, pauseStartDate, pauseEndDate, pauseDays, reason, dailyPauseCharge
      totalPauseCost := (totalPauseCost : ℚ) / 100, status := .pending }
  update fun db => { db with rentalPauses := db.rentalPauses.add pause }
  onFleet <| addRentalEvent rental.id "pause_requested" (some rental.startStationId)
    (some rental.batteryId) <| some <|
      s!"Pause requested from {isoformat pauseStartDate} to {isoformat pauseEndDate}"
  return pause db.rentalPauses.freshKey

/-! ## What is charged -/

/-- A request to modify a rental. -/
inductive Modification where
  | extension (requestedEndDate : ℕ) (reason : Option String)
  | pause (pauseStartDate pauseEndDate : ℕ) (reason : String)

/-- The days and the cost of an extension that goes through. -/
def extensionCharge (result : Except Exc RentalExtension) : Option (ℤ × ℚ) :=
  result.toOption.map fun extension => (extension.extensionDays, extension.additionalCost)

def pauseCharge (result : Except Exc RentalPause) : Option (ℤ × ℚ) :=
  result.toOption.map fun pause => (pause.pauseDays, pause.totalPauseCost)

/-- The charge as the row has it: the column of the cost is a float. -/
def inColumns (charge : Option (ℤ × ℚ)) : Option (ℤ × ℚ) :=
  charge.map fun c => (c.1, binary64 c.2)

def routerCharge (rentalId userId : ℕ) (db : LateDb) : Modification → Option (ℤ × ℚ)
  | .extension requestedEndDate reason =>
    extensionCharge ((postExtension rentalId userId requestedEndDate reason).call db).1
  | .pause pauseStartDate pauseEndDate reason =>
    pauseCharge ((postPause rentalId userId pauseStartDate pauseEndDate reason).call db).1

def serviceCharge (rentalId userId : ℕ) (db : LateDb) : Modification → Option (ℤ × ℚ)
  | .extension requestedEndDate reason => inColumns <|
    extensionCharge ((requestExtension rentalId userId requestedEndDate reason).call db).1
  | .pause pauseStartDate pauseEndDate reason => inColumns <|
    pauseCharge ((requestPause rentalId userId pauseStartDate pauseEndDate reason).call db).1

/-- The share of the daily rate that is charged, if it is not the whole. -/
def Modification.share : Modification → Option ℚ
  | .extension _ _ => none
  | .pause _ _ _ => some (1 / 5)

/-- The time that is charged, if the rental has an end where it needs one. -/
def Modification.gap (rental : Rental) : Modification → Option ℤ
  | .extension requestedEndDate _ =>
    rental.endTime.map fun endTime : ℕ => (requestedEndDate : ℤ) - endTime
  | .pause pauseStartDate pauseEndDate _ => some (pauseEndDate - pauseStartDate)

/-- A request of the same kind is open. -/
def Modification.Taken (rentalId : ℕ) (db : LateDb) : Modification → Prop
  | .extension _ _ => ∃ e ∈ db.rentalExtensions, e.rentalId = rentalId ∧ e.status = .pending
  | .pause _ _ _ => ∃ p ∈ db.rentalPauses, OpenPause rentalId p

instance (rentalId : ℕ) (db : LateDb) :
    ∀ modification : Modification, Decidable (modification.Taken rentalId db)
  | .extension _ _ => inferInstanceAs (Decidable (∃ _ ∈ _, _))
  | .pause _ _ _ => inferInstanceAs (Decidable (∃ _ ∈ _, _))

def activeRental (rentalId userId : ℕ) (db : LateDb) : Option Rental :=
  (db.fleet.rentals.get? rentalId).filter fun r => r.userId = userId ∧ r.status = .active

/-! ## One charge -/

/-- The endpoint's cost of the days, computed with floats. -/
def routerCost (share : Option ℚ) (rental : Rental) (days : ℤ) : ℚ :=
  binary64 (share.elim (routerRate rental) (fun s => binary64 (routerRate rental * binary64 s)) *
    days)

/-- The endpoint's charge for the time. -/
def routerQuote (share : Option ℚ) (rental : Rental) (gap : ℤ) : Option (ℤ × ℚ) :=
  if 0 < fullDays gap then some (fullDays gap, routerCost share rental (fullDays gap)) else none

/-- The service's cost of the days, computed with decimals. -/
def serviceCost (share : Option ℚ) (totalAmount : ℤ) (rental : Rental) (days : ℤ) : ℚ :=
  let rate := decimal28 ((totalAmount : ℚ) / 100 / serviceDays rental)
  decimal28 (share.elim rate (fun s => decimal28 (rate * s)) * days)

/-- The service's charge for the time, before it is rounded, in rupees. -/
def computedCharge (share : Option ℚ) (rental : Rental) (gap : ℤ) : ℚ :=
  serviceCost share (roundHalfUp rental.totalAmount) rental (wholeDays gap)

/-- The amounts have no more digits than the service can handle. -/
def Chargeable (share : Option ℚ) (rental : Rental) (gap : ℤ) : Prop :=
  Fits (roundHalfUp rental.totalAmount) ∧ Fits (roundHalfUp (computedCharge share rental gap))

instance (share : Option ℚ) (rental : Rental) (gap : ℤ) :
    Decidable (Chargeable share rental gap) := by
  unfold Chargeable
  infer_instance

/-- The service's charge for the time. -/
def serviceQuote (share : Option ℚ) (rental : Rental) (gap : ℤ) : Option (ℤ × ℚ) :=
  if 0 < wholeDays gap ∧ Chargeable share rental gap then
    some (wholeDays gap, (roundHalfUp (computedCharge share rental gap) : ℚ) / 100)
  else none

theorem result_thenCommit {α : Type} (x : LateTx α) (db : LateDb) :
    ((thenCommit x).call db).1 = (x (.fresh db)).1 := by
  rcases h : x (.fresh db) with ⟨e | a, t⟩
  · rw [thenCommit, call_eq (bind_of_error h)]
  · rw [call_eq (thenCommit_of_ok h)]

variable {gap : ℤ} {rental : Rental} {share : Option ℚ}

section Charges

variable {rentalId userId : ℕ} {db : LateDb}

theorem active_bind_none (h : activeRental rentalId userId db = none) {β : Type}
    (f : Rental → LateTx β) (s : Session LateDb) :
    ∃ e, (demand ((db.fleet.rentals.get? rentalId).filter fun r => r.userId = userId)
      (.http 404 "Rental not found") >>= fun rental =>
        ensure (rental.status = .active) (.http 400 "Rental is not active") >>= fun _ =>
          f rental : LateTx β) s = (.error e, s) := by
  rcases hfound : (db.fleet.rentals.get? rentalId).filter fun r => r.userId = userId with _ | rental
  · exact ⟨_, demand_bind_none hfound _ _ _⟩
  · have hactive : rental.status ≠ .active := by
      intro hactive
      obtain ⟨hget, huser⟩ := Option.filter_eq_some_iff.mp hfound
      rw [activeRental, hget] at h
      simp_all
    exact ⟨_, by rw [demand_bind hfound, ensure_bind_not hactive]⟩

theorem active_bind_some (h : activeRental rentalId userId db = some rental)
    {β : Type} (f : Rental → LateTx β) (s : Session LateDb) :
    (demand ((db.fleet.rentals.get? rentalId).filter fun r => r.userId = userId)
      (.http 404 "Rental not found") >>= fun rental =>
        ensure (rental.status = .active) (.http 400 "Rental is not active") >>= fun _ =>
          f rental : LateTx β) s = f rental s := by
  obtain ⟨hget, hboth⟩ := Option.filter_eq_some_iff.mp h
  obtain ⟨huser, hactive⟩ := of_decide_eq_true hboth
  have hfound : ((db.fleet.rentals.get? rentalId).filter fun r => r.userId = userId) =
      some rental := Option.filter_eq_some_iff.mpr ⟨hget, decide_eq_true huser⟩
  rw [demand_bind hfound, ensure_bind hactive]

/-- A request for an active rental of the user comes to what the rest of it comes to. -/
theorem read_active {α : Type} (read : Except Exc α → Option (ℤ × ℚ))
    (hread : ∀ e, read (.error e) = none) (f : LateDb → Rental → LateTx α) :
    read ((thenCommit (look >>= fun db =>
      demand ((db.fleet.rentals.get? rentalId).filter fun r => r.userId = userId)
        (.http 404 "Rental not found") >>= fun rental =>
          ensure (rental.status = .active) (.http 400 "Rental is not active") >>= fun _ =>
            f db rental)).call db).1 =
      (activeRental rentalId userId db).bind fun rental => read (f db rental (.fresh db)).1 := by
  rw [result_thenCommit, look_bind, show (Session.fresh db).working = db from rfl]
  rcases hactive : activeRental rentalId userId db with _ | rental
  · obtain ⟨e, hraises⟩ := active_bind_none hactive (f db) (.fresh db)
    rw [hraises]
    exact hread e
  · rw [active_bind_some hactive, Option.bind_some]

theorem postExtension_charge (requestedEndDate : ℕ) (reason : Option String) :
    extensionCharge ((postExtension rentalId userId requestedEndDate reason).call db).1 =
      (activeRental rentalId userId db).bind fun rental => rental.endTime.bind fun endTime =>
        routerQuote none rental (requestedEndDate - endTime) := by
  unfold postExtension
  refine (read_active extensionCharge (fun _ => rfl) _).trans (Option.bind_congr fun rental _ => ?_)
  rcases hend : rental.endTime with _ | endTime
  · rw [demand_bind_none rfl]
    rfl
  · rw [demand_bind rfl, Option.bind_some]
    unfold routerQuote
    by_cases hdays : 0 < fullDays (requestedEndDate - endTime)
    · rw [ensure_bind hdays, if_pos hdays, routerCost, Option.elim_none, mul_comm]
      rfl
    · rw [ensure_bind_not hdays, if_neg hdays]
      rfl

theorem postPause_charge (pauseStartDate pauseEndDate : ℕ) (reason : String) :
    pauseCharge ((postPause rentalId userId pauseStartDate pauseEndDate reason).call db).1 =
      (activeRental rentalId userId db).bind fun rental =>
        routerQuote (some (1 / 5)) rental (pauseEndDate - pauseStartDate) := by
  unfold postPause
  refine (read_active pauseCharge (fun _ => rfl) _).trans (Option.bind_congr fun rental _ => ?_)
  unfold routerQuote
  by_cases hdays : 0 < fullDays (pauseEndDate - pauseStartDate)
  · rw [ensure_bind hdays, if_pos hdays]
    rfl
  · rw [ensure_bind_not hdays, if_neg hdays]
    rfl

theorem toMoney_of_fits {x : ℚ} (h : Fits (roundHalfUp x)) :
    Service.toMoney x = .ok (roundHalfUp x) := if_pos h

theorem money_bind_ok (cost : ℤ → ℚ)
    (hcost : cost (roundHalfUp rental.totalAmount) = computedCharge share rental gap)
    (h : Chargeable share rental gap) {β : Type} (f : ℤ → ℤ → LateTx β) (s : Session LateDb) :
    (lift (Service.toMoney rental.totalAmount) >>= fun m =>
      lift (Service.toMoney (cost m)) >>= f m : LateTx β) s =
        f (roundHalfUp rental.totalAmount) (roundHalfUp (computedCharge share rental gap)) s := by
  have hsecond := toMoney_of_fits h.2
  rw [← hcost] at hsecond
  rw [lift_bind (toMoney_of_fits h.1), lift_bind hsecond, hcost]

theorem money_bind_error (cost : ℤ → ℚ)
    (hcost : cost (roundHalfUp rental.totalAmount) = computedCharge share rental gap)
    (h : ¬ Chargeable share rental gap) {β : Type} (f : ℤ → ℤ → LateTx β) (s : Session LateDb) :
    ∃ e, (lift (Service.toMoney rental.totalAmount) >>= fun m =>
      lift (Service.toMoney (cost m)) >>= f m : LateTx β) s = (.error e, s) := by
  have hraises : ∀ x : ℚ, ¬ Fits (roundHalfUp x) →
      Service.toMoney x = .error (.http 400 "Invalid monetary amount") := fun x h => if_neg h
  by_cases hfits : Fits (roundHalfUp rental.totalAmount)
  · have hsecond := hraises _ fun hfitsCost => h ⟨hfits, hfitsCost⟩
    rw [← hcost] at hsecond
    exact ⟨_, by rw [lift_bind (toMoney_of_fits hfits), lift_bind_error hsecond]⟩
  · exact ⟨_, lift_bind_error (hraises _ hfits) _ _⟩

theorem requestExtension_charge (requestedEndDate : ℕ) (reason : Option String) :
    extensionCharge ((requestExtension rentalId userId requestedEndDate reason).call db).1 =
      (activeRental rentalId userId db).bind fun rental => rental.endTime.bind fun endTime =>
        if (Modification.extension requestedEndDate reason).Taken rentalId db then none
        else serviceQuote none rental (requestedEndDate - endTime) := by
  unfold requestExtension
  refine (read_active extensionCharge (fun _ => rfl) _).trans (Option.bind_congr fun rental _ => ?_)
  rcases hend : rental.endTime with _ | endTime
  · rw [demand_bind_none rfl]
    rfl
  · rw [demand_bind rfl, Option.bind_some]
    unfold serviceQuote
    by_cases hdays : 0 < wholeDays (requestedEndDate - endTime)
    · rw [ensure_bind hdays]
      by_cases htaken : ∃ e ∈ db.rentalExtensions, e.rentalId = rentalId ∧ e.status = .pending
      · have hopen : (Modification.extension requestedEndDate reason).Taken rentalId db := htaken
        rw [ensure_bind_not (not_not.mpr htaken), if_pos hopen]
        rfl
      · have hfree : ¬ (Modification.extension requestedEndDate reason).Taken rentalId db :=
          htaken
        rw [ensure_bind htaken, if_neg hfree]
        let cost (m : ℤ) : ℚ := serviceCost none m rental (wholeDays (requestedEndDate - endTime))
        have hcost : cost (roundHalfUp rental.totalAmount) =
            computedCharge none rental (requestedEndDate - endTime) := rfl
        by_cases hfits : Chargeable none rental (requestedEndDate - endTime)
        · rw [if_pos ⟨hdays, hfits⟩]
          exact congrArg (fun r => extensionCharge r.1) (money_bind_ok cost hcost hfits _ _)
        · obtain ⟨e, hraises⟩ := money_bind_error cost hcost hfits _ _
          rw [if_neg fun h => hfits h.2]
          exact congrArg (fun r => extensionCharge r.1) hraises
    · have hnone : ¬ (0 < wholeDays (requestedEndDate - endTime) ∧
          Chargeable none rental (requestedEndDate - endTime)) := fun h => hdays h.1
      rw [ensure_bind_not hdays, if_neg hnone, ite_self]
      rfl

theorem requestPause_charge (pauseStartDate pauseEndDate : ℕ) (reason : String) :
    pauseCharge ((requestPause rentalId userId pauseStartDate pauseEndDate reason).call db).1 =
      (activeRental rentalId userId db).bind fun rental =>
        if (Modification.pause pauseStartDate pauseEndDate reason).Taken rentalId db then none
        else serviceQuote (some (1 / 5)) rental (pauseEndDate - pauseStartDate) := by
  unfold requestPause
  refine (read_active pauseCharge (fun _ => rfl) _).trans (Option.bind_congr fun rental _ => ?_)
  unfold serviceQuote
  by_cases hdays : 0 < wholeDays (pauseEndDate - pauseStartDate)
  · rw [ensure_bind hdays]
    by_cases htaken : ∃ p ∈ db.rentalPauses, OpenPause rentalId p
    · have hopen : (Modification.pause pauseStartDate pauseEndDate reason).Taken rentalId db :=
        htaken
      rw [ensure_bind_not (not_not.mpr htaken), if_pos hopen]
      rfl
    · have hfree : ¬ (Modification.pause pauseStartDate pauseEndDate reason).Taken rentalId db :=
        htaken
      rw [ensure_bind htaken, if_neg hfree]
      let cost (m : ℤ) : ℚ :=
        serviceCost (some (1 / 5)) m rental (wholeDays (pauseEndDate - pauseStartDate))
      have hcost : cost (roundHalfUp rental.totalAmount) =
          computedCharge (some (1 / 5)) rental (pauseEndDate - pauseStartDate) := rfl
      by_cases hfits : Chargeable (some (1 / 5)) rental (pauseEndDate - pauseStartDate)
      · rw [if_pos ⟨hdays, hfits⟩]
        exact congrArg (fun r => pauseCharge r.1) (money_bind_ok cost hcost hfits _ _)
      · obtain ⟨e, hraises⟩ := money_bind_error cost hcost hfits _ _
        rw [if_neg fun h => hfits h.2]
        exact congrArg (fun r => pauseCharge r.1) hraises
  · have hnone : ¬ (0 < wholeDays (pauseEndDate - pauseStartDate) ∧
        Chargeable (some (1 / 5)) rental (pauseEndDate - pauseStartDate)) := fun h => hdays h.1
    rw [ensure_bind_not hdays, if_neg hnone, ite_self]
    rfl

end Charges

/-! ## Days and hundredths -/

theorem day_pos : (0 : ℤ) < day := by decide

variable {time : ℤ}

theorem fullDays_pos : 0 < fullDays time ↔ (day : ℤ) ≤ time := by
  have hle : (1 : ℤ) ≤ time / day ↔ 1 * (day : ℤ) ≤ time := Int.le_ediv_iff_mul_le day_pos
  rw [one_mul] at hle
  exact hle

theorem wholeDays_pos : 0 < wholeDays time ↔ 0 < time := by
  have hday : (0 : ℚ) < day := by exact_mod_cast day_pos
  unfold wholeDays
  rw [Int.ceil_pos, div_pos_iff_of_pos_right hday]
  exact Int.cast_pos

/-- Full and begun days are the same number where no day is begun that is not full. -/
theorem fullDays_eq_iff : fullDays time = wholeDays time ↔ (day : ℤ) ∣ time := by
  have hday : (0 : ℚ) < day := by exact_mod_cast day_pos
  have hne : (day : ℚ) ≠ 0 := hday.ne'
  constructor
  · intro h
    have hceil : (time : ℚ) / day ≤ fullDays time := by
      rw [h]
      exact Int.le_ceil _
    rw [div_le_iff₀ hday] at hceil
    have hle : time ≤ fullDays time * day := by exact_mod_cast hceil
    have hge : fullDays time * day ≤ time := Int.ediv_mul_le time day_pos.ne'
    exact ⟨fullDays time, by rw [mul_comm]; omega⟩
  · rintro ⟨n, rfl⟩
    have hfull : fullDays (day * n) = n := Int.mul_ediv_cancel_left n day_pos.ne'
    unfold wholeDays
    rw [hfull]
    push_cast
    rw [mul_div_cancel_left₀ _ hne, Int.ceil_intCast]

/-- The number of hundredths nearest to the amount, of two the one away from zero. -/
def RoundsTo (amount : ℚ) (c : ℤ) : Prop :=
  2 * |100 * amount - c| < 1 ∨ 2 * |100 * amount - c| = 1 ∧ |100 * amount| < |(c : ℚ)|

theorem floor_half_iff {y : ℚ} (hy : 0 ≤ y) (c : ℤ) :
    ⌊y + 1 / 2⌋ = c ↔ 2 * |y - c| < 1 ∨ 2 * |y - c| = 1 ∧ |y| < |(c : ℚ)| := by
  rw [Int.floor_eq_iff, abs_of_nonneg hy]
  constructor
  · rintro ⟨hlow, hhigh⟩
    rcases eq_or_lt_of_le hlow with heq | hlt
    · have hc : (0 : ℚ) < c := by linarith
      rw [abs_of_neg (show y - c < 0 by linarith), abs_of_pos hc]
      exact .inr ⟨by linarith, by linarith⟩
    · refine .inl ?_
      have habs : |y - c| < 1 / 2 := abs_lt.mpr ⟨by linarith, by linarith⟩
      linarith
  · rintro (hlt | ⟨heq, hless⟩)
    · have habs : |y - c| < 1 / 2 := by linarith
      obtain ⟨hlow, hhigh⟩ := abs_lt.mp habs
      exact ⟨by linarith, by linarith⟩
    · rcases abs_choice (y - c) with hpos | hneg
      · -- the tie above `c` is rounded up
        have hc : (-1 : ℚ) < c := by linarith
        have hc' : (0 : ℤ) ≤ c := by
          have hint : (-1 : ℤ) < c := by exact_mod_cast hc
          omega
        have hcast : (0 : ℚ) ≤ c := by exact_mod_cast hc'
        rw [abs_of_nonneg hcast] at hless
        linarith
      · exact ⟨by linarith, by linarith⟩

theorem roundHalfUp_eq_iff (amount : ℚ) (c : ℤ) : roundHalfUp amount = c ↔ RoundsTo amount c := by
  unfold roundHalfUp RoundsTo
  split_ifs with h
  · exact floor_half_iff (by linarith) c
  · have hneg : 0 ≤ 100 * -amount := by linarith
    have hdist : |100 * -amount - ((-c : ℤ) : ℚ)| = |100 * amount - c| := by
      rw [← abs_neg]
      congr 1
      push_cast
      ring
    have hsize : |100 * -amount| = |100 * amount| := by rw [mul_neg, abs_neg]
    have hsize' : |((-c : ℤ) : ℚ)| = |(c : ℚ)| := by rw [Int.cast_neg, abs_neg]
    rw [neg_eq_iff_eq_neg, floor_half_iff hneg (-c), hdist, hsize, hsize']

/-! ## When the charges agree -/

/-- Both refuse the time; or it is a positive number of whole days, no request is open, and the
endpoint's cost is the float of the whole number of hundredths that the service rounds to. -/
def SameCharge (share : Option ℚ) (rental : Rental) (gap : ℤ) (taken : Prop) : Prop :=
  (gap < day ∧ (gap ≤ 0 ∨ taken ∨ ¬ Chargeable share rental gap)) ∨
  (0 < gap ∧ (day : ℤ) ∣ gap ∧ ¬ taken ∧ Chargeable share rental gap ∧
    ∃ c : ℤ, routerCost share rental (fullDays gap) = binary64 (c / 100) ∧
      RoundsTo (computedCharge share rental gap) c)

theorem quotes_agree_iff {taken : Prop} [Decidable taken] :
    routerQuote share rental gap =
        inColumns (if taken then none else serviceQuote share rental gap) ↔
      SameCharge share rental gap taken := by
  unfold routerQuote serviceQuote SameCharge
  simp only [fullDays_pos, wholeDays_pos]
  by_cases hfull : (day : ℤ) ≤ gap
  · have hpos : 0 < gap := day_pos.trans_le hfull
    rw [if_pos hfull]
    by_cases htaken : taken
    · rw [if_pos htaken]
      refine iff_of_false (fun h => by cases h) ?_
      rintro (⟨hlt, -⟩ | ⟨-, -, hfree, -⟩)
      · omega
      · exact hfree htaken
    rw [if_neg htaken]
    by_cases hfits : Chargeable share rental gap
    · rw [if_pos ⟨hpos, hfits⟩, inColumns, Option.map_some, Option.some_inj, Prod.mk_inj,
        fullDays_eq_iff]
      constructor
      · rintro ⟨hdvd, hcost⟩
        exact .inr ⟨hpos, hdvd, htaken, hfits, _, hcost, (roundHalfUp_eq_iff _ _).mp rfl⟩
      · rintro (⟨hlt, -⟩ | ⟨-, hdvd, -, -, c, hcost, hrounds⟩)
        · omega
        · refine ⟨hdvd, ?_⟩
          rw [hcost, (roundHalfUp_eq_iff _ _).mpr hrounds]
    · rw [if_neg fun h => hfits h.2]
      refine iff_of_false (fun h => by cases h) ?_
      rintro (⟨hlt, -⟩ | ⟨-, -, -, hfits', -⟩)
      · omega
      · exact hfits hfits'
  · have hnot : ¬ (0 < gap ∧ (day : ℤ) ∣ gap) := fun h => hfull (Int.le_of_dvd h.1 h.2)
    rw [if_neg hfull]
    by_cases htaken : taken
    · rw [if_pos htaken]
      exact iff_of_true rfl (.inl ⟨by omega, .inr (.inl htaken)⟩)
    rw [if_neg htaken]
    by_cases hgoes : 0 < gap ∧ Chargeable share rental gap
    · rw [if_pos hgoes]
      refine iff_of_false (fun h => by cases h) ?_
      rintro (⟨-, hle | htaken' | hfits⟩ | ⟨hpos, hdvd, -⟩)
      · omega
      · exact htaken htaken'
      · exact hfits hgoes.2
      · exact hnot ⟨hpos, hdvd⟩
    · rw [if_neg hgoes]
      refine iff_of_true rfl (.inl ⟨by omega, ?_⟩)
      by_cases hle : gap ≤ 0
      · exact .inl hle
      · exact .inr (.inr fun hfits => hgoes ⟨by omega, hfits⟩)

theorem routerCharge_eq (rentalId userId : ℕ) (db : LateDb) (modification : Modification) :
    routerCharge rentalId userId db modification =
      (activeRental rentalId userId db).bind fun rental =>
        (modification.gap rental).bind fun gap => routerQuote modification.share rental gap := by
  cases modification with
  | extension requestedEndDate reason =>
    refine (postExtension_charge requestedEndDate reason).trans ?_
    refine congrArg _ (funext fun rental => ?_)
    unfold Modification.gap
    rw [Option.bind_map]
    rfl
  | pause pauseStartDate pauseEndDate reason =>
    exact postPause_charge pauseStartDate pauseEndDate reason

theorem serviceCharge_eq (rentalId userId : ℕ) (db : LateDb) (modification : Modification) :
    serviceCharge rentalId userId db modification =
      (activeRental rentalId userId db).bind fun rental =>
        (modification.gap rental).bind fun gap => inColumns <|
          if modification.Taken rentalId db then none
          else serviceQuote modification.share rental gap := by
  cases modification with
  | extension requestedEndDate reason =>
    refine (congrArg inColumns (requestExtension_charge requestedEndDate reason)).trans ?_
    unfold inColumns
    rw [Option.map_bind]
    refine congrArg _ (funext fun rental => ?_)
    simp only [Modification.gap, Function.comp_apply, Option.map_bind, Option.bind_map]
    rfl
  | pause pauseStartDate pauseEndDate reason =>
    refine (congrArg inColumns (requestPause_charge pauseStartDate pauseEndDate reason)).trans ?_
    unfold inColumns
    rw [Option.map_bind]
    rfl

/-- The charges of a request agree. -/
def Agrees (rentalId userId : ℕ) (db : LateDb) (modification : Modification) : Prop :=
  ∀ rental ∈ activeRental rentalId userId db, ∀ gap ∈ modification.gap rental,
    SameCharge modification.share rental gap (modification.Taken rentalId db)

/-- A rental of one day for 24 rupees. -/
def pausableStore : LateDb where
  fleet :=
    { rentals := ⟨[
        { id := 72, userId := 5, batteryId := 7, startStationId := 3, startTime := 0
          expectedEndTime := day, totalAmount := 24, securityDeposit := 0
          status := .active }], List.nodup_singleton _⟩ }
  wallet := .ofWallets .empty .empty

end WezuBackend.Rental.Modifications
