import WezuBackend.Rental.Effects
import WezuBackend.Fleet.Acceptance

/-!
# Return requests

`return_rental_battery` of `app/api/v1/rentals.py` lets `RentalService.return_battery` end the
rental, which commits, and only then asks whether the rental is the caller's.

`returnBattery_cases` says which returns go through: `Returnable` has all that `return_battery` asks
for.  `untouched_iff` says for which requests an error means that nothing has happened to the rental
and its battery: the return is refused, or the caller rents the battery and nothing fails after the
commit.
-/

namespace WezuBackend.Rental.ReturnRequests

open Lib.Tables Lib.Atomicity Lib.Atomicity.Tx Core.Base Core.Letters Fleet.Model Fleet.Consistency
open Fleet.Transitions Fleet.Acceptance Rental.Service Rental.Effects

section

variable [Casing]

/-! ## The endpoint -/

/-- `return_rental_battery` from the refresh at the end of `return_battery` to the commit of the
audit row; what the two answer is given. -/
def afterReturn (currentUserId : ℕ) (refreshed audited : Except Exc Unit) (rental : Rental) :
    FleetTx Rental := do
  lift refreshed
  ensure (rental.userId = currentUserId) (.http 403 "Not authorized")
  lift audited
  return rental

/-- `return_rental_battery`, with what `get_current_user` answers. -/
def returnRentalBattery (now rentalId stationId : ℕ) (currentUser : Except Exc ℕ)
    (refreshed audited : Except Exc Unit) : FleetTx Rental := do
  let currentUserId ← lift currentUser
  let rental ← returnBattery now rentalId stationId
  afterReturn currentUserId refreshed audited rental

structure Untouched (rental : Rental) (db db' : Db) : Prop where
  row : db'.rentals.get? rental.id = db.rentals.get? rental.id
  battery : db'.batteries.get? rental.batteryId = db.batteries.get? rental.batteryId

/-- A request that is answered with an error has not touched the rental. -/
def ErrorsUntouched (now stationId : ℕ) (currentUser : Except Exc ℕ)
    (refreshed audited : Except Exc Unit) (rental : Rental) (db : Db) : Prop :=
  ∀ e db', (returnRentalBattery now rental.id stationId currentUser refreshed audited).call db =
    (.error e, db') → Untouched rental db db'

/-! ## Which returns go through -/

def rentalReturn (rental : Rental) (stationId : ℕ) : Transition where
  toStatus := some .available
  toLocationType := some .station
  toLocationId := some (some stationId)
  eventType := "rental_completed"
  eventDescription := s!"Returned to station #{stationId} for rental #{rental.id}"
  actorId := some rental.userId

/-- All that `return_battery` asks for of an active rental. -/
structure Returnable (now stationId : ℕ) (rental : Rental) (db : Db) : Prop where
  unique : UniqueIndexes db
  battery : ∃ battery, db.batteries.get? rental.batteryId = some battery ∧
    Transitionable now (rentalReturn rental stationId) battery db

/-- The rental once it is returned. -/
def ended (now stationId : ℕ) (rental : Rental) : Rental :=
  { rental with status := .completed, endStationId := some stationId, endTime := some now }

variable {now stationId : ℕ} {rental : Rental} {db : Db}

omit [Casing] in
theorem sameChecks_rentals (rentals : Table Rental) : SameChecks db { db with rentals } :=
  ⟨⟨rfl, rfl, rfl, rfl⟩, rfl, rfl, rfl, rfl⟩

omit [Casing] in
theorem sameChecks_of_rentals (rentals : Table Rental) : SameChecks { db with rentals } db :=
  ⟨⟨rfl, rfl, rfl, rfl⟩, rfl, rfl, rfl, rfl⟩

/-- `return_battery` before its commit, once the rental is marked. -/
theorem completeRental_eq (hget : db.rentals.get? rental.id = some rental)
    (hactive : rental.status = .active) (hu : UniqueIndexes db) :
    completeRental now rental.id stationId (.fresh db) =
      (demand (db.batteries.get? rental.batteryId) (.http 404 "Battery not found") >>=
        fun battery =>
          applyBatteryTransition now battery (rentalReturn rental stationId) >>= fun _ =>
          addRentalEvent rental.id "stop" (some stationId) (some rental.batteryId)
            (some "Rental completed") >>= fun _ => pure (ended now stationId rental))
        ⟨db, { db with rentals := db.rentals.set (ended now stationId rental) }⟩ := by
  have hfound : (db.rentals.get? rental.id).filter (fun r => r.status = .active) = some rental :=
    Option.filter_eq_some_iff.mpr ⟨hget, decide_eq_true hactive⟩
  have hquery : query ⟨db, { db with rentals := db.rentals.set (ended now stationId rental) }⟩ =
      (.ok { db with rentals := db.rentals.set (ended now stationId rental) },
        ⟨db, { db with rentals := db.rentals.set (ended now stationId rental) }⟩) :=
    query_ok.mpr ⟨⟨hu.serials, hu.shelfBatteries, hu.orderBatteries⟩, rfl, rfl⟩
  rw [completeRental, bind_of_ok (query_ok.mpr ⟨hu, rfl, rfl⟩), Session.working_fresh,
    demand_bind hfound, saveRental, update_bind]
  exact (bind_of_ok hquery).trans rfl

theorem completeRental_cases (now stationId : ℕ)
    (hget : db.rentals.get? rental.id = some rental) (hactive : rental.status = .active) :
    (¬ Returnable now stationId rental db ∧
        ∃ e t, completeRental now rental.id stationId (.fresh db) = (.error e, t)) ∨
      Returnable now stationId rental db ∧
        ∃ t, completeRental now rental.id stationId (.fresh db) =
            (.ok (ended now stationId rental), t) ∧
          UniqueIndexes t.working ∧
          t.working.rentals = db.rentals.set (ended now stationId rental) := by
  by_cases hu : UniqueIndexes db
  swap
  · refine .inl ⟨fun h => hu h.unique, ?_⟩
    rcases hrun : completeRental now rental.id stationId (.fresh db) with ⟨e | r, t⟩
    · exact ⟨e, t, rfl⟩
    · obtain ⟨_, s₁, hdb, -⟩ := bind_ok.mp hrun
      exact absurd (query_ok.mp hdb).1 hu
  rw [completeRental_eq hget hactive hu]
  rcases hbattery : db.batteries.get? rental.batteryId with _ | battery
  · refine .inl ⟨?_, _, _, demand_bind_none rfl _ _ _⟩
    rintro ⟨-, battery, hsome, -⟩
    rw [hbattery] at hsome
    cases hsome
  rw [demand_bind rfl]
  rcases htrans : applyBatteryTransition now battery (rentalReturn rental stationId)
    ⟨db, { db with rentals := db.rentals.set (ended now stationId rental) }⟩ with ⟨e | b, t⟩
  · refine .inl ⟨?_, e, t, bind_of_error htrans⟩
    rintro ⟨-, battery', hsome, haccepted⟩
    obtain rfl := Option.some.inj (hbattery.symm.trans hsome)
    obtain ⟨b, t', hok⟩ := (applyBatteryTransition_accepts_iff
      (s := ⟨db, { db with rentals := db.rentals.set (ended now stationId rental) }⟩)).mpr
        (haccepted.congr (sameChecks_rentals _) rfl rfl)
    rw [htrans] at hok
    cases hok
  · have haccepted := applyBatteryTransition_accepts_iff.mp ⟨b, t, htrans⟩
    obtain ⟨-, -, a, hT⟩ := applyBatteryTransition_ok htrans
    have hunique := uniqueIndexes_of_transitioned hT haccepted.unique
    refine .inr ⟨⟨hu, battery, hbattery, haccepted.congr (sameChecks_of_rentals _) rfl rfl⟩, _,
      (bind_of_ok htrans).trans rfl, ?_, ?_⟩
    · exact ⟨hunique.serials, hunique.shelfBatteries, hunique.orderBatteries⟩
    · show t.working.rentals = _
      rw [hT.rest]

/-- **A return** is refused and stores nothing, or the rental is stored as ended. -/
theorem returnBattery_cases (now stationId : ℕ)
    (hget : db.rentals.get? rental.id = some rental) (hactive : rental.status = .active) :
    (¬ Returnable now stationId rental db ∧
        ∃ e t, returnBattery now rental.id stationId (.fresh db) = (.error e, t) ∧
          t.committed = db) ∨
      Returnable now stationId rental db ∧
        ∃ db', returnBattery now rental.id stationId (.fresh db) =
            (.ok (ended now stationId rental), .fresh db') ∧
          db'.rentals = db.rentals.set (ended now stationId rental) := by
  rcases completeRental_cases now stationId hget hactive with
    ⟨hrefused, e, t, hrun⟩ | ⟨hreturnable, t, hrun, hunique, hrentals⟩
  · have hcommitted := (tentative_completeRental now rental.id stationId).eq hrun
    exact .inl ⟨hrefused, e, t, bind_of_error hrun, hcommitted⟩
  · have hcommit := safeCommit_eq t
    rw [if_pos hunique] at hcommit
    exact .inr ⟨hreturnable, t.working, (bind_of_ok hrun).trans (bind_of_ok hcommit), hrentals⟩

/-! ## Which errors leave the rental alone -/

omit [Casing] in
theorem afterReturn_cases (currentUserId : ℕ) (refreshed audited : Except Exc Unit)
    (rental : Rental) (db : Db) :
    ((rental.userId = currentUserId ∧ refreshed = .ok () ∧ audited = .ok ()) ∧
        (afterReturn currentUserId refreshed audited rental).call db = (.ok rental, db)) ∨
      ¬ (rental.userId = currentUserId ∧ refreshed = .ok () ∧ audited = .ok ()) ∧
        ∃ e, (afterReturn currentUserId refreshed audited rental).call db = (.error e, db) := by
  unfold afterReturn
  rcases refreshed with e | ⟨⟩
  · exact .inr ⟨fun h => by simp at h, e, rfl⟩
  by_cases howner : rental.userId = currentUserId
  swap
  · refine .inr ⟨fun h => howner h.1, .http 403 "Not authorized", call_eq (t := .fresh db) ?_⟩
    exact (lift_bind rfl _ _).trans (ensure_bind_not howner _ _ _)
  rcases audited with e | ⟨⟩
  · refine .inr ⟨fun h => by simp at h, e, call_eq (t := .fresh db) ?_⟩
    exact (lift_bind rfl _ _).trans ((ensure_bind howner _ _ _).trans rfl)
  · refine .inl ⟨⟨howner, rfl, rfl⟩, call_eq (t := .fresh db) ?_⟩
    exact (lift_bind rfl _ _).trans ((ensure_bind howner _ _ _).trans rfl)

omit [Casing] in
theorem touched_of_ended {db' : Db} (hget : db.rentals.get? rental.id = some rental)
    (hactive : rental.status = .active)
    (hrentals : db'.rentals = db.rentals.set (ended now stationId rental)) :
    ¬ Untouched rental db db' := by
  intro h
  have hrow : db'.rentals.get? rental.id = some (ended now stationId rental) := by
    rw [hrentals]
    exact Table.get?_set_self (r := ended now stationId rental) hget
  have hsame : ended now stationId rental = rental :=
    Option.some.inj (hrow.symm.trans (h.row.trans hget))
  have hcompleted : (ended now stationId rental).status = .completed := rfl
  rw [hsame, hactive] at hcompleted
  cases hcompleted

/-- **Which requests leave an active rental alone when they are answered with an error**: those of a
caller who is not logged in, those for a return that is refused, and those of the user who rents the
battery, if neither the refresh nor the audit row fails after the commit. -/
theorem untouched_iff (now stationId : ℕ) (currentUser : Except Exc ℕ)
    (refreshed audited : Except Exc Unit) (rental : Rental) (db : Db)
    (hget : db.rentals.get? rental.id = some rental) (hactive : rental.status = .active) :
    ErrorsUntouched now stationId currentUser refreshed audited rental db ↔
      ∀ currentUserId, currentUser = .ok currentUserId → Returnable now stationId rental db →
        rental.userId = currentUserId ∧ refreshed = .ok () ∧ audited = .ok () := by
  unfold ErrorsUntouched returnRentalBattery
  rcases currentUser with e | currentUserId
  · -- the caller is not logged in
    refine iff_of_true (fun e' db' h => ?_) fun _ h => by cases h
    rw [call_eq (lift_bind_error rfl _ _)] at h
    obtain ⟨-, rfl⟩ := Prod.mk.inj h
    exact ⟨rfl, rfl⟩
  have hlogin : ∀ f : ℕ → FleetTx Rental,
      (lift (.ok currentUserId) >>= f).call db = (f currentUserId).call db := fun f => rfl
  rw [hlogin]
  rcases returnBattery_cases now stationId hget hactive with
    ⟨hrefused, e, t, hrun, hcommitted⟩ | ⟨hreturnable, db', hrun, hrentals⟩
  · refine iff_of_true (fun e' db' h => ?_) fun _ _ hreturnable => absurd hreturnable hrefused
    rw [call_eq (bind_of_error hrun)] at h
    obtain ⟨-, rfl⟩ := Prod.mk.inj h
    rw [hcommitted]
    exact ⟨rfl, rfl⟩
  · -- the rental has ended whatever is answered
    have hrest : ∀ f : Rental → FleetTx Rental,
        (returnBattery now rental.id stationId >>= f).call db =
          (f (ended now stationId rental)).call db' := by
      intro f
      unfold Tx.call
      rw [bind_of_ok hrun]
    rw [hrest]
    rcases afterReturn_cases currentUserId refreshed audited (ended now stationId rental) db' with
      ⟨hfine, hok⟩ | ⟨hnot, e, herror⟩
    · refine iff_of_true (fun e' db'' h => ?_) fun currentUserId' huser _ => ?_
      · rw [hok] at h
        cases (Prod.mk.inj h).1
      · obtain rfl := Except.ok.inj huser
        exact hfine
    · refine iff_of_false (fun h => ?_) fun h => hnot (h currentUserId rfl hreturnable)
      exact touched_of_ended hget hactive hrentals (h e db' herror)

end

/-! ## Samples -/

/-- Rental 1 of user 1 is active, with battery 7. -/
def rentedRental : Rental where
  id := 1
  userId := 1
  batteryId := 7
  startStationId := 9
  startTime := 0
  expectedEndTime := 10
  totalAmount := 0
  securityDeposit := 0
  status := .active

/-- It may be returned to station 9. -/
def rentedStore : Db where
  batteries := ⟨[{ id := 7, serialNumber := "WZ-7", status := .deployed
                   locationType := some .customer }], List.nodup_singleton _⟩
  stations := ⟨[{ id := 9 }], List.nodup_singleton _⟩
  rentals := ⟨[rentedRental], List.nodup_singleton _⟩

theorem untouched_sample :
    ErrorsUntouched 100 9 (.ok 1) (.ok ()) (.ok ()) rentedRental rentedStore :=
  (untouched_iff 100 9 (.ok 1) (.ok ()) (.ok ()) rentedRental rentedStore rfl rfl).mpr
    fun _ h _ => ⟨Except.ok.inj h, rfl, rfl⟩

/-- User 2 gets a 403 for rental 1 of user 1, and the rental has ended. -/
theorem ended_by_other_user :
    ((returnRentalBattery 100 1 9 (.ok 2) (.ok ()) (.ok ())).call rentedStore).1 =
      .error (.http 403 "Not authorized") ∧
    ¬ ErrorsUntouched 100 9 (.ok 2) (.ok ()) (.ok ()) rentedRental rentedStore := by
  have hanswer : ((returnRentalBattery 100 1 9 (.ok 2) (.ok ()) (.ok ())).call rentedStore).1 =
      .error (.http 403 "Not authorized") := by decide +kernel
  refine ⟨hanswer, fun h => ?_⟩
  have hrow := (h _ _ (Prod.ext hanswer rfl)).row
  revert hrow
  decide +kernel

end WezuBackend.Rental.ReturnRequests
