import WezuBackend.Rental.Swaps

/-!
# All of a swap or nothing

`execute_swap` of `app/services/swap_service.py` makes two battery transitions, points the rental to
the new battery and logs the swap; `complete_swap` of `app/api/v1/swaps.py` takes the fee in the
same commit.

`swap_atomic` says that either all of it is stored or nothing.  There is one swap that does not do
what it says: nothing compares the two batteries, so a rental whose own battery stands available at
the station swaps it for itself, and the battery that was returned is the one handed out
(`swap_for_itself`).
-/

namespace WezuBackend.Rental.SwapAtomicity

open Lib.Tables Lib.Atomicity Lib.Atomicity.Tx
open Core.Base Core.Letters Fleet.Model
open Fleet.Consistency Fleet.Transitions
open Rental.Service Rental.Effects Rental.Swaps
open Financial.Model (Wallet)

/-! ## What a swap stores -/

/-- The battery `k` is at a place, in a status. -/
def Placed (batteries : Table Battery) (k : ℕ) (status : BatteryStatus) (type : LocationType)
    (locationId : Option ℕ) : Prop :=
  ∃ b ∈ batteries, b.id = k ∧ b.status = status ∧ b.locationType = some type ∧
    b.locationId = locationId

instance (batteries : Table Battery) (k : ℕ) (status : BatteryStatus) (type : LocationType)
    (locationId : Option ℕ) : Decidable (Placed batteries k status type locationId) :=
  inferInstanceAs (Decidable (∃ b ∈ batteries, _))

section

variable [Casing]

/-- The whole of a swap: the old battery is available at the station, unless it is handed out again
at once, the new one is with the customer, the rental is pointed to it, the two are off the shelves,
and the three events are there; nothing else has changed. -/
structure Exchanged (rentalId newBatteryId stationId : ℕ) (rental : Rental) (old new : Battery)
    (db db' : Db) : Prop where
  mem : rental ∈ db.rentals
  id : rental.id = rentalId
  active : rental.status = .active
  oldMem : old ∈ db.batteries
  oldId : old.id = rental.batteryId
  newMem : new ∈ db.batteries
  newId : new.id = newBatteryId
  available : Placed db.batteries newBatteryId .available .station (some stationId)
  rentals : db'.rentals = db.rentals.set { rental with batteryId := newBatteryId }
  returned : newBatteryId ≠ rental.batteryId →
    Placed db'.batteries rental.batteryId .available .station (some stationId)
  dispensed : Placed db'.batteries newBatteryId .deployed .customer none
  others : ∀ b, b.id ≠ rental.batteryId → b.id ≠ newBatteryId →
    (b ∈ db'.batteries ↔ b ∈ db.batteries)
  shelves : ∀ r, r ∈ db'.shelfBatteries ↔ r ∈ db.shelfBatteries ∧
    sqlUpper r.batteryId ≠ normal old.serialNumber ∧ sqlUpper r.batteryId ≠ normal new.serialNumber
  lifecycle : ∃ e e', db'.batteryLifecycleEvents.rows = db.batteryLifecycleEvents.rows ++ [e, e'] ∧
    e.batteryId = rental.batteryId ∧ e.eventType = "swap_returned" ∧
    e'.batteryId = newBatteryId ∧ e'.eventType = "swap_dispensed"
  event : ∃ e, db'.rentalEvents.rows = db.rentalEvents.rows ++ [e] ∧ e.rentalId = rentalId ∧
    e.eventType = "swap_complete" ∧ e.stationId = some stationId ∧ e.batteryId = some newBatteryId
  rest : db' = { db with
    rentals := db'.rentals, batteries := db'.batteries, shelfBatteries := db'.shelfBatteries
    batteryLifecycleEvents := db'.batteryLifecycleEvents, rentalEvents := db'.rentalEvents }

/-- A transition to a place that is no shelf takes the battery off the shelves. -/
theorem transitioned_shelves {now : ℕ} {args : Transition} {battery : Battery}
    {a : Option ShelfBattery} {db db' : Db} (h : Transitioned now args battery a db db')
    (htype : targetLocationType args battery ≠ some .shelf) (r : ShelfBattery) :
    r ∈ db'.shelfBatteries ↔
      r ∈ db.shelfBatteries ∧ sqlUpper r.batteryId ≠ normal battery.serialNumber := by
  have hassigned : ∀ x ∈ a, x ∈ db.shelfBatteries := fun x hx => ((h.assigned x).mpr hx).1
  have hrows : db'.shelfBatteries = dropped db.shelfBatteries a := by
    have hreshelved := h.reshelved
    generalize targetLocationType args battery = type at htype hreshelved
    generalize targetLocationId args battery = k at hreshelved
    generalize db'.shelfBatteries = rows at hreshelved ⊢
    rcases hreshelved with _ | _ | _
    · exact absurd rfl htype
    · exact absurd rfl htype
    · rfl
  rw [hrows, mem_dropped hassigned]
  refine and_congr_right fun hr => not_congr ?_
  rw [← h.assigned r]
  exact and_iff_right hr

theorem exchanged_of_steps {now rentalId newBatteryId stationId : ℕ} {rental : Rental}
    {old new : Battery} {db db₁ db₂ db' : Db}
    (h : SwapSteps now rentalId newBatteryId stationId rental old new db db₁ db₂ db') :
    Exchanged rentalId newBatteryId stationId rental old new db db' := by
  obtain ⟨a, hreturned⟩ := h.returned
  obtain ⟨a', hdispensed⟩ := h.dispensed
  obtain ⟨description, hwritten⟩ := h.written
  have hmoved := hreturned.moved h.oldMem rfl rfl rfl
  -- the battery that the second transition finds, with its serial
  obtain ⟨b, hb⟩ : ∃ b, b = Effects.dispensed now rentalId stationId old new := ⟨_, rfl⟩
  rw [← hb] at hdispensed
  have hfound : b ∈ db₁.batteries ∧ b.id = newBatteryId ∧
      normal b.serialNumber = normal new.serialNumber := by
    unfold Effects.dispensed at hb
    split_ifs at hb with hsame
    · have hone : new = old := Table.eq_of_key h.newMem h.oldMem hsame
      have hmem := (hreturned.mem_batteries h.oldMem).mpr (.inl rfl)
      rw [hb, outcome_id, outcome_serialNumber, normal_normal, ← hone]
      rw [← hone] at hmem
      exact ⟨hmem, h.newId, rfl⟩
    · rw [hb]
      exact ⟨(hmoved.others new hsame).mpr h.newMem, h.newId, rfl⟩
  obtain ⟨hmem, hid, hserial⟩ := hfound
  have hmoved' := hdispensed.moved hmem rfl rfl rfl
  rw [hid] at hmoved'
  rw [h.oldId] at hmoved
  have hbatteries : db'.batteries = db₂.batteries := by rw [hwritten]
  refine ⟨h.mem, h.id, h.active, h.oldMem, h.oldId, h.newMem, h.newId, ?_, ?_, fun hne => ?_, ?_,
    fun x hx hx' => ?_, fun r => ?_, ?_, ?_, ?_⟩
  · exact ⟨new, h.newMem, h.newId, h.available, h.newType, h.newStation⟩
  · rw [hwritten, hdispensed.rest, hreturned.rest]
  · obtain ⟨x, hx, hxid, hplace⟩ := hmoved.placed
    rw [hbatteries]
    exact ⟨x, (hmoved'.others x (hxid ▸ hne.symm)).mpr hx, hxid, hplace⟩
  · rw [hbatteries]
    exact hmoved'.placed
  · rw [hbatteries, hmoved'.others x hx', hmoved.others x hx]
  · have hrows : db'.shelfBatteries = db₂.shelfBatteries := by rw [hwritten]
    rw [hrows, transitioned_shelves hdispensed (by simp [targetLocationType, swapDispense]),
      transitioned_shelves hreturned (by simp [targetLocationType, swapReturn]), hserial, and_assoc]
  · rw [hwritten, hdispensed.rest, hreturned.rest]
    exact ⟨_, _, List.append_assoc _ _ _, h.oldId, rfl, hid, rfl⟩
  · rw [hwritten, hdispensed.rest, hreturned.rest]
    exact ⟨_, rfl, rfl, rfl, rfl, rfl⟩
  · rw [hwritten, hdispensed.rest, hreturned.rest]

theorem executeSwap_cases (now rentalId newBatteryId stationId : ℕ) (s : Session Db) :
    (∃ rental old new db', executeSwap now rentalId newBatteryId stationId true s =
        (.ok true, ⟨db', db'⟩) ∧
      Exchanged rentalId newBatteryId stationId rental old new s.working db') ∨
      executeSwap now rentalId newBatteryId stationId true s =
        (.ok false, ⟨s.committed, s.committed⟩) := by
  have hundo : ∀ {e : Exc} {t : Session Db},
      (do swapBatteries now rentalId newBatteryId stationId; safeCommit; return true :
        FleetTx Bool) s = (.error e, t) → t.committed = s.committed →
      executeSwap now rentalId newBatteryId stationId true s =
        (.ok false, ⟨s.committed, s.committed⟩) := by
    intro e t hrun hcommitted
    rw [executeSwap, if_pos rfl, handle_of_error hrun, ← hcommitted]
    rfl
  rcases hrun : swapBatteries now rentalId newBatteryId stationId s with ⟨e | u, t⟩
  · have hcommitted := (tentative_swapBatteries now rentalId newBatteryId stationId).eq hrun
    exact .inr (hundo (bind_of_error hrun) hcommitted)
  · have hcommitted := (tentative_swapBatteries now rentalId newBatteryId stationId).eq hrun
    obtain ⟨rental, old, new, db₁, db₂, hsteps⟩ := swapBatteries_steps hrun
    have hcommit := safeCommit_eq t
    split_ifs at hcommit with hunique
    · refine .inl ⟨rental, old, new, t.working, ?_, exchanged_of_steps hsteps⟩
      rw [executeSwap, if_pos rfl]
      exact handle_of_ok ((bind_of_ok hrun).trans (bind_of_ok hcommit))
    · exact .inr (hundo ((bind_of_ok hrun).trans (bind_of_error hcommit)) hcommitted)

/-! ## `complete_swap` -/

/-- The fee has been taken from the user's wallet, which had it, if there is a fee. -/
def FeePaid (swapFee : ℤ) (swapSession : SwapSession) (db db' : Financial.Model.Db) : Prop :=
  if 0 < swapFee then
    ∃ w ∈ db.wallets, w.userId = swapSession.userId ∧ swapFee ≤ w.balance ∧
      db' = charged swapFee swapSession w db
  else db' = db

/-- The swap of a session, with its payment. -/
structure Completed (now rentalId newBatteryId : ℕ) (completeIn : SwapCompleteRequest)
    (swapFee : ℤ) (swapSession : SwapSession) (db db' : SwapDb) : Prop where
  swapped : ∃ rental old new, Exchanged rentalId newBatteryId swapSession.stationId rental old new
    db.fleet db'.fleet
  paid : FeePaid swapFee swapSession db.wallet db'.wallet
  recorded : db'.swapSessions =
    db.swapSessions.set (completed now newBatteryId completeIn swapFee swapSession)

theorem completed_of_run {now rentalId newBatteryId : ℕ} (completeIn : SwapCompleteRequest)
    {swapFee : ℤ} (swapSession : SwapSession) {wallet : Option Wallet} {fleet : Db} {db : SwapDb}
    (hfee : feeWallet swapFee swapSession.userId (.fresh db) = (.ok wallet, .fresh db))
    (hswap : swapBatteries now rentalId newBatteryId swapSession.stationId (.fresh db.fleet) =
      (.ok (), ⟨db.fleet, fleet⟩)) :
    Completed now rentalId newBatteryId completeIn swapFee swapSession db
      (paidAndSwapped now newBatteryId completeIn swapFee swapSession wallet fleet db) := by
  obtain ⟨rental, old, new, db₁, db₂, hsteps⟩ := swapBatteries_steps hswap
  refine ⟨⟨rental, old, new, exchanged_of_steps hsteps⟩, ?_, rfl⟩
  have hpaid := feeWallet_ok hfee
  unfold FeePaid
  split_ifs at hpaid ⊢ with hpos
  · obtain ⟨w, hw, rfl, huser, hle⟩ := hpaid
    exact ⟨w, hw, huser, hle, if_pos hpos⟩
  · rw [hpaid]
    rfl

theorem payAndSwap_atomic (now rentalId newBatteryId : ℕ) (completeIn : SwapCompleteRequest)
    (swapFee : ℤ) (swapSession : SwapSession) (db : SwapDb) :
    (∃ e, (payAndSwap now rentalId newBatteryId completeIn swapFee swapSession).call db =
        (.error e, db)) ∨
      ∃ db', (payAndSwap now rentalId newBatteryId completeIn swapFee swapSession).call db =
          (.ok (), db') ∧
        Completed now rentalId newBatteryId completeIn swapFee swapSession db db' := by
  rcases payAndSwap_cases now rentalId newBatteryId completeIn swapFee swapSession db with
    ⟨e, herror⟩ | ⟨wallet, fleet, hfee, hswap, hrun⟩
  · exact .inl ⟨e, call_eq herror⟩
  · have hcompleted := completed_of_run completeIn swapSession hfee hswap
    exact .inr ⟨_, call_eq hrun, hcompleted⟩

theorem completeSwap_atomic (now swapId : ℕ) (completeIn : SwapCompleteRequest)
    (currentUser : CurrentUser) (db : SwapDb) :
    (∃ e, (completeSwap now swapId completeIn currentUser).call db = (.error e, db)) ∨
      ∃ response swapSession rentalId newBatteryId db',
        (completeSwap now swapId completeIn currentUser).call db = (.ok response, db') ∧
        db.swapSessions.get? swapId = some swapSession ∧ swapSession.rentalId = some rentalId ∧
        Completed now rentalId newBatteryId completeIn (calculateSwapFee rentalId) swapSession
          db db' := by
  rcases completeSwap_checked now swapId completeIn currentUser db with
    ⟨e, hrefused⟩ | ⟨swapSession, rentalId, batteryId, hsession, hlinked, -, hchecked⟩
  · exact .inl ⟨e, call_eq hrefused⟩
  rcases payAndSwap_cases now rentalId batteryId completeIn (calculateSwapFee rentalId) swapSession
    db with ⟨e, herror⟩ | ⟨wallet, fleet, hfee, hswap, hrun⟩
  · exact .inl ⟨e, call_eq (hchecked.trans (bind_of_error herror))⟩
  · have hcompleted := completed_of_run completeIn swapSession hfee hswap
    exact .inr ⟨_, swapSession, rentalId, batteryId, _, call_eq (hchecked.trans (bind_of_ok hrun)),
      hsession, hlinked, hcompleted⟩

/-- **All of a swap or nothing.**  In every state, `execute_swap` with its own commit stores the
whole swap and returns true, or it stores nothing and returns false; and the end of `complete_swap`
stores the swap with its payment or raises and stores nothing, at any fee, as `complete_swap` does
at the fee of the code. -/
theorem swap_atomic :
    (∀ (now rentalId newBatteryId stationId : ℕ) (s : Session Db),
      (∃ rental old new db', executeSwap now rentalId newBatteryId stationId true s =
          (.ok true, ⟨db', db'⟩) ∧
        Exchanged rentalId newBatteryId stationId rental old new s.working db') ∨
        executeSwap now rentalId newBatteryId stationId true s =
          (.ok false, ⟨s.committed, s.committed⟩)) ∧
    (∀ (now rentalId newBatteryId : ℕ) (completeIn : SwapCompleteRequest) (swapFee : ℤ)
        (swapSession : SwapSession) (db : SwapDb),
      (∃ e, (payAndSwap now rentalId newBatteryId completeIn swapFee swapSession).call db =
          (.error e, db)) ∨
        ∃ db', (payAndSwap now rentalId newBatteryId completeIn swapFee swapSession).call db =
            (.ok (), db') ∧
          Completed now rentalId newBatteryId completeIn swapFee swapSession db db') ∧
    ∀ (now swapId : ℕ) (completeIn : SwapCompleteRequest) (currentUser : CurrentUser)
        (db : SwapDb),
      (∃ e, (completeSwap now swapId completeIn currentUser).call db = (.error e, db)) ∨
        ∃ response swapSession rentalId newBatteryId db',
          (completeSwap now swapId completeIn currentUser).call db = (.ok response, db') ∧
          db.swapSessions.get? swapId = some swapSession ∧ swapSession.rentalId = some rentalId ∧
          Completed now rentalId newBatteryId completeIn (calculateSwapFee rentalId) swapSession
            db db' :=
  ⟨executeSwap_cases, payAndSwap_atomic, completeSwap_atomic⟩

end

/-- Rental 1 is active, and its battery 7 stands available at station 8. -/
def ownBattery : Db where
  batteries := ⟨[{ id := 7, serialNumber := "WZ-7", locationType := some .station
                   locationId := some 8, stationId := some 8 }], List.nodup_singleton _⟩
  stations := ⟨[{ id := 8 }], List.nodup_singleton _⟩
  rentals := ⟨[{ id := 1, userId := 1, batteryId := 7, startStationId := 8, startTime := 0
                 expectedEndTime := 10, totalAmount := 0, securityDeposit := 0
                 status := .active }], List.nodup_singleton _⟩

/-- The swap of battery 7 for itself is a success that has not returned it to the station. -/
theorem swap_for_itself :
    (ownBattery.rentals.get? 1).map (fun r => r.batteryId) = some 7 ∧
    (executeSwap 100 1 7 8 true (.fresh ownBattery)).1 = .ok true ∧
    Placed (executeSwap 100 1 7 8 true (.fresh ownBattery)).2.committed.batteries 7
      .deployed .customer none ∧
    ¬ Placed (executeSwap 100 1 7 8 true (.fresh ownBattery)).2.committed.batteries 7
      .available .station (some 8) := by
  decide +kernel

end WezuBackend.Rental.SwapAtomicity
