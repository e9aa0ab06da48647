import WezuBackend.Fleet.Transitions
import WezuBackend.Orders.Service

/-!
# What the order endpoints leave alone

The steps of a request each write one group of tables: the batteries with their events and shelf
rows, the batteries' rows at the order, the drivers, or the records of the request.  `Fixes` says
of each step that it never commits and leaves every other table alone, so that a fact about a table
is only ever lost in the steps that write it.
-/

namespace WezuBackend.Orders.Effects

open Lib.Tables Lib.Atomicity.Tx Core.Base Core.Letters Fleet.Model
open Fleet.Consistency Fleet.Transitions Orders.Normalise Orders.Service

/-! ## Groups of tables -/

/-- All but what a move of a battery writes. -/
def exceptMoves (db : Db) : Db :=
  { db with batteries := .empty, batteryLifecycleEvents := .empty, shelfBatteries := .empty }

def exceptRows (db : Db) : Db := { db with orderBatteries := .empty }

/-- All but the drivers, of whom only the ids are left. -/
def exceptDrivers (db : Db) : Db × List ℕ :=
  ({ db with driverProfiles := .empty }, db.driverProfiles.keys)

/-- All but the records of requests. -/
def exceptRecords (db : Db) : Db :=
  { db with idempotencyKeys := .empty, orderRealtimeOutbox := .empty }

def ordersAndDrivers (db : Db) : Table Order × Table DriverProfile := (db.orders, db.driverProfiles)

theorem ordersAndDrivers_of_moves (db db' : Db) (h : exceptMoves db = exceptMoves db') :
    ordersAndDrivers db = ordersAndDrivers db' := by
  show ordersAndDrivers (exceptMoves db) = ordersAndDrivers (exceptMoves db')
  rw [h]

theorem ordersAndDrivers_of_rows (db db' : Db) (h : exceptRows db = exceptRows db') :
    ordersAndDrivers db = ordersAndDrivers db' := by
  show ordersAndDrivers (exceptRows db) = ordersAndDrivers (exceptRows db')
  rw [h]

theorem ordersAndDrivers_of_records (db db' : Db) (h : exceptRecords db = exceptRecords db') :
    ordersAndDrivers db = ordersAndDrivers db' := by
  show ordersAndDrivers (exceptRecords db) = ordersAndDrivers (exceptRecords db')
  rw [h]

theorem orders_of_both (db db' : Db) (h : ordersAndDrivers db = ordersAndDrivers db') :
    db.orders = db'.orders := congrArg Prod.fst h

theorem orders_of_drivers (db db' : Db) (h : exceptDrivers db = exceptDrivers db') :
    db.orders = db'.orders := by
  show (exceptDrivers db).1.orders = (exceptDrivers db').1.orders
  rw [h]

theorem orders_of_moves (db db' : Db) (h : exceptMoves db = exceptMoves db') :
    db.orders = db'.orders := orders_of_both _ _ (ordersAndDrivers_of_moves _ _ h)

theorem orders_of_rows (db db' : Db) (h : exceptRows db = exceptRows db') :
    db.orders = db'.orders := orders_of_both _ _ (ordersAndDrivers_of_rows _ _ h)

theorem orders_of_records (db db' : Db) (h : exceptRecords db = exceptRecords db') :
    db.orders = db'.orders := orders_of_both _ _ (ordersAndDrivers_of_records _ _ h)

theorem drivers_of_both (db db' : Db) (h : ordersAndDrivers db = ordersAndDrivers db') :
    db.driverProfiles = db'.driverProfiles := congrArg Prod.snd h

theorem drivers_of_rows (db db' : Db) (h : exceptRows db = exceptRows db') :
    db.driverProfiles = db'.driverProfiles := drivers_of_both _ _ (ordersAndDrivers_of_rows _ _ h)

theorem drivers_of_records (db db' : Db) (h : exceptRecords db = exceptRecords db') :
    db.driverProfiles = db'.driverProfiles :=
      drivers_of_both _ _ (ordersAndDrivers_of_records _ _ h)

def driverIds (db : Db) : List ℕ := db.driverProfiles.keys

theorem driverIds_of_both (db db' : Db) (h : ordersAndDrivers db = ordersAndDrivers db') :
    driverIds db = driverIds db' := congrArg (fun p => p.2.keys) h

theorem driverIds_of_drivers (db db' : Db) (h : exceptDrivers db = exceptDrivers db') :
    driverIds db = driverIds db' := congrArg Prod.snd h

theorem driverIds_of_moves (db db' : Db) (h : exceptMoves db = exceptMoves db') :
    driverIds db = driverIds db' := driverIds_of_both _ _ (ordersAndDrivers_of_moves _ _ h)

theorem driverIds_of_rows (db db' : Db) (h : exceptRows db = exceptRows db') :
    driverIds db = driverIds db' := driverIds_of_both _ _ (ordersAndDrivers_of_rows _ _ h)

theorem driverIds_of_records (db db' : Db) (h : exceptRecords db = exceptRecords db') :
    driverIds db = driverIds db' := driverIds_of_both _ _ (ordersAndDrivers_of_records _ _ h)

def ordersAndIds (db : Db) : Table Order × List ℕ := (db.orders, driverIds db)

theorem ordersAndIds_of_drivers (db db' : Db) (h : exceptDrivers db = exceptDrivers db') :
    ordersAndIds db = ordersAndIds db' :=
  Prod.ext (orders_of_drivers _ _ h) (driverIds_of_drivers _ _ h)

theorem ordersAndIds_of_both (db db' : Db) (h : ordersAndDrivers db = ordersAndDrivers db') :
    ordersAndIds db = ordersAndIds db' :=
  Prod.ext (orders_of_both _ _ h) (driverIds_of_both _ _ h)

theorem driverIds_of_ordersAndIds (db db' : Db) (h : ordersAndIds db = ordersAndIds db') :
    driverIds db = driverIds db' := congrArg Prod.snd h

def batteryRows (db : Db) : Table OrderBattery := db.orderBatteries

theorem batteryRows_of_drivers (db db' : Db) (h : exceptDrivers db = exceptDrivers db') :
    batteryRows db = batteryRows db' := by
  show (exceptDrivers db).1.orderBatteries = (exceptDrivers db').1.orderBatteries
  rw [h]

theorem batteryRows_of_moves (db db' : Db) (h : exceptMoves db = exceptMoves db') :
    batteryRows db = batteryRows db' := by
  show batteryRows (exceptMoves db) = batteryRows (exceptMoves db')
  rw [h]

theorem batteryRows_of_records (db db' : Db) (h : exceptRecords db = exceptRecords db') :
    batteryRows db = batteryRows db' := by
  show batteryRows (exceptRecords db) = batteryRows (exceptRecords db')
  rw [h]

def keyRecords (db : Db) : Table IdempotencyKey := db.idempotencyKeys

theorem keyRecords_of_drivers (db db' : Db) (h : exceptDrivers db = exceptDrivers db') :
    keyRecords db = keyRecords db' := by
  show (exceptDrivers db).1.idempotencyKeys = (exceptDrivers db').1.idempotencyKeys
  rw [h]

theorem keyRecords_of_moves (db db' : Db) (h : exceptMoves db = exceptMoves db') :
    keyRecords db = keyRecords db' := by
  show keyRecords (exceptMoves db) = keyRecords (exceptMoves db')
  rw [h]

theorem keyRecords_of_rows (db db' : Db) (h : exceptRows db = exceptRows db') :
    keyRecords db = keyRecords db' := by
  show keyRecords (exceptRows db) = keyRecords (exceptRows db')
  rw [h]

def announcements (db : Db) : Table OrderRealtimeOutbox := db.orderRealtimeOutbox

theorem announcements_of_drivers (db db' : Db) (h : exceptDrivers db = exceptDrivers db') :
    announcements db = announcements db' := by
  show (exceptDrivers db).1.orderRealtimeOutbox = (exceptDrivers db').1.orderRealtimeOutbox
  rw [h]

theorem announcements_of_moves (db db' : Db) (h : exceptMoves db = exceptMoves db') :
    announcements db = announcements db' := by
  show announcements (exceptMoves db) = announcements (exceptMoves db')
  rw [h]

theorem announcements_of_rows (db db' : Db) (h : exceptRows db = exceptRows db') :
    announcements db = announcements db' := by
  show announcements (exceptRows db) = announcements (exceptRows db')
  rw [h]

theorem exceptDrivers_set (db : Db) (driver : DriverProfile) :
    exceptDrivers { db with driverProfiles := db.driverProfiles.set driver }
      = exceptDrivers db := by
  unfold exceptDrivers
  rw [Table.keys_set]

/-! ## Moves of batteries -/

section

variable [Casing]

omit [Casing] in
theorem fixes_saveBattery (battery : Battery) : Fixes exceptMoves (saveBattery battery) :=
  fixes_update fun _ => rfl

omit [Casing] in
theorem fixes_addLifecycleEvent (now batteryId : ℕ) (eventType : String)
    (description : Option String) (actorId : Option ℕ) :
    Fixes exceptMoves (addLifecycleEvent now batteryId eventType description actorId) :=
  fixes_update fun _ => rfl

theorem fixes_applyBatteryTransition (now : ℕ) (battery : Battery) (args : Transition) :
    Fixes exceptMoves (applyBatteryTransition now battery args) := by
  intro s
  rcases h : applyBatteryTransition now battery args s with ⟨e | b, t⟩
  · rcases applyBatteryTransition_error h with rfl | rfl <;> exact ⟨rfl, rfl⟩
  · obtain ⟨-, hcommitted, a, ht⟩ := applyBatteryTransition_ok h
    refine ⟨hcommitted, ?_⟩
    rw [ht.rest]
    rfl

theorem fixes_withSerial (now : ℕ) (battery : Battery) :
    Fixes exceptMoves (withSerial now battery) :=
  (readOnly_lift _).fixes.bind fun _ =>
    (fixes_saveBattery _).bind fun _ => (readOnly_pure _).fixes

theorem readOnly_assertBatteryShelfStateConsistent (battery : Battery) :
    ReadOnly (assertBatteryShelfStateConsistent battery) := by
  refine (readOnly_lift _).bind fun serial => (readOnly_getShelfAssignment _).bind fun a => ?_
  split_ifs
  · refine (readOnly_demand _ _).bind fun _ => (readOnly_demand _ _).bind fun _ => ?_
    exact readOnly_ensure _ _
  · rcases a with _ | row
    · exact readOnly_pure ()
    · exact readOnly_raise _

theorem readOnly_fetchBatteriesCaseInsensitive (serials : List String) :
    ReadOnly (fetchBatteriesCaseInsensitive serials) := by
  unfold fetchBatteriesCaseInsensitive
  split_ifs
  · exact readOnly_pure _
  · refine readOnly_query.bind fun _ => (readOnly_lift _).bind fun _ => ?_
    exact (readOnly_ensure _ _).bind fun _ => readOnly_pure _

theorem readOnly_fetchAssigned (batteryIds : List String) : ReadOnly (fetchAssigned batteryIds) :=
  (readOnly_lift _).bind fun _ => readOnly_fetchBatteriesCaseInsensitive _

theorem fixes_moved (now : ℕ) (battery : Battery) (args : Transition) :
    Fixes exceptMoves (do let _ ← applyBatteryTransition now battery args) :=
  (fixes_applyBatteryTransition now battery args).bind fun _ => (readOnly_pure _).fixes

theorem fixes_reserveBattery (now : ℕ) (orderId : String) (excludeOrderId : Option String)
    (battery : Battery) :
      Fixes exceptMoves (reserveBattery now orderId excludeOrderId battery) := by
  refine (fixes_withSerial _ _).bind fun battery => (readOnly_ensure _ _).fixes.bind fun _ => ?_
  refine (readOnly_ensure _ _).fixes.bind fun _ => (readOnly_ensure _ _).fixes.bind fun _ => ?_
  split_ifs
  · exact (readOnly_assertBatteryShelfStateConsistent _).fixes.bind fun _ => fixes_moved _ _ _
  · exact fixes_moved _ _ _

theorem fixes_reserveOrderBatteries (now : ℕ) (orderId : String) (batteryIds : List String)
    (excludeOrderId : Option String) :
    Fixes exceptMoves (reserveOrderBatteries now orderId batteryIds excludeOrderId) := by
  refine (readOnly_fetchAssigned _).fixes.bind fun batteries => ?_
  refine (readOnly_assertOrders _ _).fixes.bind fun _ => ?_
  refine (readOnly_assertTransfers _ _).fixes.bind fun _ => ?_
  exact fixes_forM (fun battery => fixes_reserveBattery _ _ _ battery) batteries

theorem fixes_dispatchBattery (now : ℕ) (order : Order) (actorId : Option ℕ) (battery : Battery) :
    Fixes exceptMoves (dispatchBattery now order actorId battery) := by
  refine (readOnly_demand _ _).fixes.bind fun type => (readOnly_ensure _ _).fixes.bind fun _ => ?_
  split_ifs
  · exact (readOnly_assertBatteryShelfStateConsistent _).fixes.bind fun _ => fixes_moved _ _ _
  · exact fixes_moved _ _ _

theorem fixes_deliverBattery (now : ℕ) (order : Order) (actorId : Option ℕ) (battery : Battery) :
    Fixes exceptMoves (deliverBattery now order actorId battery) := by
  unfold deliverBattery
  split_ifs
  · exact readOnly_query.fixes.bind fun _ => (readOnly_lift _).fixes.bind fun _ => fixes_moved _ _ _
  · exact fixes_moved _ _ _

theorem fixes_releaseBattery (now : ℕ) (order : Order) (newStatus : String)
    (failureReason : Option String) (actorId : Option ℕ) (battery : Battery) :
    Fixes exceptMoves (releaseBattery now order newStatus failureReason actorId battery) :=
  readOnly_query.fixes.bind fun _ => (readOnly_lift _).fixes.bind fun _ => fixes_moved _ _ _

theorem fixes_syncBattery (now : ℕ) (order : Order) (newStatus : String)
    (failureReason : Option String) (actorId : Option ℕ) (battery : Battery) :
    Fixes exceptMoves (syncBattery now order newStatus failureReason actorId battery) := by
  refine (fixes_withSerial _ _).bind fun battery => ?_
  refine (fixes_dispatchBattery _ _ _ _).ite ((fixes_deliverBattery _ _ _ _).ite ?_)
  exact (fixes_releaseBattery _ _ _ _ _ _).ite (readOnly_pure ()).fixes

/-! ## Rows of batteries at orders -/

theorem fixes_addRows (orderId : String) (batteries : List Battery) (serials : List String)
    (db : Db) : exceptRows (addRows orderId batteries serials db) = exceptRows db := by
  unfold addRows
  induction serials generalizing db with
  | nil => rfl
  | cons serial serials ih =>
    rw [List.foldl_cons, ih]
    rfl

theorem fixes_persistOrderBatteries (orderId : String) (batteryIds : List String) :
    Fixes exceptRows (persistOrderBatteries orderId batteryIds) := by
  unfold persistOrderBatteries
  split_ifs
  · exact (readOnly_pure ()).fixes
  · refine (readOnly_lift _).fixes.bind fun _ => (readOnly_fetchAssigned _).fixes.bind fun _ => ?_
    refine readOnly_query.fixes.bind fun _ => (readOnly_lift _).fixes.bind fun _ => ?_
    exact fixes_update fun db => fixes_addRows _ _ _ db

theorem fixes_persistMissing (orderId : String) (batteryIds : List String) :
    Fixes exceptRows (persistMissingOrderBatteries orderId batteryIds) := by
  unfold persistMissingOrderBatteries
  split_ifs
  · exact (readOnly_pure ()).fixes
  · refine readOnly_flush.fixes.bind fun _ => Fixes.savepoint ?_ _
    exact (fixes_persistOrderBatteries _ _).bind fun _ => readOnly_flush.fixes

theorem fixes_getOrderBatteryIds (order : Order) :
    Fixes exceptRows (getOrderBatteryIds order) := by
  refine readOnly_query.fixes.bind fun _ => (readOnly_lift _).fixes.bind fun _ => ?_
  refine (readOnly_lift _).fixes.bind fun _ => (readOnly_ensure _ _).fixes.bind fun _ => ?_
  exact (fixes_persistMissing _ _).bind fun _ => (readOnly_pure _).fixes

theorem fixes_sync_of {γ : Type} {g : Db → γ}
    (hrows : ∀ db db', exceptRows db = exceptRows db' → g db = g db')
    (hmoves : ∀ db db', exceptMoves db = exceptMoves db' → g db = g db') (now : ℕ) (order : Order)
    (newStatus : String) (failureReason : Option String) (actorId : Option ℕ) :
    Fixes g (syncBatteriesForOrderStatus now order newStatus failureReason actorId) := by
  refine ((fixes_getOrderBatteryIds order).of hrows).bind fun batteryIds => ?_
  refine (readOnly_fetchAssigned _).fixes.bind fun batteries => fixes_forM (fun battery => ?_) _
  exact (fixes_syncBattery _ _ _ _ _ battery).of hmoves

/-- The orders and the drivers do not change where batteries move. -/
theorem fixes_syncBatteriesForOrderStatus (now : ℕ) (order : Order) (newStatus : String)
    (failureReason : Option String) (actorId : Option ℕ) :
    Fixes ordersAndDrivers
      (syncBatteriesForOrderStatus now order newStatus failureReason actorId) :=
  fixes_sync_of ordersAndDrivers_of_rows ordersAndDrivers_of_moves _ _ _ _ _

end

/-! ## Records of requests -/

theorem fixes_record_of {γ : Type} {f : Db → γ}
    (hf : ∀ (db : Db) idempotencyKeys, f { db with idempotencyKeys } = f db) (now : ℕ)
    (scope : RequestScope) (key : Option String) (response : Order) :
    Fixes f (recordIdempotentResponse now scope key response) := by
  rcases key with _ | key
  · exact (readOnly_pure ()).fixes
  · refine readOnly_query.fixes.bind fun db => ?_
    generalize db.idempotencyKeys.find? _ = found
    rcases found with _ | existing
    · exact Fixes.bind (fixes_update fun db => hf db _) fun _ => readOnly_flush.fixes
    · exact (readOnly_ensure _ _).fixes

theorem fixes_recordIdempotentResponse (now : ℕ) (scope : RequestScope) (key : Option String)
    (response : Order) : Fixes exceptRecords (recordIdempotentResponse now scope key response) :=
  fixes_record_of (fun _ _ => rfl) _ _ _ _

theorem fixes_emit_of {γ : Type} {f : Db → γ}
    (hf : ∀ (db : Db) orderRealtimeOutbox, f { db with orderRealtimeOutbox } = f db) (now : ℕ)
    (eventType : String) (order : Order) (actorUserId : Option ℕ) (newStatus key : Option String) :
    Fixes f (emitOrderRealtimeUpdate now eventType order actorUserId newStatus key) := by
  refine readOnly_look.fixes.bind fun db => ?_
  generalize db.orderRealtimeOutbox.find? _ = found
  rcases found with _ | row
  · exact fixes_update fun db => hf db _
  · exact (readOnly_pure ()).fixes

theorem fixes_emitOrderRealtimeUpdate (now : ℕ) (eventType : String) (order : Order)
    (actorUserId : Option ℕ) (newStatus : Option String) (key : Option String) :
    Fixes exceptRecords
      (emitOrderRealtimeUpdate now eventType order actorUserId newStatus key) :=
  fixes_emit_of (fun _ _ => rfl) _ _ _ _ _ _

/-! ## Drivers -/

theorem fixes_setDriverStatus (now driverId : ℕ) (status : String) :
    Fixes exceptDrivers (setDriverStatus now driverId status) := by
  refine readOnly_look.fixes.bind fun db => ?_
  generalize db.driverProfiles.get? driverId = found
  rcases found with _ | driver
  · exact (readOnly_pure ()).fixes
  · exact fixes_update fun db => exceptDrivers_set db _

theorem fixes_releaseDriverIfIdle (now : ℕ) (order : Order) :
    Fixes exceptDrivers (releaseDriverIfIdle now order) := by
  unfold releaseDriverIfIdle
  rcases truthyId order.assignedDriverId with _ | driverId
  · exact (readOnly_pure ()).fixes
  · refine readOnly_query.fixes.bind fun db => ?_
    rcases activeOrderOf db driverId (some order.id) with _ | other
    · exact fixes_setDriverStatus _ _ _
    · exact (readOnly_pure ()).fixes

theorem fixes_releasePreviousDriver (now : ℕ) (order : Order) (previousDriverId : Option ℕ) :
    Fixes exceptDrivers (releasePreviousDriver now order previousDriverId) := by
  unfold releasePreviousDriver
  rcases truthyId previousDriverId with _ | previous
  · exact (readOnly_pure ()).fixes
  · refine readOnly_query.fixes.bind fun db => ?_
    rcases activeOrderOf db previous (some order.id) with _ | other
    · exact fixes_setDriverStatus _ _ _
    · exact (readOnly_pure ()).fixes

theorem fixes_canonicalizeDriver (driver : DriverProfile) :
    Fixes exceptDrivers (canonicalizeDriver driver) := by
  unfold canonicalizeDriver
  generalize canonicalDriverStatus driver.status = status
  dsimp only
  split_ifs
  · exact fixes_update fun db => exceptDrivers_set db _
  · exact (readOnly_pure ()).fixes

theorem readOnly_assertNoActiveConflict (driverId : ℕ) (excludeOrderId : Option String) :
    ReadOnly (assertNoActiveConflict driverId excludeOrderId) := by
  refine readOnly_query.bind fun db => ?_
  rcases activeOrderOf db driverId (truthy excludeOrderId) with _ | conflicting
  · exact readOnly_pure ()
  · exact readOnly_raise _

theorem fixes_assertDriverAvailableForOrder (driverId : ℕ) (excludeOrderId : Option String)
    (allowBusy checkActiveConflict : Bool) :
    Fixes exceptDrivers
      (assertDriverAvailableForOrder driverId excludeOrderId allowBusy checkActiveConflict) := by
  refine readOnly_query.fixes.bind fun db => (readOnly_demand _ _).fixes.bind fun driver => ?_
  refine (fixes_canonicalizeDriver driver).bind fun _ =>
    (readOnly_ensure _ _).fixes.bind fun _ => ?_
  exact (readOnly_assertNoActiveConflict _ _).fixes.ite (readOnly_pure ()).fixes

end WezuBackend.Orders.Effects
