import WezuBackend.Orders.DispatchEvents

/-!
# Logistics orders

The order endpoints of `app/api/v1/orders.py`: creation, status updates, proof of delivery, driver
assignment and returns, with `app/services/idempotency_service.py`.  Each is a program in one
session that commits last.  What follows the commit (messages to customers and drivers) does not
touch these tables and is left out.
-/

namespace WezuBackend.Orders.Service

open Lib.Tables Lib.Atomicity.Tx Core.Base Core.Text Core.Letters Fleet.Model
open Fleet.Consistency Orders.Normalise Orders.DispatchEvents

/-! ## Idempotency keys -/

/-- The request, as its idempotency key is scoped. -/
structure RequestScope where
  userId : ℕ
  /-- the header -/
  idempotencyKey : Option String := none
  requestMethod : String
  requestPath : String
  requestFingerprint : String

def normalizeIdempotencyKey (rawKey : Option String) : Except Exc (Option String) :=
  let key := strip (rawKey.getD "")
  if key = "" then .ok none
  else if 128 < key.length then .error (.http 400 "Idempotency-Key too long (max 128 chars)")
  else .ok (some key)

/-- The record is under this key, for this request. -/
def isRecordOf (scope : RequestScope) (key : String) (record : IdempotencyKey) : Bool :=
  record.userId = scope.userId ∧ record.idempotencyKey = key ∧
    record.requestMethod = scope.requestMethod ∧ record.requestPath = scope.requestPath

/-- What the record of a request answers; an expired one is dropped. -/
def answerOf (now : ℕ) (scope : RequestScope) (record : IdempotencyKey) :
    FleetTx (Option Order) :=
  if record.expiresAt ≤ now then do
    update fun db => { db with idempotencyKeys := db.idempotencyKeys.erase record.id }
    commitAll
    return none
  else do
    ensure (record.requestFingerprint = scope.requestFingerprint) <| .http 409
      "Idempotency-Key reuse with different request payload is not allowed"
    match record.responsePayload with
    | .malformed => raise (.http 500 "Stored idempotent response is corrupted")
    | .order data => return some data

def getIdempotentReplay (now : ℕ) (scope : RequestScope) (key : Option String) :
    FleetTx (Option Order) :=
  match key with
  | none => pure none
  | some key => do
    let db ← query
    match db.idempotencyKeys.find? (isRecordOf scope key) with
    | none => return none
    | some record => answerOf now scope record

/-- 48 hours, in microseconds. -/
def idempotencyLifetime : ℕ := 172800000000

def recordIdempotentResponse (now : ℕ) (scope : RequestScope) (key : Option String)
    (response : Order) : FleetTx Unit :=
  match key with
  | none => pure ()
  | some key => do
    let db ← query
    match db.idempotencyKeys.find? (isRecordOf scope key) with
    | some existing =>
      ensure (existing.requestFingerprint = scope.requestFingerprint) <| .http 409
        "Idempotency-Key reuse with different request payload is not allowed"
    | none =>
      update fun db =>
        { db with
          idempotencyKeys := db.idempotencyKeys.add fun id =>
            { id, userId := scope.userId, idempotencyKey := key,
              requestMethod := scope.requestMethod, requestPath := scope.requestPath,
              requestFingerprint := scope.requestFingerprint, responsePayload := .order response,
              expiresAt := now + idempotencyLifetime } }
      flush

/-- A request that is answered from its idempotency key, if it can be. -/
def answered (now : ℕ) (scope : RequestScope) (request : Option String → FleetTx Order) :
    FleetTx Order := do
  let key ← lift (normalizeIdempotencyKey scope.idempotencyKey)
  match ← getIdempotentReplay now scope key with
  | some data => return data
  | none => request key

/-! ## Rows -/

/-- The order's row is overwritten. -/
def saveOrder (order : Order) : FleetTx Unit :=
  update fun db => { db with orders := db.orders.set order }

/-- The orders with a new one, unless its id is taken. -/
def insertOrder (orders : Table Order) (order : Order) : Table Order :=
  match h : orders.get? order.id with
  | some _ => orders
  | none => orders.insert order (Table.get?_eq_none.mp h)

/-- `session.add` of a new order, flushed. -/
def addOrder (order : Order) : FleetTx Unit := do
  let db ← look
  ensure (db.orders.get? order.id = none) .integrityError
  update fun db => { db with orders := insertOrder db.orders order }
  flush

def emitOrderRealtimeUpdate (now : ℕ) (eventType : String) (order : Order)
    (actorUserId : Option ℕ) (newStatus : Option String) (key : Option String) : FleetTx Unit := do
  let db ← look
  match db.orderRealtimeOutbox.find? fun row =>
      key.isSome ∧ row.orderId = order.id ∧ row.eventType = eventType ∧
        row.idempotencyKey = key with
  | some _ => pure ()
  | none =>
    update fun db =>
      { db with
        orderRealtimeOutbox := db.orderRealtimeOutbox.add fun id =>
          { id, orderId := order.id, eventType, orderStatus := order.status, actorUserId, newStatus,
            idempotencyKey := key, createdAt := now } }

/-- The end of a request: its response is recorded and its update sent. -/
def respond (now : ℕ) (scope : RequestScope) (key : Option String) (eventType : String)
    (newStatus : Option String) (order : Order) : FleetTx Order := do
  recordIdempotentResponse now scope key order
  emitOrderRealtimeUpdate now eventType order scope.userId newStatus key
  return order

/-- `_resolve_order_for_assignment`; the legacy columns it looks for are not in the table. -/
def resolveOrder (orderReference : String) : FleetTx (Option Order) := do
  let reference := strip orderReference
  if reference = "" then return none
  let db ← look
  match db.orders.get? reference with
  | some order => return some order
  | none =>
    let db ← query
    return db.orders.find? fun o => o.trackingNumber = some reference

def resolveOrderOr404 (orderReference : String) (detail : String := "Order not found") :
    FleetTx Order := do
  let order ← resolveOrder orderReference
  demand order (.http 404 detail)

/-- `_resolve_driver_for_assignment`; the legacy columns it looks for are not in the table. -/
def resolveDriver (db : Db) (driverReference : String) : Option DriverProfile :=
  let candidate := parseInt32IdCandidate driverReference
  let byUser (userId : ℕ) := db.driverProfiles.find? fun d => d.userId = userId
  let byPhone := (phoneCandidates (some driverReference)).findSome? fun phone =>
    (db.driverProfiles.find? fun d => d.phoneNumber = some phone).or
      ((db.users.find? fun u => u.phoneNumber = some phone).bind fun user => byUser user.id)
  (candidate.bind db.driverProfiles.get?).or (byPhone.or (candidate.bind byUser))

/-! ## Drivers -/

/-- `_set_driver_status`, on the row. -/
def driverWithStatus (now : ℕ) (status : String) (driver : DriverProfile) : DriverProfile :=
  { driver with
    status := some status, isOnline := status = "available" ∨ status = "onRoute",
    lastLocationUpdate := some now }

def setDriverStatus (now driverId : ℕ) (status : String) : FleetTx Unit := do
  let db ← look
  match db.driverProfiles.get? driverId with
  | none => pure ()
  | some driver =>
    update fun db =>
      { db with driverProfiles := db.driverProfiles.set (driverWithStatus now status driver) }

/-- The first order of the driver in one of `ACTIVE_DRIVER_ORDER_STATUSES_DB`, other than
`excludeOrderId`. -/
def activeOrderOf (db : Db) (driverId : ℕ) (excludeOrderId : Option String) : Option Order :=
  db.orders.find? fun o => o.assignedDriverId = some driverId ∧ some o.id ≠ excludeOrderId ∧
    o.status ∈ activeDriverOrderStatusesDb

/-- An id that counts as true. -/
def truthyId (id : Option ℕ) : Option ℕ := id.filter (· ≠ 0)

/-- A driver without another active order is free. -/
def releaseDriverIfIdle (now : ℕ) (order : Order) : FleetTx Unit :=
  match truthyId order.assignedDriverId with
  | none => pure ()
  | some driverId => do
    let db ← query
    match activeOrderOf db driverId (some order.id) with
    | some _ => pure ()
    | none => setDriverStatus now driverId "available"

/-- A driver's status in its canonical spelling. -/
def canonicalizeDriver (driver : DriverProfile) : FleetTx Unit :=
  let driverStatus := canonicalDriverStatus driver.status
  if driverStatus ≠ "" ∧ some driverStatus ≠ driver.status then
    update fun db =>
      { db with
        driverProfiles := db.driverProfiles.set { driver with status := some driverStatus } }
  else pure ()

def assertNoActiveConflict (driverId : ℕ) (excludeOrderId : Option String) : FleetTx Unit := do
  let db ← query
  match activeOrderOf db driverId (truthy excludeOrderId) with
  | none => pure ()
  | some conflicting => raise <| .http 409 <|
      s!"Driver already assigned to active order '{conflicting.id}' " ++
        s!"(status '{conflicting.status}')"

def assertDriverAvailableForOrder (driverId : ℕ) (excludeOrderId : Option String := none)
    (allowBusy : Bool := false) (checkActiveConflict : Bool := true) : FleetTx Unit := do
  let db ← query
  let driver ← demand (db.driverProfiles.get? driverId) (.http 404 "Assigned driver not found")
  let driverStatus := canonicalDriverStatus driver.status
  canonicalizeDriver driver
  let validStatuses :=
    if allowBusy then ["available", "busy", "onRoute"] else ["available", "onRoute"]
  ensure (driverStatus ∈ validStatuses) <| .http 409 <|
    "Driver is '" ++ (if driverStatus = "" then driver.status.getD "None" else driverStatus) ++
      "'. " ++
      s!"Allowed statuses: {listText validStatuses}"
  if checkActiveConflict then assertNoActiveConflict driverId excludeOrderId

def markOrderAssignedIfPending (now : ℕ) (order : Order) : Order :=
  if canonicalOrderStatus order.status = "pending" ∧ lower (strip order.status) ≠ "assigned" then
    { order with status := "assigned", updatedAt := now }
  else order

/-! ## The batteries of an order -/

/-- `_parse_order_assigned_battery_ids_json`. -/
def parseAssignedBatteryIdsJson [Casing] (order : Order) : Except Exc (List String) :=
  match order.assignedBatteryIds with
  | .blank => .ok []
  | .malformed =>
    .error (.http 409 s!"Order '{order.id}' has invalid assigned_battery_ids JSON")
  | .notArray =>
    .error (.http 409 s!"Order '{order.id}' assigned_battery_ids must be a JSON array")
  | .array values => do
    let serials ← values.zipIdx.mapM fun (value, idx) =>
      match value with
      | some serial => .ok serial
      | none => .error (.http 409 (s!"Order '{order.id}' assigned_battery_ids[{idx}] must be a " ++
          "string battery serial"))
    normalizeBatterySerials serials "assigned_battery_ids" false

/-- The serials in the order's rows. -/
def rowSerials (db : Db) (orderId : String) : List String :=
  (db.orderBatteries.rows.filter fun r => r.orderId = orderId).map OrderBattery.batteryId

section

variable [Casing]

/-- `_fetch_batteries_by_serials`. -/
def fetchAssigned (batteryIds : List String) : FleetTx (List Battery) :=
  fetchBatteriesBySerials batteryIds "assigned_battery_ids" false

/-- A row is added for each serial. -/
def addRows (orderId : String) (batteries : List Battery) (serials : List String) (db : Db) : Db :=
  serials.foldl (fun db serial =>
    { db with
      orderBatteries := db.orderBatteries.add fun id =>
        { id, orderId, batteryId := serial,
          batteryPk := (batteries.find? fun b => normal b.serialNumber = serial).map Battery.id } })
            db

def persistOrderBatteries (orderId : String) (batteryIds : List String) : FleetTx Unit := do
  if batteryIds = [] then return
  let canonicalIds ← lift (batteryIds.mapM fun id => normalizeBatterySerial id)
  let batteries ← fetchAssigned canonicalIds
  let db ← query
  let existing ← lift ((rowSerials db orderId).mapM fun serial => normalizeBatterySerial serial)
  update (addRows orderId batteries (canonicalIds.filter fun serial => serial ∉ existing))

/-- `_persist_missing_order_batteries`: what the unique index rejects is taken back. -/
def persistMissingOrderBatteries (orderId : String) (batteryIds : List String) : FleetTx Unit := do
  if batteryIds = [] then return
  flush
  savepoint (do persistOrderBatteries orderId batteryIds; flush) (· = .integrityError)

/-- `_get_order_battery_ids`: the serials in the rows of the order, and those that only the old JSON
column has, which get their rows. -/
def getOrderBatteryIds (order : Order) : FleetTx (List String) := do
  let db ← query
  let indexed ← lift (normalizeBatterySerials (rowSerials db order.id) "assigned_battery_ids" false)
  let legacy ← lift (parseAssignedBatteryIdsJson order)
  let missing := legacy.filter fun serial => serial ∉ indexed
  ensure (indexed = [] → legacy = [] →
      canonicalOrderStatus order.status ∉ ["in_transit", "delivered"]) <|
    .http 409 s!"Order '{order.id}' has no indexed battery assignments"
  persistMissingOrderBatteries order.id missing
  return indexed ++ missing

/-- What a battery may be before it is reserved. -/
def transferableBatteryStatuses : List BatteryStatus := [.available, .new, .ready]

/-- The battery under its normalised serial, as the loops over the batteries of an order leave it
before they check it. -/
def withSerial (now : ℕ) (battery : Battery) : FleetTx Battery := do
  let serial ← lift (normalizeBatterySerial battery.serialNumber)
  saveBattery (renamed now serial battery)
  return renamed now serial battery

/-- A place as the messages show it. -/
def locationTypeText (type : Option LocationType) : String :=
  (type.map LocationType.text).getD "None"

/-- The place is one that needs an id. -/
def isInventoryPlace (type : Option LocationType) : Bool :=
  type = some .warehouse ∨ type = some .station ∨ type = some .shelf

/-- One battery of `_reserve_order_batteries`. -/
def reserveBattery (now : ℕ) (orderId : String) (excludeOrderId : Option String)
    (battery : Battery) : FleetTx Unit := do
  let battery ← withSerial now battery
  ensure (battery.status ∈ transferableBatteryStatuses) <| .http 400
    s!"Battery {battery.serialNumber} is '{battery.status.text}', cannot assign"
  ensure (isInventoryPlace battery.locationType) <| .http 400 <|
    s!"Battery {battery.serialNumber} is at '{locationTypeText battery.locationType}' " ++
      "and cannot be reserved. Move battery to warehouse/station inventory first."
  ensure battery.locationId.isSome <| .http 409 <|
    s!"Battery {battery.serialNumber} has location_type " ++
      s!"'{locationTypeText battery.locationType}' but missing location_id"
  if battery.locationType = some .shelf then assertBatteryShelfStateConsistent battery
  let _ ← applyBatteryTransition now battery
    { toStatus := some .reserved, toLocationType := battery.locationType,
      toLocationId := some battery.locationId, eventType := "reserved",
      eventDescription := s!"Reserved for order {orderId}", excludeOrderId }

/-- `_reserve_order_batteries` -/
def reserveOrderBatteries (now : ℕ) (orderId : String) (batteryIds : List String)
    (excludeOrderId : Option String := none) : FleetTx Unit := do
  let batteries ← fetchAssigned batteryIds
  assertBatteriesNotInActiveOrders batteryIds excludeOrderId
  assertBatteriesNotInActiveTransfers batteryIds
  batteries.forM (reserveBattery now orderId excludeOrderId)

/-! ## Where the batteries of an order go back to -/

/-- `_resolve_release_location_for_order`. -/
def resolveReleaseLocation (db : Db) (battery : Battery) (order : Order) :
    Except Exc (LocationType × Option ℕ) := do
  let atPlace := if isInventoryPlace battery.locationType then battery.locationId else none
  match ← dispatchSource db battery.id order.id with
  | some (.warehouse, some k) => .ok (.warehouse, some k)
  | some (.station, some k) => .ok (.station, some k)
  | some (.shelf, some k) => .ok (.shelf, some k)
  | some (.customer, _) => .ok (.customer, none)
  | _ =>
    match battery.locationType, atPlace with
    | some type, some k => .ok (type, some k)
    | some .customer, _ => .ok (.customer, none)
    | _, _ =>
      match getSingleActiveWarehouseId db with
      | some k => .ok (.warehouse, some k)
      | none => .error <| .http 409 <|
          s!"Cannot resolve release location for battery {battery.serialNumber} on order " ++
            s!"{order.id}. Dispatch source location is unknown in a multi-warehouse context."

/-- `_resolve_warehouse_id_from_shelf`. -/
def resolveWarehouseFromShelf (db : Db) (shelfId : Option ℕ) : Option ℕ :=
  (shelfId.bind db.shelves.get?).bind fun shelf =>
    (db.racks.get? shelf.rackId).map Rack.warehouseId

/-- `ORDER BY completed_at DESC, updated_at DESC, id DESC`; a missing time comes first. -/
def laterTransfer (a b : InventoryTransfer) : Prop :=
  if a.completedAt = b.completedAt then
    b.updatedAt < a.updatedAt ∨ (b.updatedAt = a.updatedAt ∧ b.id ≤ a.id)
  else ∀ t ∈ a.completedAt, ∃ t' ∈ b.completedAt, t' < t

instance (a b : InventoryTransfer) : Decidable (laterTransfer a b) := by
  unfold laterTransfer
  infer_instance

/-- The completed transfers to the station. -/
def completedTransfersTo (db : Db) (stationId : ℕ) : List InventoryTransfer :=
  (db.inventoryTransfers.rows.filter fun t =>
    t.status = "completed" ∧ t.toLocationType = "station" ∧ t.toLocationId =
      stationId).insertionSort
      laterTransfer

/-- The transfer lists the serial in its old JSON column. -/
def listsSerial (serial : String) (transfer : InventoryTransfer) : Bool :=
  match transfer.items with
  | .array values => values.any fun v => v.any fun raw => normal raw = serial ∧ normal raw ≠ ""
  | _ => false

/-- The warehouse that a transfer came from; `none` where its source names none. -/
def sourceWarehouse (db : Db) (transfer : InventoryTransfer) : Option ℕ :=
  match lower (strip transfer.fromLocationType) with
  | "warehouse" => transfer.fromLocationId
  | "shelf" => resolveWarehouseFromShelf db transfer.fromLocationId
  | _ => none

/-- `_resolve_warehouse_id_from_station_history`. -/
def resolveWarehouseFromStationHistory (db : Db) (batterySerial : String) (stationId : Option ℕ) :
    Option ℕ :=
  stationId.bind fun stationId =>
    let transfers := completedTransfersTo db stationId
    let listed (t : InventoryTransfer) := db.inventoryTransferItems.rows.any fun item =>
      item.transferId = t.id ∧ sqlUpper item.batteryId = normal batterySerial
    let legacy := ((transfers.take 50).filter (listsSerial (normal batterySerial))).findSome?
      (sourceWarehouse db)
    match transfers.find? listed with
    | none => legacy
    | some t =>
      -- the shelf of the latest transfer decides, even if it leads to no warehouse
      if lower (strip t.fromLocationType) = "shelf" then
        resolveWarehouseFromShelf db t.fromLocationId
      else (sourceWarehouse db t).or legacy

/-- `_resolve_warehouse_id_for_location`. -/
def resolveWarehouseForLocation (db : Db) (batterySerial : String) (type : Option LocationType)
    (locationId : Option ℕ) : Option ℕ :=
  match lower (strip ((type.map LocationType.text).getD "")) with
  | "warehouse" => locationId
  | "shelf" => resolveWarehouseFromShelf db locationId
  | "station" => resolveWarehouseFromStationHistory db batterySerial locationId
  | _ => none

def getFirstActiveWarehouseId (db : Db) : Option ℕ :=
  (((db.warehouses.rows.filter Warehouse.isActive).map Warehouse.id).insertionSort (· ≤ ·)).head?

/-- The warehouse of the place a battery was taken from. -/
def sourceWarehouseId (db : Db) (batterySerial : String)
    (source : Option (LocationType × Option ℕ)) : Option ℕ :=
  source.bind fun s => resolveWarehouseForLocation db batterySerial (some s.1) s.2

def resolveReturnDeliveryWarehouseId (db : Db) (battery : Battery) (order : Order) :
    Except Exc ℕ := do
  let serial := normal battery.serialNumber
  let dispatched := sourceWarehouseId db serial (← dispatchSource db battery.id order.id)
  let original ← match dispatched, truthy order.originalOrderId with
    | none, some originalOrderId =>
      (dispatchSource db battery.id originalOrderId).map (sourceWarehouseId db serial)
    | _, _ => .ok none
  let current := resolveWarehouseForLocation db serial battery.locationType battery.locationId
  match dispatched.or (original.or (current.or
      ((getSingleActiveWarehouseId db).or (getFirstActiveWarehouseId db)))) with
  | some k => .ok k
  | none => .error <| .http 409 <|
      s!"Cannot resolve return destination warehouse for battery {battery.serialNumber} on order "
        ++
        s!"{order.id}. No active warehouse resolution path found."

/-! ## The batteries of an order that changes its status -/

/-- A battery sets out with its order. -/
def dispatchBattery (now : ℕ) (order : Order) (actorId : Option ℕ) (battery : Battery) :
    FleetTx Unit := do
  let type ← demand (battery.locationType.filter fun type =>
      isInventoryPlace (some type) ∨ type = .customer) <| .http 400 <|
    s!"Battery {battery.serialNumber} at location '{locationTypeText battery.locationType}' " ++
      "cannot be dispatched. Battery must be in warehouse/station/shelf/customer before dispatch."
  ensure (isInventoryPlace (some type) → battery.locationId.isSome) <| .http 409
    s!"Battery {battery.serialNumber} has missing location_id for '{type.text}'"
  if type = .shelf then assertBatteryShelfStateConsistent battery
  let _ ← applyBatteryTransition now battery
    { toStatus := some .deployed, toLocationType := some .transit, toLocationId := some none,
      eventType := "dispatched",
      eventDescription := buildDispatchEventDescription order.id type battery.locationId, actorId,
      excludeOrderId := some order.id }

/-- A battery arrives with its order. -/
def deliverBattery (now : ℕ) (order : Order) (actorId : Option ℕ) (battery : Battery) :
    FleetTx Unit := do
  if order.type = "return" then
    let db ← query
    let warehouseId ← lift (resolveReturnDeliveryWarehouseId db battery order)
    let _ ← applyBatteryTransition now battery
      { toStatus := some .available, toLocationType := some .warehouse,
        toLocationId := some (some warehouseId), eventType := "returned",
        eventDescription := s!"Returned to warehouse #{warehouseId} via return order {order.id}",
        actorId, excludeOrderId := some order.id }
  else
    let _ ← applyBatteryTransition now battery
      { toStatus := some .deployed, toLocationType := some .customer, toLocationId := some none,
        eventType := "delivered", eventDescription := s!"Delivered with order {order.id}", actorId,
        excludeOrderId := some order.id }

/-- A battery goes back to its place. -/
def releaseBattery (now : ℕ) (order : Order) (newStatus : String) (failureReason : Option String)
    (actorId : Option ℕ) (battery : Battery) : FleetTx Unit := do
  let db ← query
  let (type, locationId) ← lift (resolveReleaseLocation db battery order)
  let description := s!"Released from order {order.id} due to {newStatus}"
  let reason := if newStatus = "failed" then truthy failureReason else none
  let _ ← applyBatteryTransition now battery
    { toStatus := some .available, toLocationType := some type, toLocationId := some locationId,
      eventType := "released",
      eventDescription := (reason.map fun r => s!"{description}: {r}").getD description, actorId,
      excludeOrderId := some order.id }

/-- One battery of `_sync_batteries_for_order_status`. -/
def syncBattery (now : ℕ) (order : Order) (newStatus : String) (failureReason : Option String)
    (actorId : Option ℕ) (battery : Battery) : FleetTx Unit := do
  let battery ← withSerial now battery
  if newStatus = "in_transit" then dispatchBattery now order actorId battery
  else if newStatus = "delivered" then deliverBattery now order actorId battery
  else if newStatus = "failed" ∨ newStatus = "cancelled" then
    releaseBattery now order newStatus failureReason actorId battery

def syncBatteriesForOrderStatus (now : ℕ) (order : Order) (newStatus : String)
    (failureReason : Option String := none) (actorId : Option ℕ := none) : FleetTx Unit := do
  let batteryIds ← getOrderBatteryIds order
  let batteries ← fetchAssigned batteryIds
  batteries.forM (syncBattery now order newStatus failureReason actorId)

/-! ## Creation -/

/-- `OrderCreate`, and the id that is generated where it names none. -/
structure OrderCreate where
  generatedId : String
  id : Option String := none
  units : ℤ
  destination : String
  notes : Option String := none
  customerName : Option String := some "Walk-in Customer"
  customerPhone : Option String := none
  priority : Option String := some "normal"
  totalValue : Option ℚ := some 0
  status : Option String := some "pending"
  orderDate : Option ℕ := none
  estimatedDelivery : Option ℕ := none
  dispatchDate : Option ℕ := none
  latitude : Option ℚ := none
  longitude : Option ℚ := none
  trackingNumber : Option String := none
  assignedBatteryIds : List String
  assignedDriverId : Option ℕ := none
  type : Option String := some "delivery"
  originalOrderId : Option String := none

/-- The tracking number of a new order, if no other order has it. -/
def freeTrackingNumber (payload : OrderCreate) (orderId : String) : FleetTx String := do
  let trackingNumber ← lift (normalizeTrackingNumber payload.trackingNumber orderId)
  let db ← query
  ensure (∀ o ∈ db.orders.find? (fun o => o.trackingNumber = some trackingNumber), o.id = orderId)
    (.http 409 s!"tracking_number '{trackingNumber}' is already in use")
  return trackingNumber

/-- The columns of a new order that its payload gives, normalised and checked. -/
def newOrder (now : ℕ) (payload : OrderCreate) (orderId : String) : FleetTx Order := do
  let destination ← lift (normalizeDestination payload.destination)
  let customerName ← lift (normalizeCustomerName payload.customerName)
  let notes ← lift (normalizeOrderNotes payload.notes)
  let customerPhone ← lift (normalizeCustomerPhone payload.customerPhone)
  let trackingNumber ← freeTrackingNumber payload orderId
  let priority ← lift (normalizeOrderPriority payload.priority)
  let totalValue ← lift (normalizeTotalValue payload.totalValue)
  let orderDate := payload.orderDate.getD now
  ensure (∀ d ∈ payload.dispatchDate, orderDate ≤ d)
    (.http 400 "dispatch_date cannot be earlier than order_date")
  ensure (∀ d ∈ payload.estimatedDelivery, payload.dispatchDate.getD orderDate ≤ d)
    (.http 400 "estimated_delivery cannot be earlier than order_date/dispatch_date")
  let (latitude, longitude) ← lift (normalizeOrderCoordinates payload.latitude payload.longitude)
  let requestedStatus := canonicalOrderStatus (payload.status.getD "pending")
  ensure (requestedStatus ∈ validOrderStatuses)
    (.http 400 s!"Invalid status. Must be one of: {listText validOrderStatuses}")
  ensure (requestedStatus = "pending") (.http 400 "New orders must start in 'pending' state")
  ensure (payload.type.getD "delivery" = "delivery")
    (.http 400 "Use /orders/{order_id}/return to create return orders")
  return { id := orderId, status := "pending", priority, units := payload.units, destination,
           latitude, longitude, notes, customerName, customerPhone,
           totalValue := numeric122 totalValue, trackingNumber := some trackingNumber,
           assignedDriverId := payload.assignedDriverId, orderDate,
           estimatedDelivery := payload.estimatedDelivery, dispatchDate := payload.dispatchDate,
           updatedAt := now, type := "delivery", originalOrderId := payload.originalOrderId,
           refundStatus := "none" }

/-- `_parse_assigned_battery_ids`, and the checks on what it finds. -/
def requestedBatteryIds (payload : OrderCreate) : Except Exc (List String) := do
  let ids ← if payload.assignedBatteryIds = [] then pure []
    else normalizeBatterySerials payload.assignedBatteryIds "assigned_battery_ids"
  if ids = [] then
    throw (.http 400 "assigned_battery_ids is required to create a dispatch order")
  if payload.units ≠ ids.length then
    throw (.http 400 "units must exactly match the number of assigned_battery_ids")
  return ids

/-- `_raise_create_order_integrity_error`: the rows of the order are the only ones it names that a
flush can reject at this point. -/
def raiseCreateOrderIntegrityError {α : Type} (e : Exc) : FleetTx α := do
  let db ← look
  rollback
  if e = .integrityError then
    if ∃ r ∈ db.orderBatteries.rows, ∃ r' ∈ db.orderBatteries.rows,
        r.id ≠ r'.id ∧ r.orderId = r'.orderId ∧ r.batteryId = r'.batteryId then
      raise (.http 409 "Duplicate battery assignment for this order")
    else raise (.http 500 "Failed to create order")
  else raise e

/-- The driver of a new order, if it names one. -/
def assertNewDriver (driverId : Option ℕ) : FleetTx Unit :=
  match driverId with
  | none => pure ()
  | some driverId => assertDriverAvailableForOrder driverId

/-- The driver a new order names becomes busy. -/
def takeDriver (now : ℕ) (order : Order) : FleetTx Order :=
  match order.assignedDriverId with
  | none => pure order
  | some driverId => do
    setDriverStatus now driverId "busy"
    return markOrderAssignedIfPending now order

/-- `create_order` up to the insertion of the row. -/
def prepareOrder (now : ℕ) (payload : OrderCreate) : FleetTx (Order × List String) := do
  ensure (0 < payload.units) (.http 400 "units must be greater than 0")
  let orderId := (truthy payload.id).getD payload.generatedId
  let db ← look
  ensure (db.orders.get? orderId = none) (.http 409 "Order ID already exists")
  let order ← newOrder now payload orderId
  assertNewDriver payload.assignedDriverId
  let batteryIds ← lift (requestedBatteryIds payload)
  reserveOrderBatteries now orderId batteryIds
  let order ← takeDriver now { order with assignedBatteryIds := .ofList batteryIds }
  return (order, batteryIds)

/-- `create_order` from the insertion of the row on. -/
def storeOrder (now : ℕ) (scope : RequestScope) (key : Option String) (order : Order)
    (batteryIds : List String) : FleetTx Order := do
  ensure (order.totalValue < 10 ^ 12) (.http 500 "Failed to create order")
  addOrder order
  persistOrderBatteries order.id batteryIds
  respond now scope key "order_created" none order

/-- `create_order` -/
def createOrder (now : ℕ) (scope : RequestScope) (payload : OrderCreate) : FleetTx Order :=
  answered now scope fun key => do
    let prepared ← prepareOrder now payload
    handle (do
      let order ← storeOrder now scope key prepared.1 prepared.2
      commitAll
      return order) raiseCreateOrderIntegrityError

/-! ## Status updates -/

/-- The body of a status change. -/
structure StatusUpdate where
  status : String
  failureReason : Option String := none
  dispatchDate : Option ℕ := none

/-- A column as a flush leaves it: it is written if it is not what the session loaded. -/
def writtenColumn {α : Type} [DecidableEq α] (loaded current stored : α) : α :=
  if current = loaded then stored else current

/-- The stored row after the flush of an order whose status has been updated. -/
def writtenOrder (loaded order stored : Order) : Order :=
  { stored with
    status := writtenColumn loaded.status order.status stored.status
    updatedAt := writtenColumn loaded.updatedAt order.updatedAt stored.updatedAt
    dispatchDate := writtenColumn loaded.dispatchDate order.dispatchDate stored.dispatchDate
    deliveredAt := writtenColumn loaded.deliveredAt order.deliveredAt stored.deliveredAt
    failureReason := writtenColumn loaded.failureReason order.failureReason stored.failureReason }

/-- The orders after the flush of one that was read as `loaded`. -/
def writeOrder (loaded order : Order) (orders : Table Order) : Table Order :=
  match orders.get? loaded.id with
  | none => orders
  | some stored => orders.set (writtenOrder loaded order stored)

/-- The flush of an order that was read as `loaded`. -/
def saveColumns (loaded order : Order) : FleetTx Unit :=
  update fun db => { db with orders := writeOrder loaded order db.orders }

/-- The driver of a dispatch is checked, and is busy. -/
def dispatchDriver (now : ℕ) (order : Order) : FleetTx Unit := do
  let driverId ← demand (truthyId order.assignedDriverId)
    (.http 400 "Cannot dispatch order without an assigned driver")
  assertDriverAvailableForOrder driverId (some order.id) true
  setDriverStatus now driverId "busy"

/-- An order that is tried again: its batteries are reserved, and its driver is checked and busy. -/
def retryOrder (now : ℕ) (order : Order) : FleetTx Unit := do
  let batteryIds ← getOrderBatteryIds order
  reserveOrderBatteries now order.id batteryIds (some order.id)
  match truthyId order.assignedDriverId with
  | none => pure ()
  | some driverId =>
    assertDriverAvailableForOrder driverId (some order.id) true
    setDriverStatus now driverId "busy"

/-- The order after a status change. -/
def withStatus (now : ℕ) (newStatus : String) (statusUpdate : StatusUpdate) (order : Order) :
    Order :=
  { order with
    status := newStatus, updatedAt := now
    dispatchDate := if newStatus = "in_transit" then some (statusUpdate.dispatchDate.getD now)
      else order.dispatchDate
    deliveredAt := if newStatus = "delivered" then some now else order.deliveredAt
    failureReason := if newStatus = "failed" then statusUpdate.failureReason
      else order.failureReason }

/-- An update to `in_transit` checks and takes the driver. -/
def beginDispatch (now : ℕ) (order : Order) (newStatus : String) : FleetTx Unit :=
  if newStatus = "in_transit" then dispatchDriver now order else pure ()

/-- An update of a failed order reserves its batteries, and checks and takes its driver. -/
def beginRetry (now : ℕ) (order : Order) (newStatus : String) : FleetTx Unit :=
  if canonicalOrderStatus order.status = "failed" ∧ newStatus = "pending" then retryOrder now order
  else pure ()

/-- An update to a terminal status releases the driver. -/
def endDelivery (now : ℕ) (order : Order) (newStatus : String) : FleetTx Unit :=
  if newStatus ∈ terminalStatuses then releaseDriverIfIdle now order else pure ()

/-- `update_order_status`, of the order that was read as `loaded`. -/
def updateLoaded (now : ℕ) (scope : RequestScope) (key : Option String)
    (statusUpdate : StatusUpdate) (loaded : Order) : FleetTx Order := do
  let newStatus := canonicalOrderStatus statusUpdate.status
  lift (validateStatusTransition loaded newStatus)
  beginDispatch now loaded newStatus
  ensure (newStatus = "failed" → (truthy statusUpdate.failureReason).isSome)
    (.http 400 "failure_reason is required when marking an order as failed")
  beginRetry now loaded newStatus
  let order := withStatus now newStatus statusUpdate loaded
  saveColumns loaded order
  syncBatteriesForOrderStatus now order newStatus statusUpdate.failureReason scope.userId
  endDelivery now order newStatus
  respond now scope key "order_status_updated" newStatus order

/-- `update_order_status`, after its key was looked up. -/
def updateStatus (now : ℕ) (scope : RequestScope) (key : Option String) (orderId : String)
    (statusUpdate : StatusUpdate) : FleetTx Order := do
  let order ← resolveOrderOr404 orderId
  updateLoaded now scope key statusUpdate order

/-- `update_order_status` -/
def updateOrderStatus (now : ℕ) (scope : RequestScope) (orderId : String)
    (statusUpdate : StatusUpdate) : FleetTx Order :=
  answered now scope fun key => do
    let order ← updateStatus now scope key orderId statusUpdate
    commitAll
    return order

/-! ## Proof of delivery -/

/-- The body of a proof of delivery. -/
structure ProofOfDeliveryCreate where
  imageUrl : String
  notes : Option String := none
  signatureUrl : Option String := none
  recipientName : Option String := none

/-- An order that proof of delivery is accepted for: one in transit, or a pending one with a driver
that is assigned or was dispatched. -/
def acceptsProof (order : Order) : Bool :=
  canonicalOrderStatus order.status = "in_transit" ∨
    (lower (strip order.status) ∈ ["assigned", "new"] ∧ order.assignedDriverId.isSome) ∨
    (canonicalOrderStatus order.status = "pending" ∧ order.assignedDriverId.isSome ∧
      order.dispatchDate.isSome)

/-- A stripped text, if anything is left of it. -/
def cleaned (text : Option String) : Option String := truthy (text.map strip)

/-- The order with the proof. -/
def withProof (now : ℕ) (pod : ProofOfDeliveryCreate) (imageUrl signatureUrl : Option String)
    (order : Order) : Order :=
  { order with
    proofOfDeliveryUrl := imageUrl, proofOfDeliveryNotes := cleaned pod.notes,
    proofOfDeliverySignatureUrl := signatureUrl, recipientName := cleaned pod.recipientName,
    proofOfDeliveryCapturedAt := some now, dispatchDate := some (order.dispatchDate.getD now),
    status := "delivered", deliveredAt := some now, updatedAt := now }

/-- `submit_proof_of_delivery`, after its key was looked up. -/
def proveDelivery (now : ℕ) (scope : RequestScope) (key : Option String) (orderId : String)
    (pod : ProofOfDeliveryCreate) : FleetTx Order := do
  let order ← resolveOrderOr404 orderId
  ensure (acceptsProof order) <| .http 409 <|
    "Proof of delivery can only be submitted for in-transit/assigned dispatched orders. " ++
      s!"Current status is '{order.status}'."
  let imageUrl ← lift (normalizePodMediaUrl (some pod.imageUrl) "image_url" true)
  let signatureUrl ← lift (normalizePodMediaUrl pod.signatureUrl "signature_url")
  let order := withProof now pod imageUrl signatureUrl order
  saveOrder order
  syncBatteriesForOrderStatus now order "delivered" none scope.userId
  releaseDriverIfIdle now order
  respond now scope key "order_status_updated" (some "delivered") order

/-- `submit_proof_of_delivery` -/
def submitProofOfDelivery (now : ℕ) (scope : RequestScope) (orderId : String)
    (pod : ProofOfDeliveryCreate) : FleetTx Order :=
  answered now scope fun key => do
    let order ← proveDelivery now scope key orderId pod
    commitAll
    return order

/-! ## Driver assignment -/

/-- The pending order that gives its driver up: it is no longer assigned. -/
def unassigned (now : ℕ) (order : Order) : Order :=
  { order with
    assignedDriverId := none, updatedAt := now
    status := if lower (strip order.status) = "assigned" then "pending" else order.status }

/-- The latest other active order of the driver. -/
def latestActiveOrderOf (db : Db) (driverId : ℕ) (orderId : String) : Option Order :=
  ((db.orders.rows.filter fun o => o.assignedDriverId = some driverId ∧ o.id ≠ orderId ∧
    o.status ∈ activeDriverOrderStatusesDb).insertionSort fun a b =>
      b.updatedAt ≤ a.updatedAt).head?

/-- A pending order gives its driver up for another pending one; any other conflict is refused. -/
def takeOver (now driverId : ℕ) (order : Order) : FleetTx (Option Order) := do
  let db ← query
  match latestActiveOrderOf db driverId order.id with
  | none => return none
  | some conflicting =>
    ensure (canonicalOrderStatus order.status = "pending" ∧
        canonicalOrderStatus conflicting.status = "pending") <| .http 409 <|
      s!"Driver conflict: target order '{order.id}' is '{order.status}', " ++
        s!"but driver is already assigned to order '{conflicting.id}' " ++
        s!"with status '{conflicting.status}'"
    saveOrder (unassigned now conflicting)
    setDriverStatus now driverId "available"
    return some (unassigned now conflicting)

/-- The driver that the order had before is available, unless another order has them. -/
def releasePreviousDriver (now : ℕ) (order : Order) (previousDriverId : Option ℕ) :
    FleetTx Unit :=
  match truthyId previousDriverId with
  | none => pure ()
  | some previous => do
    let db ← query
    match activeOrderOf db previous (some order.id) with
    | some _ => pure ()
    | none => setDriverStatus now previous "available"

/-- `assign_driver` where the order already has the driver. -/
def confirmDriver (now : ℕ) (scope : RequestScope) (key : Option String) (order : Order) :
    FleetTx Order := do
  let order := markOrderAssignedIfPending now order
  saveOrder order
  respond now scope key "order_driver_assignment_confirmed" none order

/-- The update on the order that gave its driver up. -/
def emitReassignment (now : ℕ) (scope : RequestScope) (key : Option String)
    (reassignedFrom : Option Order) : FleetTx Unit :=
  match reassignedFrom with
  | none => pure ()
  | some other =>
    emitOrderRealtimeUpdate now "order_driver_unassigned_reassign" other scope.userId none key

/-- `assign_driver` where the driver is new to the order. -/
def changeDriver (now : ℕ) (scope : RequestScope) (key : Option String) (order : Order)
    (driverId : ℕ) : FleetTx Order := do
  assertDriverAvailableForOrder driverId (some order.id) false false
  let reassignedFrom ← takeOver now driverId order
  assertDriverAvailableForOrder driverId (some order.id)
  let previousDriverId := order.assignedDriverId
  let order := markOrderAssignedIfPending now
    { order with assignedDriverId := some driverId, updatedAt := now }
  saveOrder order
  setDriverStatus now driverId "busy"
  releasePreviousDriver now order previousDriverId
  recordIdempotentResponse now scope key order
  emitReassignment now scope key reassignedFrom
  emitOrderRealtimeUpdate now "order_driver_assigned" order scope.userId none key
  return order

/-- `assign_driver`, after its key was looked up. -/
def assignTo (now : ℕ) (scope : RequestScope) (key : Option String) (orderId : String)
    (driverReference : String) : FleetTx Order := do
  let order ← resolveOrder orderId
  let order ← demand order (.http 404 "Order not found")
  let status := canonicalOrderStatus order.status
  ensure (status ∉ terminalStatuses)
    (.http 409 s!"Cannot assign driver when order is in terminal state '{status}'")
  let db ← query
  let driver ← demand (resolveDriver db driverReference) (.http 404 "Driver not found")
  if order.assignedDriverId = some driver.id then confirmDriver now scope key order
  else changeDriver now scope key order driver.id

/-- `assign_driver` -/
def assignDriver (now : ℕ) (scope : RequestScope) (orderId : String)
    (driverReferences : List DriverToken) : FleetTx Order := do
  let driverReference ← lift (extractDriverReference driverReferences)
  answered now scope fun key => do
    let order ← assignTo now scope key orderId driverReference
    commitAll
    return order

/-! ## Returns -/

/-- The row of a return. -/
def returnOrder (now : ℕ) (returnId reason : String) (original : Order) (batteryIds : List String) :
    Order :=
  { id := returnId, status := "pending", type := "return", originalOrderId := some original.id,
    refundStatus := "pending", customerName := original.customerName,
    customerPhone := original.customerPhone, destination := original.destination,
    units := original.units, totalValue := original.totalValue,
    notes := some s!"Return for order {original.id}. Reason: {reason}",
    priority := original.priority, orderDate := now, updatedAt := now,
    assignedBatteryIds := if batteryIds = [] then .blank else .ofList batteryIds }

/-- A return of the order is open, as the query sees it. -/
def openReturnOf (db : Db) (orderId : String) : Option Order :=
  db.orders.find? fun o => o.type = "return" ∧ o.originalOrderId = some orderId ∧
    o.status ∈ activeDriverOrderStatusesDb

/-- `initiate_return`, after its key was looked up. -/
def returnDelivered (now : ℕ) (scope : RequestScope) (key : Option String) (returnId : String)
    (orderId reason : String) : FleetTx Order := do
  let original ← resolveOrderOr404 orderId "Original order not found"
  ensure (canonicalOrderStatus original.status = "delivered")
    (.http 400 "Can only return delivered orders")
  let db ← query
  ensure (openReturnOf db original.id = none)
    (.http 400 "An active return already exists for this order")
  let batteryIds ← getOrderBatteryIds original
  let order := returnOrder now returnId reason original batteryIds
  let batteries ← fetchAssigned batteryIds
  batteries.forM fun battery =>
    addLifecycleEvent now battery.id "return_initiated"
      (some (s!"Return initiated for order {original.id}. Return ID: {returnId}. " ++
        s!"Reason: {reason}")) scope.userId
  addOrder order
  persistOrderBatteries order.id batteryIds
  recordIdempotentResponse now scope key order
  return order

/-- `initiate_return`; the id of the return order is generated. -/
def initiateReturn (now : ℕ) (scope : RequestScope) (returnId : String) (orderId reason : String) :
    FleetTx Order :=
  answered now scope fun key => do
    let order ← returnDelivered now scope key returnId orderId reason
    commitAll
    return order

end

end WezuBackend.Orders.Service
