import WezuBackend.Fleet.Model
import Mathlib.Data.List.Sort

/-!
# Battery consistency

`app/services/battery_consistency.py`: how a battery moves from one place and status to another.
All battery moves go through `apply_battery_transition`, which checks the target place, the locks
that transfers and orders put on the battery and the room on the target shelf, and keeps the shelf
rows, the place and the old `station_id` column of the battery in step.
-/

namespace WezuBackend.Fleet.Consistency

open Lib.Atomicity.Tx Core.Base Core.Text Core.Letters Fleet.Model

/-- `VALID_BATTERY_STATUSES` -/
def validBatteryStatuses : List BatteryStatus :=
  [.available, .deployed, .charging, .faulty, .maintenance, .reserved, .inTransit, .new, .ready,
    .retired]

/-- `VALID_LOCATION_TYPES` -/
def validLocationTypes : List LocationType := [.warehouse, .station, .customer, .transit, .shelf]

/-- `LOCATION_TYPES_REQUIRING_ID` -/
def locationTypesRequiringId : List LocationType := [.warehouse, .station, .shelf]

/-- `LOCATION_TYPES_WITHOUT_ID` -/
def locationTypesWithoutId : List LocationType := [.customer, .transit]

/-- `TRANSIT_COMPATIBLE_STATUSES` -/
def transitCompatibleStatuses : List BatteryStatus := [.inTransit, .deployed]

/-- `ACTIVE_TRANSFER_STATUSES` -/
def activeTransferStatuses : List String := ["pending", "in_transit"]

/-- `ACTIVE_ORDER_NORMALIZED_STATUSES`. -/
def activeOrderStatuses : List String :=
  ["pending", "in_transit", "assigned", "new", "in_progress", "out_for_delivery", "dispatched"]

/-! ## Texts -/

/-- `replace("-", "_").replace(" ", "_")`. -/
def underscored (text : String) : String :=
  String.ofList (text.toList.map fun c => if c = '-' ∨ c = ' ' then '_' else c)

/-- `repr` of a list of texts. -/
def listText (texts : List String) : String :=
  "[" ++ ", ".intercalate (texts.map fun t => "'" ++ t ++ "'") ++ "]"

/-- `sorted(set(texts))`. -/
def sortedTexts (texts : List String) : List String :=
  (texts.insertionSort fun a b => a ≤ b).dedup

/-- The text of a mapping from serials to what they conflict with; the latter are in order. -/
def conflictText (conflicts : List (String × String)) : String :=
  let entry (serial : String) :=
    "'" ++ serial ++ "': [" ++ ", ".intercalate
      ((conflicts.filter fun c => c.1 = serial).map Prod.snd).dedup ++ "]"
  "\x7b" ++ ", ".intercalate ((sortedTexts (conflicts.map Prod.fst)).map entry) ++ "\x7d"

/-! ## Places -/

/-- Batteries may be sent to the station. -/
def isStationTransferEligible (station : Station) : Bool :=
  ¬ station.isDeleted ∧ underscored (lower (strip station.status)) = "active"

/-- `session.get(Warehouse, ...)` restricted to active ones. -/
def getTransferEligibleWarehouse (db : Db) (warehouseId : ℕ) : Option Warehouse :=
  db.warehouses.find? fun w => w.id = warehouseId ∧ w.isActive

/-- The shelf's warehouse is active. -/
def inActiveWarehouse (db : Db) (shelf : Shelf) : Bool :=
  match (db.racks.get? shelf.rackId).bind fun rack => db.warehouses.get? rack.warehouseId with
  | some warehouse => warehouse.isActive
  | none => false

/-- `location_role.capitalize()`. -/
def capitalize (role : String) : String :=
  match role.toList with
  | [] => ""
  | c :: cs => String.ofList (c.toUpper :: cs.map Char.toLower)

/-- `assert_location_exists`; its texts show a place by its value, not as the enum's member. -/
def assertLocationExists (locationType : Option LocationType) (locationId : Option ℕ)
    (role : String) (requireTransferEligibility : Bool := false) : FleetTx Unit :=
  match locationType with
  | none => pure ()
  | some type => do
    let Role := capitalize role
    ensure (type ∈ validLocationTypes) <| .http 400 <|
      s!"Invalid {role}_location_type '{type.text}'. " ++
        "Allowed: ['customer', 'shelf', 'station', 'transit', 'warehouse']"
    if type ∈ locationTypesRequiringId then
      let k ← demand (locationId.filter (0 < ·)) <| .http 400
        s!"{role}_location_id must be a positive integer when location_type is '{type.text}'"
      let db ← query
      if type = .warehouse then
        ensure (getTransferEligibleWarehouse db k).isSome
          (.http 404 s!"{Role} warehouse #{k} not found or inactive")
      else if type = .station then
        let station ← demand (db.stations.get? k) (.http 404 s!"{Role} station #{k} not found")
        ensure (¬ station.isDeleted) (.http 404 s!"{Role} station #{k} not found or inactive")
        ensure (requireTransferEligibility → isStationTransferEligible station)
          (.http 404 s!"{Role} station #{k} not found or inactive")
      else
        let shelf ← demand (db.shelves.get? k) (.http 404 s!"{Role} shelf #{k} not found")
        ensure (inActiveWarehouse db shelf)
          (.http 400 s!"{Role} shelf #{k} belongs to an inactive warehouse")
    else
      ensure (type ∈ locationTypesWithoutId → locationId = none) <| .http 400
        s!"{role}_location_id must be omitted when location_type is '{type.text}'"

/-- The one active warehouse, if it is the only one. -/
def getSingleActiveWarehouseId (db : Db) : Option ℕ :=
  match db.warehouses.rows.filter Warehouse.isActive with
  | [warehouse] => some warehouse.id
  | _ => none

/-- The warehouse that takes in, the only active one by default. -/
def resolveIntakeWarehouseId (warehouseId : Option ℕ) : FleetTx ℕ := do
  let db ← query
  match warehouseId with
  | some k =>
    let warehouse ← demand (getTransferEligibleWarehouse db k)
      (.http 404 s!"Warehouse #{k} not found or inactive")
    return warehouse.id
  | none =>
    match db.warehouses.rows.filter Warehouse.isActive with
    | [] => raise (.http 404 "No active warehouse configured")
    | [warehouse] => return warehouse.id
    | _ =>
      raise (.http 400 "Multiple active warehouses found. Provide warehouse_id explicitly.")

section

variable [Casing]

/-! ## Serials -/

/-- The serial number in upper case, or an error that names its field. -/
def normalizeBatterySerial (raw : String) (fieldName : String := "battery_id") :
    Except Exc String :=
  if normal raw = "" then .error (.http 400 s!"{fieldName} must be a non-empty string")
  else .ok (normal raw)

/-- The serials normalised one after the other, none of them seen before. -/
def normalizeFrom (fieldName : String) : ℕ → List String → List String → Except Exc (List String)
  | _, _, [] => .ok []
  | index, seen, raw :: raws => do
    let serial ← normalizeBatterySerial raw s!"{fieldName}[{index}]"
    if serial ∈ seen then
      throw (.http 400 s!"Duplicate battery serial '{serial}' in {fieldName}")
    let serials ← normalizeFrom fieldName (index + 1) (serial :: seen) raws
    return serial :: serials

/-- The serial numbers normalised, no two the same. -/
def normalizeBatterySerials (serials : List String) (fieldName : String)
    (requireNonEmpty : Bool := true) : Except Exc (List String) := do
  let normalized ← normalizeFrom fieldName 0 [] serials
  if requireNonEmpty ∧ normalized = [] then throw (.http 400 s!"{fieldName} must not be empty")
  return normalized

/-! ## Batteries and shelf rows of a serial -/

/-- The shelf rows that the code takes for the serial's. -/
def shelfRows (db : Db) (serial : String) : List ShelfBattery :=
  db.shelfBatteries.rows.filter fun r => sqlUpper r.batteryId = serial

/-- The shelf row of a serial number. -/
def getShelfAssignment (serial : String) : FleetTx (Option ShelfBattery) := do
  let db ← query
  ensure ((shelfRows db serial).length ≤ 1) <| .http 409 <|
    s!"Data integrity violation: multiple shelf assignments found for battery '{serial}' " ++
      "(case-insensitive match)"
  return (shelfRows db serial).head?

/-- The batteries found, keyed by their normalised serials. -/
def bySerial (batteries : List Battery) : Except Exc (List (String × Battery)) :=
  batteries.foldlM (fun found b => do
    let serial ← normalizeBatterySerial b.serialNumber
    if serial ∈ found.map Prod.fst then
      throw (.http 409 ("Data integrity violation: multiple battery rows found for serial " ++
        s!"'{serial}' (case-insensitive match)"))
    return found ++ [(serial, b)]) []

/-- The batteries of these serial numbers, in their order. -/
def fetchBatteriesCaseInsensitive (serials : List String) : FleetTx (List Battery) := do
  if serials = [] then return []
  let db ← query
  let rows := (db.batteries.rows.filter fun b => sqlUpper b.serialNumber ∈ serials).insertionSort
    fun a b => sqlUpper a.serialNumber ≤ sqlUpper b.serialNumber
  let found ← lift (bySerial rows)
  let missing := serials.filter fun s => s ∉ found.map Prod.fst
  ensure (missing = []) (.http 400 ("Batteries not found: " ++ listText (sortedTexts missing)))
  return serials.filterMap fun s => found.lookup s

/-- The same, for serial numbers as they are sent. -/
def fetchBatteriesBySerials (serials : List String) (fieldName : String := "battery_ids")
    (requireNonEmpty : Bool := true) : FleetTx (List Battery) := do
  let normalized ← lift (normalizeBatterySerials serials fieldName requireNonEmpty)
  fetchBatteriesCaseInsensitive normalized

/-- The battery of a serial number, in any case. -/
def getBatteryBySerial (serial : String) : FleetTx (Option Battery) := do
  let normalized ← lift (normalizeBatterySerial serial)
  let db ← query
  let rows := db.batteries.filter fun b => sqlUpper b.serialNumber = normalized
  ensure (rows.length ≤ 1) <| .http 409 <|
    s!"Data integrity violation: multiple battery rows found for serial '{normalized}' " ++
      "(case-insensitive match)"
  return rows.head?

/-! ## Locks -/

/-- The open transfers that have one of the batteries. -/
def transferConflicts (db : Db) (serials : List String) (excludeTransferId : Option ℕ) :
    List (InventoryTransferItem × InventoryTransfer) :=
  db.inventoryTransferItems.rows.filterMap fun item =>
    ((db.inventoryTransfers.get? item.transferId).filter fun t =>
      t.status ∈ activeTransferStatuses ∧ sqlUpper item.batteryId ∈ serials ∧
        some t.id ≠ excludeTransferId).map fun t => (item, t)

/-- No open transfer has one of the batteries. -/
def assertBatteriesNotInActiveTransfers (serials : List String)
    (excludeTransferId : Option ℕ := none) : FleetTx Unit := do
  let normalized ← lift (normalizeBatterySerials serials "battery_ids" false)
  if normalized = [] then return
  let db ← query
  let rows := (transferConflicts db normalized excludeTransferId).insertionSort
    fun a b => a.2.id ≤ b.2.id
  let conflicts ← lift (rows.mapM fun c => do
    let serial ← normalizeBatterySerial c.1.batteryId
    return (serial, toString c.2.id))
  ensure (conflicts = [])
    (.http 409 ("Batteries already in active transfers: " ++ conflictText conflicts))

/-- The status of an order as the query of the locks reads it. -/
def sqlOrderStatus (status : String) : String := underscored (lower status)

/-- The active orders that have one of the batteries. -/
def orderConflicts (db : Db) (serials : List String) (excludeOrderId : Option String) :
    List (OrderBattery × Order) :=
  db.orderBatteries.rows.filterMap fun row =>
    ((db.orders.get? row.orderId).filter fun o =>
      sqlOrderStatus o.status ∈ activeOrderStatuses ∧ sqlUpper row.batteryId ∈ serials ∧
        some o.id ≠ truthy excludeOrderId).map fun o => (row, o)

/-- No active order has one of the batteries. -/
def assertBatteriesNotInActiveOrders (serials : List String)
    (excludeOrderId : Option String := none) : FleetTx Unit := do
  let normalized ← lift (normalizeBatterySerials serials "battery_ids" false)
  if normalized = [] then return
  let db ← query
  let rows := (orderConflicts db normalized excludeOrderId).insertionSort
    fun a b => a.2.id ≤ b.2.id
  let conflicts ← lift (rows.mapM fun c => do
    let serial ← normalizeBatterySerial c.1.batteryId
    return (serial, "'" ++ c.2.id ++ "'"))
  ensure (conflicts = [])
    (.http 409 ("Batteries already assigned to active orders: " ++ conflictText conflicts))

/-- A check that the caller may have asked to skip. -/
def unlessSkipped (skip : Bool) (check : FleetTx Unit) : FleetTx Unit :=
  if skip then pure () else check

/-- The battery is in no open transfer and no active order. -/
def assertBatteryNotLocked (serial : String) (excludeTransferId : Option ℕ := none)
    (excludeOrderId : Option String := none) (skipActiveTransferCheck : Bool := false)
    (skipActiveOrderCheck : Bool := false) : FleetTx Unit := do
  let normalized ← lift (normalizeBatterySerial serial)
  unlessSkipped skipActiveTransferCheck
    (assertBatteriesNotInActiveTransfers [normalized] excludeTransferId)
  unlessSkipped skipActiveOrderCheck
    (assertBatteriesNotInActiveOrders [normalized] excludeOrderId)

/-- The battery's place and its shelf row agree. -/
def assertBatteryShelfStateConsistent (battery : Battery) : FleetTx Unit := do
  let serial ← lift (normalizeBatterySerial battery.serialNumber)
  let assignment ← getShelfAssignment serial
  if battery.locationType = some .shelf then
    let locationId ← demand battery.locationId <| .http 409
      s!"Battery '{serial}' is at shelf location type but location_id is missing"
    let row ← demand assignment <| .http 409
      s!"Battery '{serial}' is shelf-located but has no shelf assignment row"
    ensure (row.shelfId = locationId) <| .http 409 <|
      s!"Battery '{serial}' location points to shelf #{locationId} " ++
        s!"but assignment row points to shelf #{row.shelfId}"
  else
    match assignment with
    | none => return
    | some row =>
      let locationText := (battery.locationType.map LocationType.text).getD "None"
      raise <| .http 409 <|
        s!"Battery '{serial}' has stale shelf assignment row for shelf #{row.shelfId} " ++
          s!"while location_type is '{locationText}'"

/-! ## Transitions -/

/-- The keyword arguments of `apply_battery_transition`; `toLocationId` is `none` where it is left
out. -/
structure Transition where
  eventType : String
  eventDescription : String
  actorId : Option ℕ := none
  decommissionReason : Option String := none
  toStatus : Option BatteryStatus := none
  toLocationType : Option LocationType := none
  toLocationId : Option (Option ℕ) := none
  excludeTransferId : Option ℕ := none
  excludeOrderId : Option String := none
  skipActiveTransferCheck : Bool := false
  skipActiveOrderCheck : Bool := false

/-- The row of the battery is overwritten. -/
def saveBattery (battery : Battery) : FleetTx Unit :=
  update fun db => { db with batteries := db.batteries.set battery }

/-- An event of the battery is added. -/
def addLifecycleEvent (now batteryId : ℕ) (eventType : String) (description : Option String)
    (actorId : Option ℕ) : FleetTx Unit :=
  update fun db =>
    { db with
      batteryLifecycleEvents := db.batteryLifecycleEvents.add fun id =>
        { id, batteryId, eventType, description, actorId, timestamp := now } }

/-- The battery under its normalised serial.  Writing another serial stamps `updated_at`. -/
def renamed (now : ℕ) (serial : String) (battery : Battery) : Battery :=
  { battery with
    serialNumber := serial
    updatedAt := if battery.serialNumber = serial then battery.updatedAt else now }

/-- `session.delete(assignment)`, flushed. -/
def deleteAssignment (assignment : Option ShelfBattery) : FleetTx Unit :=
  match assignment with
  | none => pure ()
  | some row => do
    update fun db => { db with shelfBatteries := db.shelfBatteries.erase row.id }
    flush

/-- The shelf rows of a transition. -/
def moveAssignment (serial : String) (assignment : Option ShelfBattery)
    (locationType : Option LocationType) (locationId : Option ℕ) : FleetTx Unit :=
  if locationType = some .shelf then do
    let shelfId ← demand locationId
      (.http 400 "target_location_id is required for shelf assignments")
    let db ← query
    let shelf ← demand (db.shelves.get? shelfId) (.http 404 s!"Shelf #{shelfId} not found")
    if assignment.map ShelfBattery.shelfId = some shelfId then return
    ensure ((db.shelfBatteries.rows.filter fun r => r.shelfId = shelfId).length < shelf.capacity)
      (.http 400 s!"Shelf #{shelfId} is at full capacity")
    deleteAssignment assignment
    update fun db =>
      { db with
        shelfBatteries := db.shelfBatteries.add fun id => { id, shelfId, batteryId := serial } }
  else deleteAssignment assignment

/-- The fields a retirement sets. -/
def retireFields (now : ℕ) (actorId : Option ℕ) (reason : Option String) (battery : Battery) :
    Battery :=
  let cleaned := strip (reason.getD "")
  { battery with
    retirementDate := battery.retirementDate.or (some now)
    decommissionedAt := battery.decommissionedAt.or (some now)
    decommissionedBy := actorId.or battery.decommissionedBy
    decommissionReason := if cleaned = "" then battery.decommissionReason else some cleaned }

/-- The battery's row after the transition. -/
def placed (now : ℕ) (args : Transition) (status : BatteryStatus)
    (locationType : Option LocationType) (locationId : Option ℕ) (battery : Battery) : Battery :=
  let battery :=
    { battery with
      status, locationType, locationId, updatedAt := now
      stationId :=
        if locationType = some .station then locationId.or battery.stationId else none }
  if status = .retired then retireFields now args.actorId args.decommissionReason battery
  else battery

/-- `apply_battery_transition`; it returns the battery as it leaves it. -/
def applyBatteryTransition (now : ℕ) (battery : Battery) (args : Transition) :
    FleetTx Battery := do
  let serial ← lift (normalizeBatterySerial battery.serialNumber)
  let battery := renamed now serial battery
  saveBattery battery
  let targetStatus := args.toStatus.getD battery.status
  let targetLocationType := args.toLocationType.or battery.locationType
  let targetLocationId := args.toLocationId.getD battery.locationId
  ensure (targetStatus ∈ validBatteryStatuses) <| .http 400 <|
    s!"Invalid battery status '{targetStatus.text}'. Allowed: ['available', 'charging', " ++
      "'deployed', 'faulty', 'in_transit', 'maintenance', 'new', 'ready', 'reserved', 'retired']"
  ensure (battery.status = .retired → targetStatus = .retired) <| .http 409
    s!"Battery '{serial}' is retired and cannot transition back to active states"
  assertLocationExists targetLocationType targetLocationId "target"
  ensure (targetLocationType = some .transit → targetStatus ∈ transitCompatibleStatuses) <|
    .http 400 "location_type 'transit' is only allowed with statuses ['deployed', 'in_transit']"
  assertBatteryNotLocked serial args.excludeTransferId args.excludeOrderId
    args.skipActiveTransferCheck args.skipActiveOrderCheck
  let assignment ← getShelfAssignment serial
  moveAssignment serial assignment targetLocationType targetLocationId
  let targetLocationId :=
    if ∃ type ∈ targetLocationType, type ∈ locationTypesWithoutId then none else targetLocationId
  let battery := placed now args targetStatus targetLocationType targetLocationId battery
  saveBattery battery
  addLifecycleEvent now battery.id args.eventType (some args.eventDescription) args.actorId
  return battery

end

end WezuBackend.Fleet.Consistency
