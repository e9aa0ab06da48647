import WezuBackend.Fleet.Transitions
import WezuBackend.Orders.Service

/-!
# Putting a battery on a shelf

`assign_battery_to_shelf` of `app/api/v1/warehouse_structure.py`.  A battery that is in the shelf's
warehouse, or on another shelf of it, is moved to the shelf.  The row of the shelf is locked first.

`Move` is what a transition of a battery writes, as a function of the store (`written_eq`).
-/

namespace WezuBackend.Warehouse.ShelfAssignment

open Lib.Tables Lib.Atomicity.Tx Core.Base Core.Letters Fleet.Model
open Fleet.Consistency Fleet.Transitions Orders.Service

def assignableToShelfStatuses : List BatteryStatus :=
  [.available, .new, .ready, .charging, .maintenance]

def idText (id : Option ℕ) : String := (id.map toString).getD "None"

structure ShelfResponse where
  id : ℕ
  name : String
  capacity : ℕ
  batteryIds : List String
  deriving DecidableEq, Repr

/-- The shelf, and its warehouse, which must be active. -/
def findShelf (shelfId : ℕ) : FleetTx (Shelf × ℕ) := do
  let db ← query
  let shelf ← demand (db.shelves.get? shelfId) (.http 404 "Shelf not found")
  let targetWarehouseId ← demand ((db.racks.get? shelf.rackId).map Rack.warehouseId)
    (.http 409 s!"Shelf #{shelfId} rack linkage is invalid")
  ensure ((db.warehouses.get? targetWarehouseId).filter Warehouse.isActive).isSome
    (.http 400 s!"Target warehouse #{targetWarehouseId} is not active")
  return (shelf, targetWarehouseId)

def checkAssignable [Casing] (shelfId targetWarehouseId : ℕ) (serial : String)
    (battery : Battery) : FleetTx Unit := do
  ensure (battery.status ∈ assignableToShelfStatuses) <| .http 400 <|
    s!"Battery '{serial}' is '{battery.status.text}' and cannot be assigned to shelf. " ++
      "Allowed statuses: ['available', 'charging', 'maintenance', 'new', 'ready']"
  if battery.locationType = some .warehouse then
    ensure (battery.locationId = some targetWarehouseId) <| .http 400 <|
      s!"Battery '{serial}' is at warehouse #{idText battery.locationId}, " ++
        s!"cannot assign to shelf in warehouse #{targetWarehouseId}"
  else if battery.locationType = some .shelf then
    let db ← query
    let sourceWarehouseId := resolveWarehouseFromShelf db battery.locationId
    ensure (sourceWarehouseId = some targetWarehouseId) <| .http 400 <|
      s!"Battery '{serial}' is on a shelf in warehouse #{idText sourceWarehouseId}. " ++
        "Cross-warehouse shelf moves require an inventory transfer first."
    ensure (battery.locationId ≠ some shelfId) (.http 400 "Battery already on this shelf")
  else
    raise <| .http 400 <|
      s!"Battery '{serial}' at location '{locationTypeText battery.locationType}' " ++
        "cannot be assigned to shelf. Move it to the target warehouse first."

/-- The transition; `name` is the column `warehouse_shelves.name`. -/
def shelfTransition (name : ℕ → String) (shelfId actorId : ℕ) (battery : Battery) : Transition where
  toStatus := some battery.status
  toLocationType := some .shelf
  toLocationId := some (some shelfId)
  eventType := "shelf_assigned"
  eventDescription := s!"Assigned to shelf {name shelfId} (id={shelfId})"
  actorId := some actorId

/-- What an exception of the transition or of the commit is raised as. -/
def assignmentConflict (e : Exc) : Exc :=
  match e with
  | .integrityError => .http 409 "Concurrent shelf assignment conflict detected. Please retry."
  | e => e

section

variable [Casing]

/-- The battery of the request, with the normalised serial. -/
def findBattery (batteryId : String) : FleetTx (String × Battery) := do
  let serial ← lift (normalizeBatterySerial batteryId)
  let found ← getBatteryBySerial serial
  let battery ← demand found (.http 404 s!"Battery '{serial}' not found")
  return (serial, battery)

/-- `assign_battery_to_shelf` of a request that is not answered from its idempotency record. -/
def assignBatteryToShelf (now : ℕ) (name : ℕ → String) (shelfId : ℕ) (batteryId : String)
    (currentUserId : ℕ) : FleetTx ShelfResponse := do
  let (shelf, targetWarehouseId) ← findShelf shelfId
  let (serial, battery) ← findBattery batteryId
  checkAssignable shelfId targetWarehouseId serial battery
  handle (do
      let _ ← applyBatteryTransition now battery
        (shelfTransition name shelfId currentUserId battery)
      let db ← query
      commitAll
      return {
        id := shelf.id, name := name shelfId, capacity := shelf.capacity
        batteryIds := (db.shelfBatteries.filter fun r => r.shelfId = shelfId).map
          ShelfBattery.batteryId })
    fun e => rollback >>= fun _ => raise (assignmentConflict e)

/-! ## What a transition writes -/

/-- A transition of a battery, with the shelf row that it has found. -/
structure Move where
  now : ℕ
  args : Transition
  battery : Battery
  assignment : Option ShelfBattery

/-- The shelf that the battery is moved to. -/
def Move.target (m : Move) : Option ℕ :=
  if targetLocationType m.args m.battery = some .shelf then targetLocationId m.args m.battery
  else none

/-- The shelf that gets a row: not the one that the battery is on. -/
def Move.adds (m : Move) : Option ℕ :=
  m.target.filter fun k => m.assignment.map ShelfBattery.shelfId ≠ some k

def Move.rows (m : Move) (rows : Table ShelfBattery) : Table ShelfBattery :=
  match m.target with
  | none => dropped rows m.assignment
  | some k =>
    if m.assignment.map ShelfBattery.shelfId = some k then rows
    else (dropped rows m.assignment).add fun id =>
      { id, shelfId := k, batteryId := normal m.battery.serialNumber }

def Move.write (m : Move) (db : Db) : Db :=
  { db with
    batteries := db.batteries.set (outcome m.now m.args m.battery)
    shelfBatteries := m.rows db.shelfBatteries
    batteryLifecycleEvents := db.batteryLifecycleEvents.add fun id =>
      { id, batteryId := m.battery.id, eventType := m.args.eventType,
        description := some m.args.eventDescription, actorId := m.args.actorId
        timestamp := m.now } }

theorem written_eq {now : ℕ} {args : Transition} {battery : Battery} {a : Option ShelfBattery}
    {db db' : Db} (h : Transitioned now args battery a db db') :
    db' = (Move.mk now args battery a).write db := by
  have hrows : db'.shelfBatteries = (Move.mk now args battery a).rows db.shelfBatteries := by
    have hreshelved := h.reshelved
    unfold Move.rows Move.target
    dsimp only
    generalize db'.shelfBatteries = rows at hreshelved
    generalize targetLocationType args battery = type at hreshelved
    generalize targetLocationId args battery = k at hreshelved
    cases hreshelved with
    | kept ha => rw [ha, if_pos rfl]; simp
    | @shelved k shelf hs hne hroom =>
      have hmoves : a.map ShelfBattery.shelfId ≠ some k := by
        intro hsame
        obtain ⟨r, hr, hk⟩ := Option.map_eq_some_iff.mp hsame
        exact hne r hr hk
      rw [if_pos rfl]
      dsimp only
      rw [if_neg hmoves]
    | cleared ht => rw [if_neg ht]
  have hrest := h.rest
  rw [h.batteries, hrows] at hrest
  exact hrest

end

end WezuBackend.Warehouse.ShelfAssignment
