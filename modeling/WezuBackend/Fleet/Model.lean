import WezuBackend.Core.Amounts
import WezuBackend.Core.Letters
import Mathlib.Data.Rat.Init

/-!
# The fleet tables

The tables the battery, rental and order code reads and writes: batteries with their lifecycle
events, the places they can be at, inventory transfers, logistics orders with their drivers, and
rentals with their prices and payments.  The columns are those some modelled function reads or
writes.  Columns of floating point numbers hold exact rationals here.
-/

namespace WezuBackend.Fleet.Model

open Lib.Tables Lib.Atomicity Lib.Atomicity.Tx Core.Base

/-! ## Batteries -/

/-- `BatteryStatus`, and any other text. -/
inductive BatteryStatus where
  | available
  | rented
  | maintenance
  | charging
  | retired
  | deployed
  | reserved
  | inTransit
  | faulty
  | new
  | ready
  | other (text : String)
  deriving DecidableEq, Repr

/-- The text a status is stored as. -/
def BatteryStatus.text : BatteryStatus → String
  | .available => "available"
  | .rented => "rented"
  | .maintenance => "maintenance"
  | .charging => "charging"
  | .retired => "retired"
  | .deployed => "deployed"
  | .reserved => "reserved"
  | .inTransit => "in_transit"
  | .faulty => "faulty"
  | .new => "new"
  | .ready => "ready"
  | .other text => text

/-- `LocationType`, and any other text. -/
inductive LocationType where
  | station
  | warehouse
  | serviceCenter
  | recycling
  | customer
  | transit
  | shelf
  | other (text : String)
  deriving DecidableEq, Repr

/-- The text a place is stored as. -/
def LocationType.text : LocationType → String
  | .station => "station"
  | .warehouse => "warehouse"
  | .serviceCenter => "service_center"
  | .recycling => "recycling"
  | .customer => "customer"
  | .transit => "transit"
  | .shelf => "shelf"
  | .other text => text

/-- A row of `batteries`. -/
structure Battery where
  id : ℕ
  serialNumber : String
  skuId : Option ℕ := none
  stationId : Option ℕ := none
  status : BatteryStatus := .available
  locationType : Option LocationType := some .warehouse
  locationId : Option ℕ := none
  currentCharge : ℚ := 100
  purchaseCost : ℚ := 0
  retirementDate : Option ℕ := none
  decommissionedAt : Option ℕ := none
  decommissionedBy : Option ℕ := none
  decommissionReason : Option String := none
  updatedAt : ℕ := 0
  deriving DecidableEq, Repr

/-- A row of `battery_lifecycle_events`. -/
structure BatteryLifecycleEvent where
  id : ℕ
  batteryId : ℕ
  eventType : String
  description : Option String
  actorId : Option ℕ
  timestamp : ℕ
  deriving DecidableEq, Repr

/-! ## Places -/

/-- A row of `stations`. -/
structure Station where
  id : ℕ
  status : String := "active"
  isDeleted : Bool := false
  deriving DecidableEq, Repr

/-- A row of `warehouses`. -/
structure Warehouse where
  id : ℕ
  isActive : Bool := true
  deriving DecidableEq, Repr

/-- A row of `warehouse_racks`. -/
structure Rack where
  id : ℕ
  warehouseId : ℕ
  deriving DecidableEq, Repr

/-- A row of `warehouse_shelves`. -/
structure Shelf where
  id : ℕ
  rackId : ℕ
  capacity : ℕ := 50
  deriving DecidableEq, Repr

/-- A row of `shelf_batteries`. -/
structure ShelfBattery where
  id : ℕ
  shelfId : ℕ
  batteryId : String
  deriving DecidableEq, Repr

/-! ## Inventory transfers -/

/-- What the code makes of a text column that mirrors a list of serials in JSON.  An entry that is
not a text is `none`. -/
inductive SerialsJson where
  | blank
  | malformed
  | notArray
  | array (values : List (Option String))
  deriving DecidableEq, Repr

/-- `json.dumps` of a list of serials. -/
def SerialsJson.ofList (serials : List String) : SerialsJson := .array (serials.map some)

/-- A row of `inventory_transfers`. -/
structure InventoryTransfer where
  id : ℕ
  fromLocationType : String
  fromLocationId : Option ℕ
  toLocationType : String
  toLocationId : ℕ
  items : SerialsJson
  status : String
  updatedAt : ℕ
  completedAt : Option ℕ
  deriving DecidableEq, Repr

/-- A row of `inventory_transfer_items`. -/
structure InventoryTransferItem where
  id : ℕ
  transferId : ℕ
  batteryId : String
  deriving DecidableEq, Repr

/-! ## Logistics orders -/

/-- A row of `logistics_orders`. -/
structure Order where
  id : String
  status : String := "pending"
  priority : String := "normal"
  units : ℤ := 1
  destination : String
  latitude : Option ℚ := none
  longitude : Option ℚ := none
  notes : Option String := none
  customerName : String := "Walk-in Customer"
  customerPhone : Option String := none
  /-- in hundredths -/
  totalValue : ℤ := 0
  trackingNumber : Option String := none
  assignedBatteryIds : SerialsJson := .blank
  assignedDriverId : Option ℕ := none
  orderDate : ℕ
  estimatedDelivery : Option ℕ := none
  dispatchDate : Option ℕ := none
  deliveredAt : Option ℕ := none
  updatedAt : ℕ
  proofOfDeliveryUrl : Option String := none
  proofOfDeliveryNotes : Option String := none
  proofOfDeliveryCapturedAt : Option ℕ := none
  proofOfDeliverySignatureUrl : Option String := none
  recipientName : Option String := none
  failureReason : Option String := none
  type : String := "delivery"
  originalOrderId : Option String := none
  refundStatus : String := "none"
  deriving DecidableEq, Repr

/-- A row of `logistics_order_batteries`. -/
structure OrderBattery where
  id : ℕ
  orderId : String
  batteryId : String
  batteryPk : Option ℕ
  deriving DecidableEq, Repr

/-- A row of `users`. -/
structure User where
  id : ℕ
  phoneNumber : Option String
  deriving DecidableEq, Repr

/-- A row of `driver_profiles`. -/
structure DriverProfile where
  id : ℕ
  userId : ℕ
  phoneNumber : Option String := none
  status : Option String
  isOnline : Bool := false
  lastLocationUpdate : Option ℕ := none
  deriving DecidableEq, Repr

/-- What `json.loads` makes of a stored response. -/
inductive ResponsePayload where
  | malformed
  /-- the `data` of the response -/
  | order (data : Order)
  deriving DecidableEq, Repr

/-- A row of `idempotency_keys`. -/
structure IdempotencyKey where
  id : ℕ
  userId : ℕ
  idempotencyKey : String
  requestMethod : String
  requestPath : String
  requestFingerprint : String
  responsePayload : ResponsePayload
  expiresAt : ℕ
  deriving DecidableEq, Repr

/-- A row of `order_realtime_outbox`. -/
structure OrderRealtimeOutbox where
  id : ℕ
  orderId : String
  eventType : String
  /-- the order's status at the time -/
  orderStatus : String
  actorUserId : Option ℕ
  /-- `metadata["new_status"]` -/
  newStatus : Option String
  idempotencyKey : Option String
  createdAt : ℕ
  deriving DecidableEq, Repr

/-! ## Rentals -/

inductive RentalStatus where
  | active
  | completed
  | overdue
  | cancelled
  | pendingPayment
  deriving DecidableEq, Repr

/-- The text a status is stored as. -/
def RentalStatus.text : RentalStatus → String
  | .active => "active"
  | .completed => "completed"
  | .overdue => "overdue"
  | .cancelled => "cancelled"
  | .pendingPayment => "pending_payment"

/-- A row of `rentals`. -/
structure Rental where
  id : ℕ
  userId : ℕ
  batteryId : ℕ
  startStationId : ℕ
  endStationId : Option ℕ := none
  startTime : ℕ
  expectedEndTime : ℕ
  endTime : Option ℕ := none
  totalAmount : ℚ
  securityDeposit : ℚ
  status : RentalStatus
  deriving DecidableEq, Repr

/-- A row of `rental_events`. -/
structure RentalEvent where
  id : ℕ
  rentalId : ℕ
  eventType : String
  stationId : Option ℕ
  batteryId : Option ℕ
  description : Option String
  deriving DecidableEq, Repr

/-- A row of `battery_catalog`. -/
structure BatteryCatalog where
  id : ℕ
  pricePerDay : ℚ
  deriving DecidableEq, Repr

/-- A row of `promo_codes`. -/
structure PromoCode where
  id : ℕ
  code : String
  discountAmount : ℚ := 0
  discountPercentage : ℚ := 0
  maxDiscountAmount : Option ℚ := none
  minOrderAmount : ℚ := 0
  minRentalDays : ℤ := 0
  isActive : Bool := true
  validFrom : ℕ
  validUntil : Option ℕ := none
  usageLimit : ℤ := 0
  usageCount : ℤ := 0
  deriving DecidableEq, Repr

/-- `PaymentTransaction.status`. -/
inductive PaymentStatus where
  | pending
  | success
  | failed
  | other (text : String)
  deriving DecidableEq, Repr

/-- A row of `payment_transactions`. -/
structure PaymentTransaction where
  id : ℕ
  userId : ℕ
  /-- in hundredths -/
  amount : ℤ
  status : PaymentStatus
  razorpayOrderId : Option String := none
  razorpayPaymentId : Option String := none
  razorpaySignature : Option String := none
  referenceType : Option String := none
  referenceId : Option String := none
  errorCode : Option String := none
  errorDescription : Option String := none
  deriving DecidableEq, Repr

instance : Row Battery ℕ := ⟨Battery.id⟩
instance : Row BatteryLifecycleEvent ℕ := ⟨BatteryLifecycleEvent.id⟩
instance : Row Station ℕ := ⟨Station.id⟩
instance : Row Warehouse ℕ := ⟨Warehouse.id⟩
instance : Row Rack ℕ := ⟨Rack.id⟩
instance : Row Shelf ℕ := ⟨Shelf.id⟩
instance : Row ShelfBattery ℕ := ⟨ShelfBattery.id⟩
instance : Row InventoryTransfer ℕ := ⟨InventoryTransfer.id⟩
instance : Row InventoryTransferItem ℕ := ⟨InventoryTransferItem.id⟩
instance : Row Order String := ⟨Order.id⟩
instance : Row OrderBattery ℕ := ⟨OrderBattery.id⟩
instance : Row User ℕ := ⟨User.id⟩
instance : Row DriverProfile ℕ := ⟨DriverProfile.id⟩
instance : Row IdempotencyKey ℕ := ⟨IdempotencyKey.id⟩
instance : Row OrderRealtimeOutbox ℕ := ⟨OrderRealtimeOutbox.id⟩
instance : Row Rental ℕ := ⟨Rental.id⟩
instance : Row RentalEvent ℕ := ⟨RentalEvent.id⟩
instance : Row BatteryCatalog ℕ := ⟨BatteryCatalog.id⟩
instance : Row PromoCode ℕ := ⟨PromoCode.id⟩
instance : Row PaymentTransaction ℕ := ⟨PaymentTransaction.id⟩

@[simp] theorem key_battery (b : Battery) : Row.key b = b.id := rfl
@[simp] theorem key_shelf (s : Shelf) : Row.key s = s.id := rfl
@[simp] theorem key_shelfBattery (r : ShelfBattery) : Row.key r = r.id := rfl

/-- The tables of the fleet. -/
structure Db where
  batteries : Table Battery := .empty
  batteryLifecycleEvents : Table BatteryLifecycleEvent := .empty
  stations : Table Station := .empty
  warehouses : Table Warehouse := .empty
  racks : Table Rack := .empty
  shelves : Table Shelf := .empty
  shelfBatteries : Table ShelfBattery := .empty
  inventoryTransfers : Table InventoryTransfer := .empty
  inventoryTransferItems : Table InventoryTransferItem := .empty
  orders : Table Order := .empty
  orderBatteries : Table OrderBattery := .empty
  users : Table User := .empty
  driverProfiles : Table DriverProfile := .empty
  idempotencyKeys : Table IdempotencyKey := .empty
  orderRealtimeOutbox : Table OrderRealtimeOutbox := .empty
  rentals : Table Rental := .empty
  rentalEvents : Table RentalEvent := .empty
  batteryCatalog : Table BatteryCatalog := .empty
  promoCodes : Table PromoCode := .empty
  paymentTransactions : Table PaymentTransaction := .empty

/-- The unique indexes: `batteries.serial_number`, `shelf_batteries.battery_id` and
`uq_logistics_order_battery`. -/
structure UniqueIndexes (db : Db) : Prop where
  serials : ∀ b ∈ db.batteries, ∀ b' ∈ db.batteries, b.serialNumber = b'.serialNumber → b.id = b'.id
  shelfBatteries : ∀ r ∈ db.shelfBatteries, ∀ r' ∈ db.shelfBatteries,
    r.batteryId = r'.batteryId → r.id = r'.id
  orderBatteries : ∀ r ∈ db.orderBatteries, ∀ r' ∈ db.orderBatteries,
    r.orderId = r'.orderId → r.batteryId = r'.batteryId → r.id = r'.id

instance (db : Db) : Decidable (UniqueIndexes db) :=
  decidable_of_iff
    ((∀ b ∈ db.batteries, ∀ b' ∈ db.batteries, b.serialNumber = b'.serialNumber → b.id = b'.id) ∧
      (∀ r ∈ db.shelfBatteries, ∀ r' ∈ db.shelfBatteries, r.batteryId = r'.batteryId →
        r.id = r'.id) ∧
      ∀ r ∈ db.orderBatteries, ∀ r' ∈ db.orderBatteries,
        r.orderId = r'.orderId → r.batteryId = r'.batteryId → r.id = r'.id)
    ⟨fun ⟨h₁, h₂, h₃⟩ => ⟨h₁, h₂, h₃⟩, fun ⟨h₁, h₂, h₃⟩ => ⟨h₁, h₂, h₃⟩⟩

/-! ## Programs -/

/-- A program on these tables. -/
abbrev FleetTx (α : Type) : Type := Tx Exc Db α

/-- Write the pending changes: a unique index may reject them. -/
def flush : FleetTx Unit := do
  let db ← look
  ensure (UniqueIndexes db) .integrityError

/-- A query flushes first. -/
def query : FleetTx Db := do
  flush
  look

/-- `session.commit()` flushes first. -/
def commitAll : FleetTx Unit := do
  flush
  commit

end WezuBackend.Fleet.Model
