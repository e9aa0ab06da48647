import WezuBackend.Core.Base

/-!
# Warehouse stock

`receive_stock`, `transfer_stock` and `adjust_stock` of `StockService` on the rows of the stocks,
their movements and the batteries.  The first row of a warehouse and a product is the one that is
used; the repository's `create` commits a new row, and with it what the session has written before.

Neither the schemas nor the columns check a request: any integer is a quantity, and any transaction
type an adjustment.
-/

namespace WezuBackend.Warehouse.Service

open Lib.Tables Lib.Atomicity Lib.Atomicity.Tx Core.Base

/-! ## Rows -/

inductive StockTransactionType where
  | grn | sale | transferIn | transferOut | adjustmentAdd | adjustmentSub | damaged | returned
  deriving DecidableEq, Repr

inductive StockMovementDirection where
  | inward | outward
  deriving DecidableEq, Repr

structure Stock where
  id : ℕ
  warehouseId : ℕ
  productId : ℕ
  quantityOnHand : ℤ := 0
  quantityAvailable : ℤ := 0
  quantityReserved : ℤ := 0
  quantityDamaged : ℤ := 0
  quantityInTransit : ℤ := 0
  reorderLevel : ℤ := 10
  deriving DecidableEq, Repr

structure StockMovement where
  id : ℕ
  stockId : ℕ
  transactionType : StockTransactionType
  quantity : ℤ
  direction : StockMovementDirection
  referenceType : String
  referenceId : Option String := none
  notes : Option String := none
  createdBy : ℕ
  deriving DecidableEq, Repr

structure Battery where
  id : ℕ
  serialNumber : String
  warehouseId : Option ℕ := none
  deriving DecidableEq, Repr

instance : Row Stock ℕ := ⟨Stock.id⟩
instance : Row StockMovement ℕ := ⟨StockMovement.id⟩
instance : Row Battery ℕ := ⟨Battery.id⟩

structure Db where
  /-- the ids of the warehouses, to which the stocks refer -/
  warehouses : List ℕ
  /-- the ids of the products -/
  catalog : List ℕ
  stocks : Table Stock := .empty
  movements : Table StockMovement := .empty
  batteries : Table Battery := .empty

/-- A program on the warehouse tables. -/
abbrev StockTx := Tx Exc Db

/-! ## The repository -/

/-- `get_by_warehouse_and_product`. -/
def stockOf (warehouseId productId : ℕ) (db : Db) : Option Stock :=
  db.stocks.find? fun s => s.warehouseId = warehouseId ∧ s.productId = productId

def newStock (warehouseId productId id : ℕ) : Stock := { id, warehouseId, productId }

theorem key_newStock (warehouseId productId id : ℕ) :
    Row.key (newStock warehouseId productId id) = id := rfl

def withStock (warehouseId productId : ℕ) (db : Db) : Db :=
  { db with
    stocks := db.stocks.add (newStock warehouseId productId) (key_newStock warehouseId productId) }

def Known (warehouseId productId : ℕ) (db : Db) : Prop :=
  warehouseId ∈ db.warehouses ∧ productId ∈ db.catalog

instance (warehouseId productId : ℕ) (db : Db) : Decidable (Known warehouseId productId db) := by
  unfold Known
  infer_instance

/-- `create` of the stock repository. -/
def createStock (warehouseId productId : ℕ) : StockTx Stock := do
  let db ← look
  ensure (Known warehouseId productId db) .integrityError
  update (withStock warehouseId productId)
  commit
  return newStock warehouseId productId db.stocks.freshKey

/-- The row of the warehouse and the product, which is created at the first use. -/
def getOrCreate (warehouseId productId : ℕ) : StockTx Stock := do
  let db ← look
  match stockOf warehouseId productId db with
  | some stock => return stock
  | none => createStock warehouseId productId

/-! ## Changes of a row -/

/-- Units come in, or, if `n` is negative, go out. -/
def Stock.add (n : ℤ) (s : Stock) : Stock :=
  { s with quantityOnHand := s.quantityOnHand + n, quantityAvailable := s.quantityAvailable + n }

/-- Units turn out to be damaged. -/
def Stock.spoil (n : ℤ) (s : Stock) : Stock :=
  { s with
    quantityAvailable := s.quantityAvailable - n
    quantityDamaged := s.quantityDamaged + n }

/-- The columns of a movement but its id. -/
structure MovementData where
  transactionType : StockTransactionType
  quantity : ℤ
  direction : StockMovementDirection
  referenceType : String
  referenceId : Option String := none
  notes : Option String := none
  createdBy : ℕ

def newMovement (stockId : ℕ) (m : MovementData) (id : ℕ) : StockMovement :=
  { id, stockId, transactionType := m.transactionType, quantity := m.quantity,
    direction := m.direction
    referenceType := m.referenceType, referenceId := m.referenceId, notes := m.notes
    createdBy := m.createdBy }

theorem key_newMovement (stockId : ℕ) (m : MovementData) (id : ℕ) :
    Row.key (newMovement stockId m id) = id := rfl

/-- The row as it was changed, with the movement that goes with it. -/
def post (stock : Stock) (m : MovementData) (db : Db) : Db :=
  { db with
    stocks := db.stocks.set stock
    movements := db.movements.add (newMovement stock.id m) (key_newMovement stock.id m) }

/-! ## `receive_stock` -/

structure StockReceiveRequest where
  warehouseId : ℕ
  productId : ℕ
  quantity : ℤ
  referenceId : Option String := none
  notes : Option String := none
  serialNumbers : Option (List String) := none

/-- The first battery of the serial number, if there is one, is in the warehouse now. -/
def assignBattery (warehouseId : ℕ) (serial : String) (db : Db) : Db :=
  match db.batteries.find? fun b => b.serialNumber = serial with
  | some battery =>
    { db with batteries := db.batteries.set { battery with warehouseId := some warehouseId } }
  | none => db

def assignBatteries (warehouseId : ℕ) (serials : List String) (db : Db) : Db :=
  serials.foldl (fun db serial => assignBattery warehouseId serial db) db

def received (request : StockReceiveRequest) (userId : ℕ) : MovementData :=
  { transactionType := .grn, quantity := request.quantity, direction := .inward
    referenceType := "GRN", referenceId := request.referenceId, notes := request.notes
    createdBy := userId }

def receiveStock (request : StockReceiveRequest) (userId : ℕ) : StockTx Stock := do
  let stock ← getOrCreate request.warehouseId request.productId
  let stock := stock.add request.quantity
  update (post stock (received request userId))
  update (assignBatteries request.warehouseId (request.serialNumbers.getD []))
  commit
  return stock

/-! ## `transfer_stock` -/

structure StockTransferRequest where
  fromWarehouseId : ℕ
  toWarehouseId : ℕ
  productId : ℕ
  quantity : ℤ
  notes : Option String := none

def sent (request : StockTransferRequest) (userId : ℕ) : MovementData :=
  { transactionType := .transferOut, quantity := request.quantity, direction := .outward
    referenceType := "TRANSFER", referenceId := some s!"TO-{request.toWarehouseId}"
    notes := request.notes, createdBy := userId }

def arrived (request : StockTransferRequest) (userId : ℕ) : MovementData :=
  { transactionType := .transferIn, quantity := request.quantity, direction := .inward
    referenceType := "TRANSFER", referenceId := some s!"FROM-{request.fromWarehouseId}"
    notes := request.notes, createdBy := userId }

/-- The row of the source, if it has enough. -/
def sourceOf (request : StockTransferRequest) (db : Db) : Option Stock :=
  (stockOf request.fromWarehouseId request.productId db).filter fun s =>
    request.quantity ≤ s.quantityAvailable

def transferStock (request : StockTransferRequest) (userId : ℕ) : StockTx (List Stock) := do
  let db ← look
  let source ← demand (sourceOf request db) (.http 400 "Insufficient stock in source warehouse")
  update (post (source.add (-request.quantity)) (sent request userId))
  -- the row of the same warehouse is the source itself, as it is now
  let dest ← getOrCreate request.toWarehouseId request.productId
  update (post (dest.add request.quantity) (arrived request userId))
  commit
  let db ← look
  return [source, dest].filterMap fun s => db.stocks.get? s.id

/-! ## `adjust_stock` -/

structure StockAdjustmentRequest where
  warehouseId : ℕ
  productId : ℕ
  quantity : ℤ
  type : StockTransactionType
  notes : Option String := none

/-- The row after the adjustment, and the direction of its movement; types that are no adjustment
change nothing. -/
def adjusted (type : StockTransactionType) (quantity : ℤ) (stock : Stock) :
    Except Exc (Stock × StockMovementDirection) :=
  match type with
  | .damaged =>
    if stock.quantityAvailable < quantity then
      .error (.http 400 "Insufficient available stock to mark as damaged")
    else .ok (stock.spoil quantity, .outward)
  | .adjustmentAdd => .ok (stock.add quantity, .inward)
  | .adjustmentSub =>
    if stock.quantityAvailable < quantity then .error (.http 400 "Insufficient available stock")
    else .ok (stock.add (-quantity), .outward)
  | _ => .ok (stock, .inward)

def adjustment (request : StockAdjustmentRequest) (direction : StockMovementDirection)
    (userId : ℕ) :
    MovementData :=
  { transactionType := request.type, quantity := request.quantity, direction
    referenceType := "ADJUSTMENT", notes := request.notes, createdBy := userId }

def adjustStock (request : StockAdjustmentRequest) (userId : ℕ) : StockTx Stock := do
  let db ← look
  let stock ← demand (stockOf request.warehouseId request.productId db)
    (.http 404 "Stock record not found")
  let change ← lift (adjusted request.type request.quantity stock)
  update (post change.1 (adjustment request change.2 userId))
  commit
  return change.1

inductive Request where
  | receive (request : StockReceiveRequest) (userId : ℕ)
  | transfer (request : StockTransferRequest) (userId : ℕ)
  | adjust (request : StockAdjustmentRequest) (userId : ℕ)

/-- The tables after one request. -/
def step (db : Db) : Request → Db
  | .receive request userId => ((receiveStock request userId).call db).2
  | .transfer request userId => ((transferStock request userId).call db).2
  | .adjust request userId => ((adjustStock request userId).call db).2

end WezuBackend.Warehouse.Service
