import WezuBackend.Wallet.Service

/-!
# Catalog orders

`create_order`, `confirm_order` and `cancel_order` of `OrderService`, and what of `CatalogService`
they use.  Each of them catches every exception, rolls back and returns `None` or `False`; so do
`reserve_stock` and `release_stock`, which commit by themselves, one line at a time.

Every commit of a call may fail (`Failures`).  Prices are exact numbers.
-/

namespace WezuBackend.Catalog.Orders

open Lib.Tables Lib.Atomicity Lib.Atomicity.Tx Core.Base Core.Amounts

/-! ## Rows -/

structure CatalogProduct where
  id : ℕ
  name : String
  sku : String
  price : ℚ
  stockQuantity : ℤ := 0
  warrantyMonths : ℕ := 0
  deriving DecidableEq, Repr

structure CatalogProductVariant where
  id : ℕ
  sku : String
  price : Option ℚ := none
  stockQuantity : ℤ := 0
  deriving DecidableEq, Repr

inductive OrderStatus where
  | pending | confirmed | shipped | delivered | cancelled | returnRequested
  deriving DecidableEq, Repr

/-- Where an order is sent. -/
structure ShippingAddress where
  address : String
  city : String
  state : String
  pincode : String
  phone : String
  deriving DecidableEq, Repr

structure CatalogOrder where
  id : ℕ
  orderNumber : String
  userId : ℕ
  subtotal : ℚ
  taxAmount : ℚ
  shippingFee : ℚ
  totalAmount : ℚ
  shipping : ShippingAddress
  paymentMethod : String
  paymentStatus : String := "PENDING"
  paymentId : Option String := none
  status : OrderStatus := .pending
  confirmedAt : Option ℕ := none
  cancelledAt : Option ℕ := none
  adminNotes : Option String := none
  deriving DecidableEq, Repr

structure CatalogOrderItem where
  id : ℕ
  orderId : ℕ
  productId : ℕ
  variantId : Option ℕ
  productName : String
  sku : String
  quantity : ℕ
  unitPrice : ℚ
  totalPrice : ℚ
  warrantyMonths : ℕ
  deriving DecidableEq, Repr

structure DeliveryTracking where
  id : ℕ
  orderId : ℕ
  trackingNumber : String
  courierName : String
  currentStatus : String
  deriving DecidableEq, Repr

structure DeliveryEvent where
  id : ℕ
  trackingId : ℕ
  status : String
  description : String
  deriving DecidableEq, Repr

instance : Row CatalogProduct ℕ := ⟨CatalogProduct.id⟩
instance : Row CatalogProductVariant ℕ := ⟨CatalogProductVariant.id⟩
instance : Row CatalogOrder ℕ := ⟨CatalogOrder.id⟩
instance : Row CatalogOrderItem ℕ := ⟨CatalogOrderItem.id⟩
instance : Row DeliveryTracking ℕ := ⟨DeliveryTracking.id⟩
instance : Row DeliveryEvent ℕ := ⟨DeliveryEvent.id⟩

/-- The tables of the catalog, and the wallets. -/
structure Db where
  products : Table CatalogProduct := .empty
  variants : Table CatalogProductVariant := .empty
  orders : Table CatalogOrder := .empty
  items : Table CatalogOrderItem := .empty
  trackings : Table DeliveryTracking := .empty
  events : Table DeliveryEvent := .empty
  wallet : Financial.Model.Db

abbrev CatalogTx := Tx Exc Db

/-- Which commits of a call fail: those after the lines, in their order, and the last one. -/
structure Failures where
  line : ℕ → Bool := fun _ => false
  last : Bool := false

/-- The failures of the lines but the first. -/
def Failures.tail (fails : Failures) : Failures :=
  { fails with line := fun n => fails.line (n + 1) }

/-- The order of each item is stored, and so is its variant.  (An item's product was there when its
price was looked up.) -/
def Linked (db : Db) : Prop := ∀ i ∈ db.items, (∃ o ∈ db.orders, o.id = i.orderId) ∧
  ∀ v ∈ i.variantId, (db.variants.get? v).isSome

instance (db : Db) : Decidable (Linked db) := by
  unfold Linked
  infer_instance

/-- A commit, which checks the foreign keys of the items. -/
def commitUnless (fails : Bool) : CatalogTx Unit := do
  let db ← look
  ensure (fails = false ∧ Linked db) .integrityError
  commit

/-! ## Stock -/

/-- What has a stock of its own. -/
inductive StockKey where
  | product (id : ℕ)
  | variant (id : ℕ)
  deriving DecidableEq, Repr

/-- `if variant_id:` -/
def keyOf (productId : ℕ) (variantId : Option ℕ) : StockKey :=
  match variantId.filter (· ≠ 0) with
  | some v => .variant v
  | none => .product productId

/-- The quantity, where the row is there. -/
def stock (db : Db) : StockKey → Option ℤ
  | .product k => (db.products.get? k).map CatalogProduct.stockQuantity
  | .variant k => (db.variants.get? k).map CatalogProductVariant.stockQuantity

def productStock (n : ℤ) (p : CatalogProduct) : CatalogProduct :=
  { p with stockQuantity := p.stockQuantity + n }

def variantStock (n : ℤ) (v : CatalogProductVariant) : CatalogProductVariant :=
  { v with stockQuantity := v.stockQuantity + n }

theorem key_productStock (n : ℤ) (p : CatalogProduct) : Row.key (productStock n p) = Row.key p :=
  rfl

theorem key_variantStock (n : ℤ) (v : CatalogProductVariant) :
    Row.key (variantStock n v) = Row.key v := rfl

/-- The quantity, if there is one, is changed by `n`. -/
def addStock (key : StockKey) (n : ℤ) (db : Db) : Db :=
  match key with
  | .product k =>
    { db with
      products := db.products.update (fun p => p.id = k) (productStock n) (key_productStock n) }
  | .variant k =>
    { db with
      variants := db.variants.update (fun v => v.id = k) (variantStock n) (key_variantStock n) }

/-- `check_stock_availability`. -/
def Available (key : StockKey) (quantity : ℕ) (db : Db) : Prop :=
  ∃ n ∈ stock db key, (quantity : ℤ) ≤ n

instance (key : StockKey) (quantity : ℕ) (db : Db) : Decidable (Available key quantity db) := by
  unfold Available
  infer_instance

/-- `reserve_stock` -/
def reserveStock (key : StockKey) (quantity : ℕ) (fails : Bool) : CatalogTx Bool :=
  handle
    (do
      let db ← look
      if Available key quantity db then
        update (addStock key (-quantity))
        commitUnless fails
        return true
      else return false)
    fun _ => do
      rollback
      return false

/-- `release_stock` -/
def releaseStock (key : StockKey) (quantity : ℕ) (fails : Bool) : CatalogTx Unit :=
  handle
    (do
      update (addStock key quantity)
      commitUnless fails)
    fun _ => rollback

/-! ## `create_order` -/

/-- A line of the request. -/
structure OrderLine where
  productId : ℕ
  variantId : Option ℕ := none
  quantity : ℕ
  deriving DecidableEq, Repr

def OrderLine.key (line : OrderLine) : StockKey := keyOf line.productId line.variantId

/-- A line with its product and prices. -/
structure ItemData extends OrderLine where
  productName : String
  sku : String
  unitPrice : ℚ
  totalPrice : ℚ
  warrantyMonths : ℕ

/-- The variant's price, or else the product's. -/
def variantPrice (product : CatalogProduct) (variant : CatalogProductVariant) : ℚ :=
  (variant.price.filter (· ≠ 0)).getD product.price

/-- The first loop, for one line. -/
def priceLine (db : Db) (line : OrderLine) : Except Exc ItemData :=
  if Available line.key line.quantity db then
    match db.products.get? line.productId with
    | none => .error (.valueError s!"Product {line.productId} not found")
    | some product =>
      let variant := (line.variantId.filter (· ≠ 0)).bind db.variants.get?
      let unitPrice := variant.elim product.price (variantPrice product)
      .ok { line with
        productName := product.name
        sku := variant.elim product.sku CatalogProductVariant.sku
        unitPrice := unitPrice
        totalPrice := unitPrice * line.quantity
        warrantyMonths := product.warrantyMonths }
  else .error (.valueError s!"Insufficient stock for product {line.productId}")

/-- A call, and which of its commits fail. -/
structure OrderRequest where
  userId : ℕ
  items : List OrderLine
  shipping : ShippingAddress
  paymentMethod : String
  orderNumber : String
  /-- the insert of the order fails -/
  flushFails : Bool := false
  fails : Failures := {}

/-- The order's row. -/
def newOrder (request : OrderRequest) (lines : List ItemData) (id : ℕ) : CatalogOrder :=
  let subtotal := (lines.map ItemData.totalPrice).sum
  let taxAmount := subtotal * (18 / 100)
  let shippingFee := if 500 < subtotal then 0 else 50
  { id, orderNumber := request.orderNumber, userId := request.userId, subtotal,
    taxAmount, shippingFee
    totalAmount := subtotal + taxAmount + shippingFee, shipping := request.shipping
    paymentMethod := request.paymentMethod }

/-- The row of a line. -/
def newItem (orderId : ℕ) (line : ItemData) (id : ℕ) : CatalogOrderItem :=
  { id, orderId, productId := line.productId, variantId := line.variantId
    productName := line.productName, sku := line.sku, quantity := line.quantity
    unitPrice := line.unitPrice, totalPrice := line.totalPrice
    warrantyMonths := line.warrantyMonths }

theorem key_newOrder (request : OrderRequest) (lines : List ItemData) (id : ℕ) :
    Row.key (newOrder request lines id) = id := rfl

theorem key_newItem (orderId : ℕ) (line : ItemData) (id : ℕ) :
    Row.key (newItem orderId line id) = id := rfl

def withOrder (request : OrderRequest) (lines : List ItemData) (db : Db) : Db :=
  { db with orders := db.orders.add (newOrder request lines) (key_newOrder request lines) }

def withItem (orderId : ℕ) (line : ItemData) (db : Db) : Db :=
  { db with items := db.items.add (newItem orderId line) (key_newItem orderId line) }

/-- The second loop. -/
def reserveLines (orderId : ℕ) : List ItemData → Failures → CatalogTx Unit
  | [], _ => pure ()
  | line :: lines, fails => do
    update (withItem orderId line)
    let _ ← reserveStock line.key line.quantity (fails.line 0)
    reserveLines orderId lines fails.tail

/-- What `create_order` tries. -/
def placeOrder (request : OrderRequest) : CatalogTx CatalogOrder := do
  let db ← look
  let lines ← lift (request.items.mapM (priceLine db))
  ensure (request.flushFails = false ∧ ∀ o ∈ db.orders, o.orderNumber ≠ request.orderNumber)
    .integrityError
  update (withOrder request lines)
  reserveLines db.orders.freshKey lines request.fails
  commitUnless request.fails.last
  let db' ← look
  demand (db'.orders.get? db.orders.freshKey) .attributeError

/-- `create_order` -/
def createOrder (request : OrderRequest) : CatalogTx (Option CatalogOrder) :=
  handle (do return some (← placeOrder request)) fun _ => do
    rollback
    return none

theorem createOrder_call (request : OrderRequest) (db : Db) :
    ((createOrder request).call db).2 = (placeOrder request (.fresh db)).2.committed := by
  unfold Tx.call createOrder
  rcases hplace : placeOrder request (.fresh db) with ⟨e | order, u⟩
  · rw [handle_of_error (bind_of_error hplace)]
    rfl
  · have hsome : (placeOrder request >>= fun order => pure (some order) : CatalogTx _) (.fresh db) =
        (.ok (some order), u) := bind_of_ok hplace
    rw [handle_of_ok hsome]

/-! ## `cancel_order` -/

/-- The order can be cancelled; its units are taken from the stock. -/
def Live (o : CatalogOrder) : Prop := o.status = .pending ∨ o.status = .confirmed

instance (o : CatalogOrder) : Decidable (Live o) := by
  unfold Live
  infer_instance

def CatalogOrderItem.key (i : CatalogOrderItem) : StockKey := keyOf i.productId i.variantId

/-- The items of the order. -/
def itemsOf (orderId : ℕ) (db : Db) : List CatalogOrderItem :=
  db.items.filter fun i => i.orderId = orderId

/-- The loop of a cancellation. -/
def releaseLines : List CatalogOrderItem → Failures → CatalogTx Unit
  | [], _ => pure ()
  | item :: items, fails => do
    releaseStock item.key item.quantity (fails.line 0)
    releaseLines items fails.tail

/-- The order's row is changed by `f`. -/
def rewriteOrder (orderId : ℕ) (f : CatalogOrder → CatalogOrder)
    (hf : ∀ o, Row.key (f o) = Row.key o)
    (db : Db) : Db :=
  { db with orders := db.orders.update (fun o => o.id = orderId) f hf }

def asCancelled (now : ℕ) (reason : String) (o : CatalogOrder) : CatalogOrder :=
  { o with status := .cancelled, cancelledAt := some now, adminNotes := some reason }

theorem key_asCancelled (now : ℕ) (reason : String) (o : CatalogOrder) :
    Row.key (asCancelled now reason o) = Row.key o := rfl

/-- `cancel_order` -/
def cancelOrder (now orderId : ℕ) (reason : String) (fails : Failures) : CatalogTx Bool :=
  handle
    (do
      let db ← look
      match db.orders.get? orderId with
      | none => return false
      | some order =>
        ensure (Live order) (.valueError "Order cannot be cancelled")
        releaseLines (itemsOf orderId db) fails
        update (rewriteOrder orderId (asCancelled now reason) (key_asCancelled now reason))
        commitUnless fails.last
        return true)
    fun _ => do
      rollback
      return false

/-! ## `confirm_order` -/

def asConfirmed (now : ℕ) (paymentId : String) (o : CatalogOrder) : CatalogOrder :=
  { o with status := .confirmed, paymentStatus := "PAID", paymentId := some paymentId
           confirmedAt := some now }

theorem key_asConfirmed (now : ℕ) (paymentId : String) (o : CatalogOrder) :
    Row.key (asConfirmed now paymentId o) = Row.key o := rfl

/-- A program on the wallet tables. -/
def onWallet {α : Type} (x : Tx Exc Financial.Model.Db α) : CatalogTx α :=
  focus Db.wallet (fun wallet db => { db with wallet }) x

/-- Five percent, as `_to_money` rounds it. -/
def cashbackAmount (order : CatalogOrder) : Amount :=
  let amount := order.totalAmount * 5
  .ofMoney (roundHalfEven amount.num amount.den)

def cashbackReason (orderNumber : String) : String := s!"Cashback for Order {orderNumber}"

/-- `apply_cashback` -/
def applyCashback (order : CatalogOrder) : CatalogTx Unit := do
  let _ ← onWallet (Wallet.Service.addBalance order.userId (cashbackAmount order)
    (cashbackReason order.orderNumber) none "cashback")
  return ()

/-- Which commits of a confirmation fail. -/
structure ConfirmFailures where
  status : Bool := false
  cashback : Bool := false
  tracking : Bool := false
  event : Bool := false

/-- The row of a tracking. -/
def newTracking (orderId : ℕ) (trackingNumber : String) (id : ℕ) : DeliveryTracking :=
  { id, orderId, trackingNumber, courierName := "BlueDart", currentStatus := "PENDING" }

/-- Its first event. -/
def newEvent (trackingId id : ℕ) : DeliveryEvent :=
  { id, trackingId, status := "PENDING", description := "Order confirmed, preparing for shipment" }

theorem key_newTracking (orderId : ℕ) (trackingNumber : String) (id : ℕ) :
    Row.key (newTracking orderId trackingNumber id) = id := rfl

theorem key_newEvent (trackingId id : ℕ) : Row.key (newEvent trackingId id) = id := rfl

def withTracking (orderId : ℕ) (trackingNumber : String) (db : Db) : Db :=
  { db with
    trackings := db.trackings.add (newTracking orderId trackingNumber)
      (key_newTracking orderId trackingNumber) }

def withEvent (trackingId : ℕ) (db : Db) : Db :=
  { db with events := db.events.add (newEvent trackingId) (key_newEvent trackingId) }

/-- `create_delivery_tracking`; an order has one tracking. -/
def createDeliveryTracking (orderId : ℕ) (trackingNumber : String) (fails : ConfirmFailures) :
    CatalogTx Unit :=
  handle
    (do
      let db ← look
      ensure (∀ t ∈ db.trackings, t.orderId ≠ orderId ∧ t.trackingNumber ≠ trackingNumber)
        .integrityError
      update (withTracking orderId trackingNumber)
      commitUnless fails.tracking
      update (withEvent db.trackings.freshKey)
      commitUnless fails.event)
    fun _ => rollback

/-- An exception of a statement that failed in the database; the session takes no other before a
rollback. -/
def OfDatabase (e : Exc) : Prop := e = .integrityError ∨ e = .dataError

instance (e : Exc) : Decidable (OfDatabase e) := inferInstanceAs (Decidable (_ ∨ _))

/-- The cashback, whose exceptions are only logged, and the tracking.  After a statement of the
wallet that failed in the database the session takes no other until the rollback of
`create_delivery_tracking`. -/
def afterConfirmation (order : CatalogOrder) (trackingNumber : String) (fails : ConfirmFailures) :
    CatalogTx Unit :=
  if fails.cashback then rollback
  else do
    let usable ← handle (applyCashback order >>= fun _ => pure true) fun e =>
      pure (¬ OfDatabase e)
    if usable then createDeliveryTracking order.id trackingNumber fails else rollback

/-- `confirm_order` -/
def confirmOrder (now orderId : ℕ) (paymentId trackingNumber : String) (fails : ConfirmFailures) :
    CatalogTx Bool :=
  handle
    (do
      let db ← look
      match db.orders.get? orderId with
      | none => return false
      | some order =>
        update (rewriteOrder orderId (asConfirmed now paymentId) (key_asConfirmed now paymentId))
        commitUnless fails.status
        afterConfirmation order trackingNumber fails
        return true)
    fun _ => do
      rollback
      return false

/-- A request. -/
inductive Action where
  | create (request : OrderRequest)
  | confirm (now orderId : ℕ) (paymentId trackingNumber : String) (fails : ConfirmFailures := {})
  | cancel (now orderId : ℕ) (reason : String) (fails : Failures := {})

/-- The tables after one request. -/
def step (db : Db) : Action → Db
  | .create request => ((createOrder request).call db).2
  | .confirm now orderId paymentId trackingNumber fails =>
    ((confirmOrder now orderId paymentId trackingNumber fails).call db).2
  | .cancel now orderId reason fails => ((cancelOrder now orderId reason fails).call db).2

end WezuBackend.Catalog.Orders
