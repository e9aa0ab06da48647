import WezuBackend.Orders.Records
import WezuBackend.Financial.Model

/-!
# Refunds of return orders

`process_refund` of `app/api/v1/orders.py`.  The money goes back through the payment gateway if a
payment is found for the order, and to the customer's wallet otherwise.  What the gateway has
accepted is not undone by a rollback: it is entered in `gateway` in the committed and in the working
state alike.

`refund_call` says how a call ends.  The transaction row of a wallet refund has no user, and its
column takes no null, so that branch always ends in an integrity error.
-/

namespace WezuBackend.Orders.Refund

open Lib.Tables Lib.Atomicity Lib.Atomicity.Tx
open Core.Base Fleet.Model
open Fleet.Transitions Orders.Normalise Orders.Service
open Orders.Effects Orders.Requests Orders.Records
open Financial.Model (Wallet Refund RefundStatus)

/-! ## Tables -/

/-- The columns of a transaction that the refund of an order reads. -/
structure Transaction where
  id : ℕ
  referenceType : Option String
  referenceId : Option String
  razorpayPaymentId : Option String := none
  createdAt : ℕ := 0
  deriving DecidableEq, Repr

instance : Row Transaction ℕ := ⟨Transaction.id⟩

/-- A refund that the gateway has accepted, and the answer of the request that asked for it. -/
structure GatewayRefund where
  razorpayPaymentId : String
  /-- in hundredths -/
  amount : ℤ
  response : Order
  deriving DecidableEq, Repr

structure RefundDb where
  fleet : Db
  wallets : Table Wallet := .empty
  transactions : Table Transaction := .empty
  refunds : Table Refund := .empty
  /-- what the gateway has accepted so far -/
  gateway : List GatewayRefund := []

abbrev RefundTx (α : Type) : Type := Tx Exc RefundDb α

/-- A program on the fleet tables. -/
def onFleet {α : Type} (x : FleetTx α) : RefundTx α :=
  focus RefundDb.fleet (fun fleet db => { db with fleet }) x

/-- `session.commit()` flushes first. -/
def commitRefund : RefundTx Unit := do
  onFleet flush
  commit

/-! ## What is refunded, and where to -/

def resolveCustomerUser (db : Db) (order : Order) : Option User :=
  (phoneCandidates order.customerPhone).findSome? fun phone =>
    db.users.find? fun u => u.phoneNumber = some phone

/-- The latest transaction that refers to the order, or to the one it returns. -/
def sourceTransaction (db : RefundDb) (order : Order) : Option Transaction :=
  ((db.transactions.rows.filter fun t =>
    (∃ type ∈ t.referenceType, type ∈ ["logistics_order", "order", "catalog_order"]) ∧
      ∃ k ∈ t.referenceId, k ∈ [order.id, order.originalOrderId.getD ""]).insertionSort fun a b =>
        b.createdAt ≤ a.createdAt).head?

def refundOf (db : RefundDb) (transactionId : ℕ) : Option Refund :=
  ((db.refunds.rows.filter fun r => r.transactionId = transactionId).insertionSort fun a b =>
    b.createdAt ≤ a.createdAt).head?

inductive Destination where
  | gateway (transactionId : ℕ) (razorpayPaymentId : String)
  | wallet (userId : ℕ)
  | unknown
  deriving DecidableEq, Repr

/-- What `process_refund` has found out before it pays. -/
structure RefundPlan where
  order : Order
  amount : ℤ
  destination : Destination
  refundRecord : Option Refund
  deriving DecidableEq, Repr

/-- The gateway if there is a payment, else the customer's wallet. -/
def destinationOf (source : Option Transaction) (customer : Option User) : Destination :=
  match source.bind fun t => (truthy t.razorpayPaymentId).map fun p => (t.id, p), customer with
  | some (transactionId, razorpayPaymentId), _ => .gateway transactionId razorpayPaymentId
  | none, some user => .wallet user.id
  | none, none => .unknown

/-- `process_refund` up to the payment. -/
def planRefund (db : RefundDb) (orderReference : String) : Except Exc RefundPlan := do
  let order ← match namedOrder db.fleet.orders orderReference with
    | some order => .ok order
    | none => .error (.http 404 "Order not found")
  if order.type ≠ "return" then throw (.http 400 "Order is not a return order")
  if canonicalOrderStatus order.status ≠ "delivered" then
    throw (.http 400 "Refund can only be processed after return delivery is completed")
  if order.refundStatus = "processed" then throw (.http 400 "Refund already processed")
  if order.refundStatus = "none" then throw (.http 400 "Return order is not marked for refund")
  if order.totalValue ≤ 0 then throw (.http 400 "Refund amount must be greater than zero")
  let originalOrder := (truthy order.originalOrderId).bind db.fleet.orders.get?
  let source := sourceTransaction db order
  return { order, amount := order.totalValue
           destination := destinationOf source
             (resolveCustomerUser db.fleet (originalOrder.getD order))
           refundRecord := source.bind fun t => refundOf db t.id }

variable {db : RefundDb} {plan : RefundPlan}

theorem planRefund_ok {orderReference : String} (h : planRefund db orderReference = .ok plan) :
    namedOrder db.fleet.orders orderReference = some plan.order ∧ plan.order.type = "return" ∧
      canonicalOrderStatus plan.order.status = "delivered" ∧
      plan.order.refundStatus ≠ "processed" ∧ plan.order.refundStatus ≠ "none" ∧
      plan.amount = plan.order.totalValue ∧ 0 < plan.amount := by
  unfold planRefund at h
  rcases hnamed : namedOrder db.fleet.orders orderReference with _ | order
  · rw [hnamed] at h
    cases h
  · rw [hnamed] at h
    simp only [bind, Except.bind, pure, Except.pure, throw, throwThe, MonadExceptOf.throw] at h
    split_ifs at h with htype hstatus hprocessed hnone hamount
    obtain rfl := Except.ok.inj h
    exact ⟨rfl, not_not.mp htype, not_not.mp hstatus, hprocessed, hnone, rfl, not_le.mp hamount⟩

/-! ## Writes -/

def withRefundStatus (now : ℕ) (refundStatus : String) (order : Order) : Order :=
  { order with refundStatus, updatedAt := now }

/-- The stored order after the flush of one that was read as `loaded`, with its new refund status.
-/
def writtenStatus (now : ℕ) (refundStatus : String) (loaded stored : Order) : Order :=
  { stored with
    refundStatus := writtenColumn loaded.refundStatus refundStatus stored.refundStatus
    updatedAt := writtenColumn loaded.updatedAt now stored.updatedAt }

def writeStatus (now : ℕ) (refundStatus : String) (loaded : Order) (orders : Table Order) :
    Table Order :=
  match orders.get? loaded.id with
  | none => orders
  | some stored => orders.set (writtenStatus now refundStatus loaded stored)

def storeStatus (now : ℕ) (refundStatus : String) (loaded : Order) (db : RefundDb) : RefundDb :=
  { db with fleet :=
    { db.fleet with orders := writeStatus now refundStatus loaded db.fleet.orders } }

/-- The stored refund row after the flush of one that was read as `loaded`. -/
def writtenRefund (loaded current stored : Refund) : Refund :=
  { stored with
    amount := writtenColumn loaded.amount current.amount stored.amount
    status := writtenColumn loaded.status current.status stored.status
    gatewayRefundId :=
      writtenColumn loaded.gatewayRefundId current.gatewayRefundId stored.gatewayRefundId }

def writeRefund (loaded current : Refund) (refunds : Table Refund) : Table Refund :=
  match refunds.get? loaded.id with
  | none => refunds
  | some stored => refunds.set (writtenRefund loaded current stored)

/-- A new refund row. -/
def addRefund (now transactionId : ℕ) (plan : RefundPlan) (gatewayRefundId : Option String)
    (db : RefundDb) : RefundDb :=
  { db with
    refunds := db.refunds.add fun id =>
      { id, transactionId, amount := plan.amount,
        reason := some s!"Return refund for order {plan.order.id}", status := .processed,
        gatewayRefundId, createdAt := now } }

def bookRefund (now transactionId : ℕ) (plan : RefundPlan) (gatewayRefundId : Option String)
    (db : RefundDb) : RefundDb :=
  match plan.refundRecord with
  | none => addRefund now transactionId plan gatewayRefundId db
  | some loaded =>
    let current := { loaded with amount := plan.amount, status := .processed, gatewayRefundId }
    { db with refunds := writeRefund loaded current db.refunds }

/-- The refund row of a payment that the gateway has not refunded. -/
def bookFailure (plan : RefundPlan) (db : RefundDb) : RefundDb :=
  match plan.refundRecord with
  | none => db
  | some loaded =>
    { db with refunds := writeRefund loaded { loaded with status := .failed } db.refunds }

/-! ## The endpoint -/

/-- What `PaymentService.refund_transaction` comes back with. -/
inductive GatewayAnswer where
  | accepted (gatewayRefundId : Option String)
  | refused (error : String)
  deriving DecidableEq, Repr

def enterGateway (refund : GatewayRefund) : RefundTx Unit := fun s =>
  (.ok (), ⟨{ s.committed with gateway := s.committed.gateway ++ [refund] },
    { s.working with gateway := s.working.gateway ++ [refund] }⟩)

/-- The end of a refund that could not be paid. -/
def failRefund (now : ℕ) (plan : RefundPlan) (e : Exc) : RefundTx Order := do
  update (storeStatus now "failed" plan.order)
  commitRefund
  raise e

/-- The end of a refund that is paid. -/
def finishRefund (now : ℕ) (scope : RequestScope) (key : Option String) (plan : RefundPlan) :
    RefundTx Order := do
  let response := withRefundStatus now "processed" plan.order
  update (storeStatus now "processed" plan.order)
  onFleet (recordIdempotentResponse now scope key response)
  commitRefund
  return response

/-- The customer's wallet; it is opened if there is none. -/
def openWallet (userId : ℕ) (wallets : Table Wallet) : Table Wallet :=
  match wallets.find? fun w => w.userId = userId with
  | some _ => wallets
  | none => wallets.add fun id => { id, userId, balance := 0 }

/-- The credit to the wallet, with its transaction.  The transaction is made without `user_id`, and
the flush rejects it. -/
def creditWallet (userId : ℕ) (plan : RefundPlan) : RefundTx ℕ := do
  update fun db => { db with wallets := openWallet userId db.wallets }
  let db ← look
  let wallet ← demand (db.wallets.find? fun w => w.userId = userId) .integrityError
  update fun db =>
    { db with wallets := db.wallets.set { wallet with balance := wallet.balance + plan.amount } }
  let transactionUserId : Option ℕ := none
  let _ ← demand transactionUserId .integrityError
  let db ← look
  return db.transactions.freshKey

/-- `process_refund` from the payment on. -/
def settleRefund (now : ℕ) (scope : RequestScope) (key : Option String) (answer : GatewayAnswer)
    (plan : RefundPlan) : RefundTx Order :=
  match plan.destination with
  | .gateway transactionId razorpayPaymentId =>
    match answer with
    | .accepted gatewayRefundId => do
      enterGateway ⟨razorpayPaymentId, plan.amount, withRefundStatus now "processed" plan.order⟩
      update (bookRefund now transactionId plan gatewayRefundId)
      finishRefund now scope key plan
    | .refused error => do
      update (bookFailure plan)
      failRefund now plan (.http 400 s!"Refund failed: {error}")
  | .wallet userId => do
    let transactionId ← creditWallet userId plan
    update (addRefund now transactionId plan none)
    finishRefund now scope key plan
  | .unknown => failRefund now plan <| .http 409
      "Unable to determine refund destination or payment source for this return order"

/-- `process_refund`; the answer of the gateway is given. -/
def processRefund (now : ℕ) (scope : RequestScope) (answer : GatewayAnswer)
    (orderReference : String) : RefundTx Order := do
  let key ← lift (normalizeIdempotencyKey scope.idempotencyKey)
  match ← onFleet (getIdempotentReplay now scope key) with
  | some data => return data
  | none => do
    let db ← look
    let plan ← lift (planRefund db orderReference)
    settleRefund now scope key answer plan

/-! ## How a call ends -/

variable {s : Session RefundDb}

theorem onFleet_eq {α : Type} {x : FleetTx α} {r : Except Exc α}
    {t : Session Db} (h : x ⟨s.committed.fleet, s.working.fleet⟩ = (r, t)) : onFleet x s =
      (r, ⟨{ s.committed with fleet := t.committed }, { s.working with fleet := t.working }⟩) :=
  focus_eq _ _ h

theorem onFleet_fresh {α : Type} {x : FleetTx α} {r : Except Exc α} {fleet : Db}
    (h : x (.fresh db.fleet) = (r, .fresh fleet)) :
    onFleet x (.fresh db) = (r, .fresh { db with fleet }) := onFleet_eq (s := .fresh db) h

theorem commitRefund_eq (hu : UniqueIndexes s.working.fleet) :
    commitRefund s = (.ok (), ⟨s.working, s.working⟩) := by
  have hflush : onFleet flush s = (.ok (), s) :=
    onFleet_eq (t := ⟨s.committed.fleet, s.working.fleet⟩) (flush_ok.mpr ⟨hu, rfl⟩)
  rw [commitRefund, bind_of_ok hflush]
  rfl

theorem uniqueIndexes_storeStatus {now : ℕ} {refundStatus : String} {loaded : Order}
    (h : UniqueIndexes db.fleet) :
    UniqueIndexes (storeStatus now refundStatus loaded db).fleet :=
  ⟨h.serials, h.shelfBatteries, h.orderBatteries⟩

/-- A refund that could not be paid leaves the order in status `failed`. -/
theorem failRefund_eq {now : ℕ} {e : Exc} (hu : UniqueIndexes s.working.fleet) :
    failRefund now plan e s = (.error e, ⟨storeStatus now "failed" plan.order s.working,
      storeStatus now "failed" plan.order s.working⟩) := by
  have hcommit :=
    commitRefund_eq (s := ⟨s.committed, storeStatus now "failed" plan.order s.working⟩)
    (uniqueIndexes_storeStatus hu)
  rw [failRefund, update_bind, bind_of_ok hcommit]
  rfl

theorem finishRefund_eq (now : ℕ) (plan : RefundPlan) {scope : RequestScope} {key : Option String}
    (hu : UniqueIndexes s.working.fleet) (hone : OneRecord s.working.fleet)
    (hnew : Unrecorded scope key s.working.fleet) :
    ∃ fleet, finishRefund now scope key plan s =
        (.ok (withRefundStatus now "processed" plan.order),
          ⟨{ s.working with fleet }, { s.working with fleet }⟩) ∧
      exceptRecords fleet =
        exceptRecords (storeStatus now "processed" plan.order s.working).fleet ∧
      UniqueIndexes fleet ∧ OneRecord fleet := by
  obtain ⟨t, hrecord, hcommitted, hrest, hone'⟩ := record_ok now
    (withRefundStatus now "processed" plan.order)
    (s := ⟨s.committed.fleet, (storeStatus now "processed" plan.order s.working).fleet⟩)
    (uniqueIndexes_storeStatus hu) hone hnew
  have hu' := uniqueIndexes_of_records hrest (uniqueIndexes_storeStatus hu)
  refine ⟨t.working, ?_, hrest, hu', hone'⟩
  have hrun : onFleet (recordIdempotentResponse now scope key
      (withRefundStatus now "processed" plan.order))
      ⟨s.committed, storeStatus now "processed" plan.order s.working⟩ =
        (.ok (), ⟨{ s.committed with fleet := t.committed },
          { s.working with fleet := t.working }⟩) :=
    onFleet_eq hrecord
  have hcommit := commitRefund_eq
    (s := ⟨{ s.committed with fleet := t.committed }, { s.working with fleet := t.working }⟩) hu'
  rw [finishRefund, update_bind, bind_of_ok hrun, bind_of_ok hcommit]
  rfl

theorem creditWallet_raises (userId : ℕ) (plan : RefundPlan) (s : Session RefundDb) :
    ∃ t, creditWallet userId plan s = (.error .integrityError, t) ∧ t.committed = s.committed := by
  rw [creditWallet, update_bind, look_bind]
  generalize (openWallet userId s.working.wallets).find? (fun w => w.userId = userId) = found
  rcases found with _ | wallet
  · exact ⟨_, demand_bind_none rfl _ _ _, rfl⟩
  · rw [demand_bind rfl, update_bind]
    exact ⟨_, demand_bind_none rfl _ _ _, rfl⟩

def exceptRefunds (db : RefundDb) : RefundDb := { db with refunds := .empty }

theorem of_exceptRefunds {db db' : RefundDb} (h : exceptRefunds db' = exceptRefunds db) :
    db'.fleet = db.fleet ∧ db'.wallets = db.wallets ∧ db'.gateway = db.gateway := by
  obtain ⟨hfleet, hwallets, -, -, hgateway⟩ := RefundDb.mk.inj h
  exact ⟨hfleet, hwallets, hgateway⟩

theorem exceptRefunds_bookRefund (now transactionId : ℕ) (plan : RefundPlan)
    (gatewayRefundId : Option String) (db : RefundDb) :
    exceptRefunds (bookRefund now transactionId plan gatewayRefundId db) = exceptRefunds db := by
  unfold bookRefund
  rcases plan.refundRecord with _ | loaded <;> rfl

theorem exceptRefunds_bookFailure (plan : RefundPlan) (db : RefundDb) :
    exceptRefunds (bookFailure plan db) = exceptRefunds db := by
  unfold bookFailure
  rcases plan.refundRecord with _ | loaded <;> rfl

/-- How a call for a refund ended: refused, answered from its key, with the order marked as failed,
or paid by the gateway. -/
inductive RefundOutcome (now : ℕ) (answer : GatewayAnswer) (orderReference : String)
    (replayed : Prop) (db : RefundDb) : Except Exc Order × RefundDb → Prop
  | refused {e fleet} (hsame : exceptRecords fleet = exceptRecords db.fleet)
      (hone : OneRecord fleet) : RefundOutcome now answer orderReference replayed db
        (.error e, { db with fleet })
  | answered {data} (hreplayed : replayed) :
      RefundOutcome now answer orderReference replayed db (.ok data, db)
  | failed {e fleet plan db'} (hnew : ¬ replayed)
      (hsame : exceptRecords fleet = exceptRecords db.fleet) (hone : OneRecord fleet)
      (hplan : planRefund { db with fleet } orderReference = .ok plan)
      (hrest : exceptRefunds db' =
        exceptRefunds (storeStatus now "failed" plan.order { db with fleet })) :
      RefundOutcome now answer orderReference replayed db (.error e, db')
  | paid {fleet plan transactionId razorpayPaymentId gatewayRefundId db'} (hnew : ¬ replayed)
      (haccepted : answer = .accepted gatewayRefundId)
      (hsame : exceptRecords fleet = exceptRecords db.fleet)
      (hplan : planRefund { db with fleet } orderReference = .ok plan)
      (hdestination : plan.destination = .gateway transactionId razorpayPaymentId)
      (hgateway : db'.gateway = db.gateway ++
        [⟨razorpayPaymentId, plan.amount, withRefundStatus now "processed" plan.order⟩])
      (hwallets : db'.wallets = db.wallets)
      (hrest : exceptRecords db'.fleet =
        exceptRecords (storeStatus now "processed" plan.order { db with fleet }).fleet)
      (hone : OneRecord db'.fleet) :
      RefundOutcome now answer orderReference replayed db
        (.ok (withRefundStatus now "processed" plan.order), db')

section

variable {now : ℕ} {scope : RequestScope} {key : Option String} {answer : GatewayAnswer}
  {orderReference : String}

theorem settleRefund_outcome {replayed : Prop} {fleet : Db}
    (hreplayed : ¬ replayed) (hsame : exceptRecords fleet = exceptRecords db.fleet)
    (hu : UniqueIndexes fleet) (hone : OneRecord fleet) (hnew : Unrecorded scope key fleet)
    (hplan : planRefund { db with fleet } orderReference = .ok plan) :
    ∃ result t, settleRefund now scope key answer plan ⟨{ db with fleet }, { db with fleet }⟩ =
        (result, t) ∧ RefundOutcome now answer orderReference replayed db
          (result, t.committed) := by
  unfold settleRefund
  rcases hdestination : plan.destination with ⟨transactionId, razorpayPaymentId⟩ | userId | _
  · rcases answer with gatewayRefundId | error
    · dsimp only
      set entry : GatewayRefund :=
        ⟨razorpayPaymentId, plan.amount, withRefundStatus now "processed" plan.order⟩ with hentry
      set entered : RefundDb := { db with fleet, gateway := db.gateway ++ [entry] } with hentered
      have henter : enterGateway entry ⟨{ db with fleet }, { db with fleet }⟩ =
          (.ok (), ⟨entered, entered⟩) := rfl
      set booked := bookRefund now transactionId plan gatewayRefundId entered with hbooked
      have hrest : exceptRefunds booked = exceptRefunds entered :=
        exceptRefunds_bookRefund _ _ _ _ _
      have hfleet : booked.fleet = fleet := congrArg RefundDb.fleet hrest
      obtain ⟨fleet', hfinish, hstored, hu', hone'⟩ :=
        finishRefund_eq now plan (s := ⟨entered, booked⟩)
        (by rw [hfleet]; exact hu) (by rw [hfleet]; exact hone) (by rw [hfleet]; exact hnew)
      have hpaid : RefundOutcome now (.accepted gatewayRefundId) orderReference replayed db
          (.ok (withRefundStatus now "processed" plan.order), { booked with fleet := fleet' }) := by
        refine .paid hreplayed rfl hsame hplan hdestination ?_ ?_ ?_ hone'
        · exact congrArg RefundDb.gateway hrest
        · show (exceptRefunds booked).wallets = (exceptRefunds entered).wallets
          rw [hrest]
        · dsimp only
          rw [hstored]
          unfold storeStatus
          rw [hfleet]
      refine ⟨_, ⟨{ booked with fleet := fleet' }, { booked with fleet := fleet' }⟩, ?_, hpaid⟩
      rw [bind_of_ok henter, update_bind]
      exact hfinish
    · dsimp only
      set unpaid := bookFailure plan { db with fleet } with hunpaid
      have hrest : exceptRefunds unpaid = exceptRefunds { db with fleet } :=
        exceptRefunds_bookFailure _ _
      have hfleet : unpaid.fleet = fleet := congrArg RefundDb.fleet hrest
      have hu' : UniqueIndexes unpaid.fleet := by
        rw [hfleet]
        exact hu
      refine ⟨_, _, failRefund_eq (s := ⟨{ db with fleet }, unpaid⟩) hu',
        .failed hreplayed hsame hone hplan ?_⟩
      exact congrArg (storeStatus now "failed" plan.order) hrest
  · obtain ⟨t, hraises, hcommitted⟩ :=
      creditWallet_raises userId plan ⟨{ db with fleet }, { db with fleet }⟩
    refine ⟨_, t, bind_of_error hraises, ?_⟩
    rw [hcommitted]
    exact .refused hsame hone
  · refine ⟨_, _, failRefund_eq hu, .failed hreplayed hsame hone hplan rfl⟩

/-- A call is refused at once, answered from its key, or goes on to the plan. -/
theorem refund_start (now : ℕ) (scope : RequestScope) (answer : GatewayAnswer)
    (orderReference : String) (hone : OneRecord db.fleet) :
    (∃ e, (processRefund now scope answer orderReference) (.fresh db) = (.error e, .fresh db)) ∨
    (Replayed now scope db.fleet ∧ ∃ data,
      (processRefund now scope answer orderReference) (.fresh db) = (.ok data, .fresh db)) ∨
    (¬ Replayed now scope db.fleet ∧ ∃ key fleet,
      exceptRecords fleet = exceptRecords db.fleet ∧ OneRecord fleet ∧
      Unrecorded scope key fleet ∧
      (processRefund now scope answer orderReference) (.fresh db) =
        (lift (planRefund { db with fleet } orderReference) >>=
          settleRefund now scope key answer) (.fresh { db with fleet })) := by
  rcases hkey : normalizeIdempotencyKey scope.idempotencyKey with e | key
  · exact .inl ⟨e, lift_bind_error hkey _ _⟩
  have hreplayed : Replayed now scope db.fleet ↔ Stored now scope db.fleet key := by
    constructor
    · rintro ⟨key', hkey', h⟩
      rw [hkey] at hkey'
      cases hkey'
      exact h
    · exact fun h => ⟨key, hkey, h⟩
  have hstart : (processRefund now scope answer orderReference) (.fresh db) =
      (onFleet (getIdempotentReplay now scope key) >>= fun found =>
        match found with
        | some data => pure data
        | none => do
          let db ← look
          let plan ← lift (planRefund db orderReference)
          settleRefund now scope key answer plan) (.fresh db) := lift_bind hkey _ _
  rw [hstart, hreplayed]
  rcases getIdempotentReplay_cases now scope key db.fleet with ⟨e, h⟩ | ⟨hstored, data, h⟩ |
    ⟨hstored, fleet, hsame, -, h⟩
  · exact .inl ⟨e, bind_of_error (onFleet_fresh h)⟩
  · exact .inr (.inl ⟨hstored, data, bind_of_ok (onFleet_fresh h)⟩)
  · obtain ⟨fleet', hfresh, -, hone', hnew⟩ := replay_none hone h
    obtain rfl : fleet = fleet' := congrArg Session.working hfresh
    refine .inr (.inr ⟨hstored, key, fleet, hsame, hone', hnew, ?_⟩)
    rw [bind_of_ok (onFleet_fresh h)]
    dsimp only
    rw [look_bind, Session.working_fresh]

theorem refund_call (now : ℕ) (scope : RequestScope) (answer : GatewayAnswer)
    (orderReference : String) (hu : UniqueIndexes db.fleet) (hone : OneRecord db.fleet) :
    RefundOutcome now answer orderReference (Replayed now scope db.fleet) db
      ((processRefund now scope answer orderReference).call db) := by
  rcases refund_start now scope answer orderReference hone with ⟨e, hcall⟩ |
    ⟨hreplayed, data, hcall⟩ | ⟨hnot, key, fleet, hsame, hone', hnew, hcall⟩
  · rw [call_eq hcall]
    exact .refused rfl hone
  · rw [call_eq hcall]
    exact .answered hreplayed
  · rcases hplan : planRefund { db with fleet } orderReference with e | plan
    · rw [hplan] at hcall
      rw [call_eq (hcall.trans (lift_bind_error rfl _ _))]
      exact .refused hsame hone'
    · rw [hplan] at hcall
      obtain ⟨result, t, hsettle, houtcome⟩ :=
        @settleRefund_outcome _ _ now scope key answer _ _ _ hnot hsame
        (uniqueIndexes_of_records hsame hu) hone' hnew hplan
      rw [call_eq (hcall.trans ((lift_bind rfl _ _).trans hsettle))]
      exact houtcome

end

end WezuBackend.Orders.Refund
