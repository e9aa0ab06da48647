import WezuBackend.Core.Text
import WezuBackend.Wallet.Service

/-!
# Razorpay webhooks

`RazorpayWebhookService` of `app/services/razorpay_webhook_service.py` and the consumer of the
webhook stream, `_process_webhook_event` of `app/workers/event_stream_worker.py`.  An event that is
delivered at least once is marked in Redis before it is processed; the marker is cleared only when
the processing raises.
-/

namespace WezuBackend.Wallet.Webhook

open Lib.Atomicity.Tx Core.Base Core.Amounts Core.Text Financial.Model
open Wallet.Service

/-- `notes.user_id` of a payment. -/
inductive NotesUserId where
  | absent
  /-- `int(...)` raises `TypeError` or `ValueError` -/
  | invalid
  | value (userId : ℕ)
  deriving DecidableEq, Repr

structure PaymentEntity where
  id : Option String
  orderId : Option String
  amount : Amount := .finite 0 0
  notesUserId : NotesUserId := .absent
  deriving DecidableEq, Repr

structure RefundEntity where
  id : Option String
  paymentId : Option String
  deriving DecidableEq, Repr

/-- The body of a webhook.  An entity is `none` where the lookups that lead to its fields raise. -/
structure WebhookPayload where
  event : Option String
  payment : Option PaymentEntity := some { id := none, orderId := none }
  refund : Option RefundEntity := some { id := none, paymentId := none }
  deriving DecidableEq, Repr

inductive Handled where
  | ok
  | ignored (reason : String)
  deriving DecidableEq, Repr

/-- The amount of a payment in rupees, as the handler reads it: `except Exception` turns a failure
into `none`; a NaN is compared with 0 outside of the `try` and raises. -/
def captureAmount (paise : Amount) : Except Exc (Option ℤ) :=
  match Amount.divHundred paise with
  | .nan => .error .invalidOperation
  | amount =>
    match toMoney amount with
    | .ok value => .ok (some value)
    | .error _ => .ok none

/-- `int(notes_user_id)`. -/
def NotesUserId.noted : NotesUserId → Option ℕ
  | .value userId => some userId
  | _ => none

/-- `except HTTPException`. -/
def ignoreHttp (x : WalletTx Handled) : WalletTx Handled :=
  handle x fun
    | .http _ detail => pure (.ignored detail)
    | e => raise e

def handlePaymentCaptured (cfg : Settings) (now : ℕ) (payment : Option PaymentEntity) :
    WalletTx Handled := do
  let entity ← demand payment .attributeError
  match truthy entity.id, truthy entity.orderId with
  | some paymentId, some orderId =>
    match ← lift (captureAmount entity.amount) with
    | none => return .ignored "invalid amount"
    | some amount =>
      if amount ≤ 0 then return .ignored "non_positive amount"
      ignoreHttp do
        let _ ← applyRechargeCapture cfg now orderId paymentId (.ofMoney amount)
          entity.notesUserId.noted
        return .ok
  | _, _ => return .ignored "missing payment_id/order_id"

def handlePaymentFailed (payment : Option PaymentEntity) : WalletTx Handled := do
  let entity ← demand payment .attributeError
  match truthy entity.orderId with
  | none => return .ignored "missing order_id"
  | some orderId =>
    let _ ← markRechargeIntentFailed orderId entity.id
    return .ok

/-- `order_by(Refund.created_at.desc()).first()`. -/
def latest (refunds : List Refund) : Option Refund :=
  refunds.foldl
    (fun best r => match best with
      | none => some r
      | some b => if b.createdAt < r.createdAt then some r else some b) none

/-- `_resolve_refund`: by the id of the gateway, or else the latest refund of the payment. -/
def resolveRefund (gatewayRefundId paymentId : Option String) : WalletTx (Option Refund) := do
  let db ← look
  match (truthy gatewayRefundId).bind fun gateway =>
      db.refunds.find? fun r => r.gatewayRefundId = some gateway with
  | some refund => return some refund
  | none =>
    match truthy paymentId with
    | none => return none
    | some payment =>
      let txn ← firstTransaction fun t => t.razorpayPaymentId = some payment
      return txn.bind fun txn => latest (db.refunds.filter fun r => r.transactionId = txn.id)

inductive RefundEvent where
  | created
  | processed
  | failed
  deriving DecidableEq, Repr

/-- The status a refund event sets, whatever the present one is. -/
def RefundEvent.status : RefundEvent → RefundStatus
  | .processed => .processed
  | .failed => .failed
  | .created => .pending

def handleRefundEvent (eventType : RefundEvent) (refund : Option RefundEntity) :
    WalletTx Handled := do
  let entity ← demand refund .attributeError
  match ← resolveRefund entity.id entity.paymentId with
  | none => return .ignored "refund record not found"
  | some refund =>
    saveRefund
      { refund with
        status := eventType.status
        gatewayRefundId := (truthy entity.id).or refund.gatewayRefundId }
    commit
    return .ok

def processEvent (cfg : Settings) (now : ℕ) (payload : WebhookPayload) : WalletTx Handled := do
  let eventType := lower (strip (payload.event.getD ""))
  ensure (eventType ≠ "") (.http 400 "Missing event type")
  if eventType = "payment.captured" then handlePaymentCaptured cfg now payload.payment
  else if eventType = "payment.failed" then handlePaymentFailed payload.payment
  else if eventType = "refund.created" then handleRefundEvent .created payload.refund
  else if eventType = "refund.processed" then handleRefundEvent .processed payload.refund
  else if eventType = "refund.failed" then handleRefundEvent .failed payload.refund
  else return .ignored s!"unsupported_event:{eventType}"

/-! ## The stream worker -/

/-- An event of the webhook stream; `payload` is `none` if its envelope holds no mapping. -/
structure StreamEvent where
  eventId : Option String
  payload : Option WebhookPayload
  deriving DecidableEq, Repr

/-- The store and the processing markers in Redis. -/
structure World where
  db : Db
  markers : List String

/-- The id an event is marked by: its own, or else a digest of its payload. -/
def markerId (digest : WebhookPayload → String) (event : StreamEvent) (payload : WebhookPayload) :
    String :=
  let id := strip (event.eventId.getD "")
  if id = "" then digest payload else id

/-- `_process_webhook_event`, with Redis there and within the lifetime of the marker. -/
def processWebhookEvent (cfg : Settings) (digest : WebhookPayload → String) (now : ℕ)
    (event : StreamEvent) (world : World) : Except Exc Unit × World :=
  match event.payload with
  | none => (.error (.valueError "Invalid webhook payload envelope"), world)
  | some payload =>
    let id := markerId digest event payload
    if id ∈ world.markers then (.ok (), world)
    else
      match (processEvent cfg now payload).call world.db with
      | (.ok _, db) => (.ok (), { db, markers := id :: world.markers })
      | (.error e, db) => (.error e, { db, markers := world.markers })

end WezuBackend.Wallet.Webhook
