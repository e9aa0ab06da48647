import WezuBackend.Financial.Model

/-!
# `WalletService`

The operations of `app/services/wallet_service.py`, one definition for each, in the order of the
source.  Every operation runs in a session; `commit` stands where the source commits.  A withdrawal
that is committed is announced and logged in further commits, which write no row the operations
read; these are left out.

The status of a transaction is an `Enum` column, and the service writes texts that are no members:
PostgreSQL refuses them, and SQLite stores rows that cannot be loaded again.
-/

namespace WezuBackend.Wallet.Service

open Lib.Atomicity Lib.Atomicity.Tx Core.Base Core.Amounts Core.Floats Financial.Model

/-- A program on the wallet tables. -/
abbrev WalletTx := Tx Exc Db

/-! ## Rows -/

def addWallet (mk : ℕ → Wallet) (hmk : ∀ k, (mk k).id = k := by intro _; rfl) :
    WalletTx Wallet := do
  let db ← look
  update fun db => { db with wallets := db.wallets.add mk hmk }
  return mk db.wallets.freshKey

def saveWallet (wallet : Wallet) : WalletTx Unit :=
  update fun db => { db with
    wallets := db.wallets.set { wallet with balance := column wallet.balance } }

/-- The row as its `float` columns keep it. -/
def inColumns (txn : Transaction) : Transaction :=
  { txn with amount := column txn.amount, balanceAfter := txn.balanceAfter.map column }

def addTransaction (mk : ℕ → Transaction) (hmk : ∀ k, (mk k).id = k := by intro _; rfl) :
    WalletTx Transaction := do
  let db ← look
  update fun db => { db with transactions := db.transactions.add (fun id => inColumns (mk id)) hmk }
  return inColumns (mk db.transactions.freshKey)

/-- The columns that were set are written; a caller that sets amounts takes them `inColumns`. -/
def saveTransaction (txn : Transaction) : WalletTx Unit :=
  update fun db => { db with transactions := db.transactions.set txn }

/-- `select(Transaction).where(...).first()`: all rows that match are fetched, and one whose status
is no member of the `Enum` raises. -/
def firstTransaction (p : Transaction → Bool) : WalletTx (Option Transaction) := do
  let db ← look
  ensure (∀ txn ∈ db.transactions, p txn → txn.status.Readable) .lookupError
  return db.transactions.find? p

/-- `db.get(Transaction, transaction_id)` -/
def getTransaction (transactionId : ℕ) : WalletTx (Option Transaction) := do
  let db ← look
  ensure (∀ txn ∈ db.transactions.get? transactionId, txn.status.Readable) .lookupError
  return db.transactions.get? transactionId

def addWithdrawalRequest (mk : ℕ → WalletWithdrawalRequest)
    (hmk : ∀ k, (mk k).id = k := by intro _; rfl) : WalletTx WalletWithdrawalRequest := do
  let db ← look
  update fun db => { db with
    withdrawalRequests := db.withdrawalRequests.add
      (fun id => { mk id with amount := column (mk id).amount }) hmk }
  let req := mk db.withdrawalRequests.freshKey
  return { req with amount := column req.amount }

def saveWithdrawalRequest (req : WalletWithdrawalRequest) : WalletTx Unit :=
  update fun db => { db with withdrawalRequests := db.withdrawalRequests.set req }

def addRefund (mk : ℕ → Refund) (hmk : ∀ k, (mk k).id = k := by intro _; rfl) :
    WalletTx Refund := do
  let db ← look
  update fun db => { db with
    refunds := db.refunds.add (fun id => { mk id with amount := column (mk id).amount }) hmk }
  let refund := mk db.refunds.freshKey
  return { refund with amount := column refund.amount }

def saveRefund (refund : Refund) : WalletTx Unit :=
  update fun db => { db with refunds := db.refunds.set refund }

def addNotification (mk : ℕ → Notification) (hmk : ∀ k, (mk k).id = k := by intro _; rfl) :
    WalletTx Notification := do
  let db ← look
  update fun db => { db with notifications := db.notifications.add mk hmk }
  return mk db.notifications.freshKey

def addOutboxRow (mk : ℕ → NotificationOutbox) (hmk : ∀ k, (mk k).id = k := by intro _; rfl) :
    WalletTx NotificationOutbox := do
  let db ← look
  update fun db => { db with notificationOutbox := db.notificationOutbox.add mk hmk }
  return mk db.notificationOutbox.freshKey

/-- The commit of a session that has written to the ledger: the column of PostgreSQL has an
enumeration of its own as its type, which refuses a text that is no member. -/
def commitLedger : WalletTx Unit := do
  let db ← look
  ensure (db.engine = .sqlite ∨ ∀ txn ∈ db.transactions, txn.status.Readable) .dataError
  commit

/-- `db.refresh(txn)` of the transaction that an operation returns, after its commit.  One that was
there already has been loaded, so to load it again raises nothing. -/
def refreshed {α : Type} (row : α → Option Transaction) (operation : WalletTx α) : WalletTx α := do
  let result ← operation
  ensure (∀ txn ∈ row result, txn.status.Readable) .lookupError
  return result

/-- `_to_money` inside an operation. -/
def money (value : Amount) : WalletTx ℤ := lift (toMoney value)

/-- `_to_money` of a stored amount. -/
def stored (value : ℤ) : WalletTx ℤ := money (.ofMoney value)

/-! ## Wallets and balances -/

/-- `get_wallet`: the user's wallet, created empty at the first use.  The foreign key of a new
wallet refuses a user that does not exist. -/
def getWallet (userId : ℕ) (autoCommitIfCreated : Bool := false) : WalletTx Wallet := do
  let db ← look
  match db.wallets.find? fun w => w.userId = userId with
  | some wallet => return wallet
  | none =>
    let _ ← demand (db.users.get? userId) .integrityError
    let wallet ← addWallet fun id => { id, userId, balance := 0 }
    if autoCommitIfCreated then commit
    return wallet

def addBalance (userId : ℕ) (amount : Amount) (description : String := "Deposit")
    (gatewayPaymentId : Option String := none) (category : String := "deposit")
    (referenceType referenceId : Option String := none) : WalletTx Wallet := do
  let amountValue ← money amount
  ensure (0 < amountValue) (.http 400 "Amount must be greater than zero")
  let wallet ← getWallet userId
  let wallet := { wallet with balance := (← stored wallet.balance) + amountValue }
  saveWallet wallet
  let balanceAfter ← stored wallet.balance
  let _ ← addTransaction fun id =>
    { id, userId := wallet.userId, walletId := some wallet.id, amount := amountValue,
      balanceAfter := some balanceAfter, type := some .credit, category := some category,
      status := .success, description := some description, razorpayPaymentId := gatewayPaymentId,
      referenceType, referenceId }
  commitLedger
  return { wallet with balance := column wallet.balance }

def deductBalance (userId : ℕ) (amount : Amount) (description : String := "Payment") :
    WalletTx Wallet := do
  let amountValue ← money amount
  ensure (0 < amountValue) (.http 400 "Amount must be greater than zero")
  let wallet ← getWallet userId
  let currentBalance ← stored wallet.balance
  ensure (amountValue ≤ currentBalance) (.http 400 "Insufficient balance")
  let wallet := { wallet with balance := currentBalance - amountValue }
  saveWallet wallet
  let balanceAfter ← stored wallet.balance
  let _ ← addTransaction fun id =>
    { id, userId := wallet.userId, walletId := some wallet.id, amount := -amountValue,
      balanceAfter := some balanceAfter, type := some .debit, category := some "withdrawal",
      status := .success, description := some description }
  commitLedger
  return { wallet with balance := column wallet.balance }

/-! ## Recharges -/

/-- The row is the recharge intent of a gateway order. -/
def isRechargeOf (orderId : String) (txn : Transaction) : Bool :=
  txn.referenceType = some "wallet_recharge" ∧ txn.referenceId = some orderId

def createRechargeIntent (userId : ℕ) (amount : Amount) (orderId : String)
    (description : String := "Wallet recharge intent") : WalletTx Transaction := refreshed some do
  ensure (orderId ≠ "") (.http 400 "order_id is required")
  let amountValue ← money amount
  ensure (0 < amountValue) (.http 400 "Amount must be greater than zero")
  let wallet ← getWallet userId
  match ← firstTransaction fun t => t.walletId = some wallet.id ∧ isRechargeOf orderId t with
  | some existing => return existing
  | none =>
    let balanceAfter ← stored wallet.balance
    let intent ← addTransaction fun id =>
      { id, userId := wallet.userId, walletId := some wallet.id, amount := amountValue,
        balanceAfter := some balanceAfter, type := some .credit, category := some "deposit",
        status := .pending, description := some description,
        referenceType := some "wallet_recharge", referenceId := some orderId }
    commitLedger
    return intent

def enqueue (cfg : Settings) (now : ℕ) (notification : Notification)
    (scheduledAt : Option ℕ) (idempotencyKey : Option String) :
    WalletTx NotificationOutbox := do
  let key := truthy idempotencyKey
  let db ← look
  match db.notificationOutbox.find? fun o =>
      key.isSome ∧ o.notificationId = notification.id ∧ o.idempotencyKey = key with
  | some existing => return existing
  | none =>
    addOutboxRow fun id =>
      { id, notificationId := notification.id, userId := notification.userId,
        channel := notification.channel, status := "pending", attemptCount := 0,
        maxAttempts := max 1 cfg.notificationOutboxMaxAttempts,
        idempotencyKey := some (key.getD s!"notification:{notification.id}"),
        nextAttemptAt := some ((scheduledAt.or notification.scheduledAt).getD now) }

/-- One channel of `_stage_recharge_success_notifications`. -/
def stageRechargeSuccessNotification (cfg : Settings) (now : ℕ) (userId : ℕ) (amount : ℤ)
    (paymentId channel : String) : WalletTx Unit := do
  let notif ← addNotification fun id =>
    { id, userId, title := "Wallet Recharge Successful",
      message := s!"We have credited INR {moneyText amount} to your wallet. " ++
        s!"Payment reference: {paymentId}.",
      type := "wallet_recharge_success", channel, status := "queued", scheduledAt := some now }
  let _ ← enqueue cfg now notif (some now) s!"wallet_recharge_captured:{paymentId}:{channel}"

def rechargeChannels : List String := ["push", "email", "sms"]

def stageRechargeSuccessNotifications (cfg : Settings) (now : ℕ) (userId : ℕ) (amount : ℤ)
    (paymentId : String) : WalletTx Unit :=
  rechargeChannels.forM (stageRechargeSuccessNotification cfg now userId amount paymentId)

def applyRechargeCapture (cfg : Settings) (now : ℕ) (orderId paymentId : String)
    (amount : Amount) (notedUserId : Option ℕ := none) : WalletTx Transaction := refreshed some do
  let amountValue ← money amount
  ensure (0 < amountValue) (.http 400 "Recharge amount must be greater than zero")
  let intent ← demand (← firstTransaction (isRechargeOf orderId))
    (.http 404 "Recharge intent not found")
  let db ← look
  let wallet ← demand (intent.walletId.bind db.wallets.get?) (.http 404 "Wallet not found")
  ensure (∀ noted ∈ notedUserId, wallet.userId = noted)
    (.http 400 "Webhook user mismatch for recharge intent")
  -- a delivery of a capture that was already applied
  if intent.status = .success then return intent
  let wallet := { wallet with balance := (← stored wallet.balance) + amountValue }
  saveWallet wallet
  let balanceAfter ← stored wallet.balance
  let intent :=
    { intent with
      status := .success, amount := amountValue, balanceAfter := some balanceAfter,
      razorpayPaymentId := some paymentId,
      description := some s!"Wallet recharge captured ({paymentId})" }
  saveTransaction (inColumns intent)
  stageRechargeSuccessNotifications cfg now wallet.userId amountValue paymentId
  commitLedger
  return intent

/-- `mark_recharge_intent_failed`: the notification of the failure comes after the refresh of a row
whose status is "failed", so it is not reached. -/
def markRechargeIntentFailed (orderId : String) (paymentId : Option String := none) :
    WalletTx (Option Transaction) := refreshed id do
  match ← firstTransaction (isRechargeOf orderId) with
  | none => return none
  | some intent =>
    if intent.status = .success then return some intent
    let intent :=
      { intent with
        status := .failed,
        razorpayPaymentId := (truthy paymentId).or intent.razorpayPaymentId }
    saveTransaction intent
    commitLedger
    return some intent

/-! ## Withdrawals -/

/-- The row carries the reference of a withdrawal request. -/
def isWithdrawalOf (requestId : ℕ) (txn : Transaction) : Bool :=
  txn.referenceType = some "withdrawal_request" ∧ txn.referenceId = some (toString requestId)

def requestWithdrawal (userId : ℕ) (amount : Amount) (bankDetails : String) :
    WalletTx WalletWithdrawalRequest := do
  let amountValue ← money amount
  ensure (0 < amountValue) (.http 400 "Amount must be greater than zero")
  let wallet ← getWallet userId
  let currentBalance ← stored wallet.balance
  ensure (amountValue ≤ currentBalance) (.http 400 "Insufficient balance")
  let req ← addWithdrawalRequest fun id =>
    { id, walletId := wallet.id, amount := amountValue, bankDetails, status := .requested }
  let wallet := { wallet with balance := currentBalance - amountValue }
  saveWallet wallet
  let balanceAfter ← stored wallet.balance
  let _ ← addTransaction fun id =>
    { id, userId := wallet.userId, walletId := some wallet.id, amount := -amountValue,
      balanceAfter := some balanceAfter, type := some .debit,
      category := some "withdrawal_request", status := .pending,
      description := some s!"Withdrawal request #{req.id}",
      referenceType := some "withdrawal_request", referenceId := some (toString req.id) }
  commitLedger
  return req

def approveWithdrawalRequest (requestId : ℕ) (payoutReference : Option String := none) :
    WalletTx WalletWithdrawalRequest := do
  let db ← look
  let req ← demand (db.withdrawalRequests.get? requestId) (.http 404 "Request not found")
  ensure (req.status = .requested) (.http 400 "Request already processed")
  let txn ← firstTransaction (isWithdrawalOf req.id)
  let req := { req with status := .processed }
  saveWithdrawalRequest req
  match txn with
  | none => pure ()
  | some txn =>
    saveTransaction
      { txn with
        status := .success,
        description := ((truthy payoutReference).map
          fun ref => s!"Withdrawal payout processed ({ref})").or txn.description }
  commitLedger
  return req

def rejectWithdrawalRequest (requestId : ℕ) (reason : Option String := none) :
    WalletTx WalletWithdrawalRequest := do
  let db ← look
  let req ← demand (db.withdrawalRequests.get? requestId) (.http 404 "Request not found")
  ensure (req.status = .requested) (.http 400 "Request already processed")
  let wallet ← demand (db.wallets.get? req.walletId) (.http 404 "Wallet not found")
  let pendingTxn ← firstTransaction (isWithdrawalOf req.id)
  ensure (∀ txn ∈ pendingTxn, txn.status ≠ .success)
    (.http 400 "Cannot reject an already processed withdrawal")
  let amount ← stored req.amount
  let wallet := { wallet with balance := (← stored wallet.balance) + amount }
  saveWallet wallet
  let balanceAfter ← stored wallet.balance
  let _ ← addTransaction fun id =>
    { id, userId := wallet.userId, walletId := some wallet.id, amount,
      balanceAfter := some balanceAfter, type := some .credit,
      category := some "withdrawal_reversal", status := .success,
      description := some (s!"Withdrawal request #{req.id} rejected" ++
        ((truthy reason).map fun r => s!": {r}").getD ""),
      referenceType := some "withdrawal_request", referenceId := some (toString req.id) }
  match pendingTxn with
  | none => pure ()
  | some txn =>
    saveTransaction
      { txn with
        status := .failed,
        description := ((truthy reason).map
          fun r => s!"Withdrawal request #{req.id} rejected: {r}").or txn.description }
  let req := { req with status := .rejected }
  saveWithdrawalRequest req
  commitLedger
  return req

/-! ## Transfers -/

/-- `transfer_balance` up to its commit. -/
def moveBalance (senderId : ℕ) (recipientPhone : String) (amount : Amount)
    (note : Option String) : WalletTx Transaction := do
  let amountValue ← money amount
  ensure (0 < amountValue) (.http 400 "Transfer amount must be greater than zero")
  let db ← look
  let recipient ← demand (db.users.find? fun u => u.phoneNumber = recipientPhone)
    (.http 404 "Recipient not found")
  ensure (recipient.id ≠ senderId) (.http 400 "Cannot transfer to yourself")
  -- the wallet of the lower user id is locked first
  let walletA ← getWallet (min senderId recipient.id)
  let walletB ← getWallet (max senderId recipient.id)
  let senderWallet := if walletA.userId = senderId then walletA else walletB
  let recipientWallet := if walletB.userId = recipient.id then walletB else walletA
  let senderBalance ← stored senderWallet.balance
  ensure (amountValue ≤ senderBalance) (.http 400 "Insufficient balance")
  let senderWallet := { senderWallet with balance := senderBalance - amountValue }
  saveWallet senderWallet
  let senderAfter ← stored senderWallet.balance
  let debitTxn ← addTransaction fun id =>
    { id, userId := senderWallet.userId, walletId := some senderWallet.id,
      amount := -amountValue, balanceAfter := some senderAfter, type := some .debit,
      category := some "transfer", status := .success,
      description := some ((truthy note).getD s!"Transfer to {recipientPhone}"),
      referenceType := some "transfer", referenceId := some (toString recipient.id) }
  let recipientWallet :=
    { recipientWallet with balance := (← stored recipientWallet.balance) + amountValue }
  saveWallet recipientWallet
  let recipientAfter ← stored recipientWallet.balance
  let _ ← addTransaction fun id =>
    { id, userId := recipientWallet.userId, walletId := some recipientWallet.id,
      amount := amountValue, balanceAfter := some recipientAfter, type := some .credit,
      category := some "transfer", status := .success,
      description := some ((truthy note).getD s!"Transfer from user #{senderId}"),
      referenceType := some "transfer", referenceId := some (toString senderId) }
  commitLedger
  return debitTxn

def transferBalance (senderId : ℕ) (recipientPhone : String) (amount : Amount)
    (note : Option String := none) : WalletTx Transaction :=
  refreshed some (moveBalance senderId recipientPhone amount note)

/-! ## Refunds -/

/-- The row is a refund of the transaction that is pending or processed. -/
def isOpenRefundOf (transactionId : ℕ) (refund : Refund) : Bool :=
  refund.transactionId = transactionId ∧ (refund.status = .pending ∨ refund.status = .processed)

def initiateRefund (now : ℕ) (transactionId : ℕ) (amount : Option Amount := none)
    (reason : String := "Customer Request") : WalletTx (Option Refund) := do
  match ← getTransaction transactionId with
  | none => return none
  | some origTxn =>
    if origTxn.type ≠ some .credit then return none
    let db ← look
    match db.refunds.find? (isOpenRefundOf transactionId) with
    | some existing => return some existing
    | none =>
      let refundAmount ← money (amount.getD (.ofMoney origTxn.amount))
      ensure (0 < refundAmount) (.http 400 "Refund amount must be greater than zero")
      ensure (refundAmount ≤ (← stored origTxn.amount))
        (.http 400 "Refund amount exceeds original transaction")
      let refund ← addRefund fun id =>
        { id, transactionId, amount := refundAmount, reason := some reason, status := .pending,
          createdAt := now }
      commit
      return some refund

/-- `process_refund`: a refund without its transaction or wallet is marked failed, which is
committed before the exception. -/
def processRefund (refundId : ℕ) : WalletTx Refund := do
  let db ← look
  let refund ← demand (db.refunds.get? refundId) (.http 404 "Refund not found")
  if refund.status = .processed then return refund
  ensure (refund.status = .pending) (.http 400 "Cannot process refund with status 'failed'")
  match ← getTransaction refund.transactionId with
  | none =>
    saveRefund { refund with status := .failed }
    commit
    raise (.http 404 "Original transaction not found")
  | some origTxn =>
    match origTxn.walletId.bind db.wallets.get? with
    | none =>
      saveRefund { refund with status := .failed }
      commit
      raise (.http 404 "Wallet not found")
    | some wallet =>
      let amount ← stored refund.amount
      let wallet := { wallet with balance := (← stored wallet.balance) + amount }
      saveWallet wallet
      let balanceAfter ← stored wallet.balance
      let _ ← addTransaction fun id =>
        { id, userId := wallet.userId, walletId := some wallet.id, amount,
          balanceAfter := some balanceAfter, type := some .credit, category := some "refund",
          status := .success,
          description := some (s!"Refund for transaction #{refund.transactionId}: " ++
            refund.reason.getD "None"),
          referenceType := some "refund", referenceId := some (toString refund.id) }
      let refund := { refund with status := .processed }
      saveRefund refund
      commitLedger
      return refund

end WezuBackend.Wallet.Service
