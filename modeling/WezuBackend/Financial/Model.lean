import WezuBackend.Core.Floats

/-!
# The wallet tables

The tables `WalletService` and the Razorpay webhook read and write: users, wallets, the transaction
ledger, withdrawal requests, refunds, and the notifications staged for the outbox.  The columns are
those some modelled function reads or a claim speaks of.  A `float` column holds the amount, in
hundredths, that `_to_money` reads of it.
-/

namespace WezuBackend.Financial.Model

open Lib.Tables

structure User where
  id : ℕ
  phoneNumber : String
  deriving DecidableEq, Repr

structure Wallet where
  id : ℕ
  userId : ℕ
  balance : ℤ
  deriving DecidableEq, Repr

/-- `Transaction.type`. -/
inductive TxnType where
  | credit
  | debit
  deriving DecidableEq, Repr

/-- `Transaction.status`: the texts the wallet service writes, and whatever else is stored there. -/
inductive TxnStatus where
  | pending
  | success
  | failed
  | other (text : String)
  deriving DecidableEq, Repr

/-- The column is an `Enum` of these names, so a row with another text cannot be loaded.  The texts
of the wallet service are in lower case. -/
def TxnStatus.Readable : TxnStatus → Prop
  | .other text => text ∈ ["PENDING", "SUCCESS", "FAILED", "CANCELLED", "REFUNDED"]
  | _ => False

instance (status : TxnStatus) : Decidable status.Readable := by
  unfold TxnStatus.Readable
  split <;> infer_instance

@[simp] theorem not_readable_pending : ¬ TxnStatus.pending.Readable := id
@[simp] theorem not_readable_success : ¬ TxnStatus.success.Readable := id
@[simp] theorem not_readable_failed : ¬ TxnStatus.failed.Readable := id

structure Transaction where
  id : ℕ
  userId : ℕ
  walletId : Option ℕ
  amount : ℤ
  balanceAfter : Option ℤ
  type : Option TxnType
  category : Option String
  status : TxnStatus
  description : Option String
  referenceType : Option String := none
  referenceId : Option String := none
  razorpayPaymentId : Option String := none
  deriving DecidableEq, Repr

inductive WithdrawalStatus where
  | requested
  | approved
  | processed
  | rejected
  deriving DecidableEq, Repr

structure WalletWithdrawalRequest where
  id : ℕ
  walletId : ℕ
  amount : ℤ
  bankDetails : String
  status : WithdrawalStatus
  deriving DecidableEq, Repr

inductive RefundStatus where
  | pending
  | processed
  | failed
  deriving DecidableEq, Repr

structure Refund where
  id : ℕ
  transactionId : ℕ
  amount : ℤ
  reason : Option String
  status : RefundStatus
  gatewayRefundId : Option String := none
  createdAt : ℕ
  deriving DecidableEq, Repr

structure Notification where
  id : ℕ
  userId : ℕ
  title : String
  message : String
  type : String
  channel : String
  status : String
  scheduledAt : Option ℕ
  deriving DecidableEq, Repr

structure NotificationOutbox where
  id : ℕ
  notificationId : ℕ
  userId : ℕ
  channel : String
  status : String
  attemptCount : ℕ
  maxAttempts : ℤ
  idempotencyKey : Option String
  nextAttemptAt : Option ℕ
  deriving DecidableEq, Repr

instance : Row User ℕ := ⟨User.id⟩
instance : Row Wallet ℕ := ⟨Wallet.id⟩
instance : Row Transaction ℕ := ⟨Transaction.id⟩
instance : Row WalletWithdrawalRequest ℕ := ⟨WalletWithdrawalRequest.id⟩
instance : Row Refund ℕ := ⟨Refund.id⟩
instance : Row Notification ℕ := ⟨Notification.id⟩
instance : Row NotificationOutbox ℕ := ⟨NotificationOutbox.id⟩

/-- The database behind the sessions. -/
inductive Engine where
  | postgresql
  | sqlite
  deriving DecidableEq, Repr

structure Db where
  users : Table User
  wallets : Table Wallet
  transactions : Table Transaction
  withdrawalRequests : Table WalletWithdrawalRequest
  refunds : Table Refund
  notifications : Table Notification
  notificationOutbox : Table NotificationOutbox
  engine : Engine := .sqlite

/-- The users and their wallets, and nothing else. -/
def Db.ofWallets (users : Table User) (wallets : Table Wallet) (engine : Engine := .sqlite) : Db :=
  ⟨users, wallets, .empty, .empty, .empty, .empty, .empty, engine⟩

/-- The settings the wallet service reads. -/
structure Settings where
  /-- `NOTIFICATION_OUTBOX_MAX_ATTEMPTS` -/
  notificationOutboxMaxAttempts : ℤ := 8

/-- The balance of a wallet; a wallet that does not exist yet holds nothing. -/
def balanceOf (wallets : Table Wallet) (walletId : ℕ) : ℤ :=
  match wallets.get? walletId with
  | some wallet => wallet.balance
  | none => 0

def Db.balance (db : Db) (walletId : ℕ) : ℤ := balanceOf db.wallets walletId

@[simp] theorem key_wallet (w : Wallet) : Row.key w = w.id := rfl
theorem key_opened (userId : ℕ) (id : ℕ) : Row.key { id, userId, balance := 0 : Wallet } = id := rfl
@[simp] theorem key_refund (r : Refund) : Row.key r = r.id := rfl

variable {wallets : Table Wallet}

variable {w : Wallet}

theorem balanceOf_mem (h : w ∈ wallets) :
    balanceOf wallets w.id = w.balance := by
  have hget : wallets.get? w.id = some w := Table.get?_of_mem h
  simp [balanceOf, hget]

theorem balanceOf_add {mk : ℕ → Wallet} {hmk : ∀ k, (mk k).id = k}
    (h : (mk wallets.freshKey).balance = 0) (k : ℕ) :
    balanceOf (wallets.add mk hmk) k = balanceOf wallets k := by
  by_cases hk : k = wallets.freshKey
  · subst hk
    have hold : wallets.get? wallets.freshKey = none :=
      Table.get?_eq_none.mpr fun w hw => (Table.key_lt_freshKey hw).ne
    simp [balanceOf, Table.get?_add_fresh, hold, h]
  · simp [balanceOf, Table.get?_add_ne hk]

theorem balanceOf_set (h : w ∈ wallets) (w' : Wallet) (hid : w'.id = w.id) (k : ℕ) :
    balanceOf (wallets.set w') k = if k = w.id then w'.balance else balanceOf wallets k := by
  split_ifs with hk
  · have hget : wallets.get? (Row.key w') = some w := Table.get?_eq_some.mpr ⟨h, hid.symm⟩
    have hset : (wallets.set w').get? k = some w' := by
      rw [hk, ← hid]
      exact Table.get?_set_self hget
    simp [balanceOf, hset]
  · have hne : k ≠ Row.key w' := fun he => hk (he.trans hid)
    simp [balanceOf, Table.get?_set_ne hne]

end WezuBackend.Financial.Model
