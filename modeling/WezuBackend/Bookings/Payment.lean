import WezuBackend.Wallet.Operations
import WezuBackend.Core.Letters

/-!
# Paying for a booking

`pay_for_booking` of `app/api/v1/bookings.py`: a pending reservation is paid from the user's wallet
and becomes active.  The wallet is read without a lock.  A NaN passes every comparison of an amount
with a bound or a balance; PostgreSQL stores it, SQLite takes it for a null.
-/

namespace WezuBackend.Bookings.Payment

open Lib.Tables Lib.Atomicity Lib.Atomicity.Tx Core.Base Core.Amounts Core.Text Core.Letters
open Core.Floats Financial.Model

structure BatteryReservation where
  id : ℕ
  userId : ℕ
  stationId : ℕ := 0
  batteryId : Option ℕ := none
  startTime : ℕ := 0
  endTime : ℕ
  status : String := "PENDING"
  updatedAt : ℕ
  deriving DecidableEq, Repr

instance : Row BatteryReservation ℕ := ⟨BatteryReservation.id⟩

/-- The wallet tables, the column `wallets.is_frozen`, which amounts are NaN, and the reservations.
-/
structure Db where
  wallet : Financial.Model.Db
  isFrozen : ℕ → Bool := fun _ => false
  /-- the wallets whose balance is NaN -/
  nanBalances : ℕ → Bool := fun _ => false
  /-- the transactions whose amount is NaN -/
  nanAmounts : ℕ → Bool := fun _ => false
  reservations : Table BatteryReservation

/-- The balance of a stored wallet, unless it is NaN. -/
def Db.walletBalance (db : Db) (wallet : Wallet) : Option ℤ :=
  if db.nanBalances wallet.id then none else some wallet.balance

abbrev BookingTx := Tx Exc Db

/-- A float of a request.  The infinities are left out; they are refused like a negative and a very
large amount. -/
inductive RequestAmount where
  | nan
  | number (value : ℚ)
  deriving DecidableEq, Repr

structure BookingPaymentRequest where
  amount : Option RequestAmount := none
  paymentMethod : String := "wallet"

/-- The amounts are in hundredths, and `none` if they are NaN. -/
structure BookingPaymentResponse where
  bookingId : ℕ
  status : String
  amountPaid : Option ℤ
  walletBalance : Option ℤ
  transactionId : ℕ
  message : String
  deriving DecidableEq, Repr

/-- `round(amount, 2)`, in hundredths. -/
def roundToHundredths (amount : ℚ) : ℤ := roundHalfEven (amount * 100).num (amount * 100).den

/-- `float(getattr(settings, "BOOKING_RESERVATION_FEE_INR", 49.0) or 49.0)`: there is no such
setting. -/
def configuredAmount : ℚ := 49

/-- The amount to be paid, in hundredths, unless it is NaN. -/
def paymentAmount (paymentIn : Option BookingPaymentRequest) : Option ℤ :=
  match (paymentIn.bind BookingPaymentRequest.amount).getD (.number configuredAmount) with
  | .nan => none
  | .number amount => some (roundToHundredths amount)

def paymentMethod (paymentIn : Option BookingPaymentRequest) : String :=
  lower (strip ((paymentIn.map BookingPaymentRequest.paymentMethod).getD "wallet"))

section

variable [Casing]

def markExpiredIfDue (now : ℕ) (booking : BatteryReservation) : BookingTx BatteryReservation :=
  if normal booking.status ≠ "PENDING" then pure booking
  else if now < booking.endTime then pure booking
  else do
    let booking := { booking with status := "EXPIRED", updatedAt := now }
    update fun db => { db with reservations := db.reservations.set booking }
    commit
    return booking

def getUserBookingOr404 (bookingId userId : ℕ) : BookingTx BatteryReservation := do
  let db ← look
  let booking ← demand (db.reservations.get? bookingId) (.http 404 "Booking not found")
  ensure (booking.userId = userId) (.http 404 "Booking not found")
  return booking

/-- A new wallet of the user. -/
def openWallet (userId : ℕ) (db : Db) : Db :=
  let id := db.wallet.wallets.freshKey
  { db with
    wallet := { db.wallet with
      wallets :=
        db.wallet.wallets.add (fun id => { id, userId, balance := 0 }) (key_opened userId) }
    isFrozen := Function.update db.isFrozen id false
    nanBalances := Function.update db.nanBalances id false }

/-- The wallet of the user; a new one is committed at once. -/
def paymentWallet (userId : ℕ) : BookingTx Wallet := do
  let db ← look
  match db.wallet.wallets.find? fun w => w.userId = userId with
  | some wallet => return wallet
  | none =>
    update (openWallet userId)
    commit
    return { id := db.wallet.wallets.freshKey, userId, balance := 0 }

/-- `round(current_balance - amount, 2)` -/
def balanceLeft (balance amount : Option ℤ) : Option ℤ :=
  balance.bind fun b => amount.map fun a => floatSub b a

/-- The rows of an accepted payment: the wallet, the ledger row and the reservation. -/
def paid (now : ℕ) (booking : BatteryReservation) (wallet : Wallet) (amount : Option ℤ) (db : Db) :
    Db :=
  let left := balanceLeft (db.walletBalance wallet) amount
  { db with
    reservations := db.reservations.set { booking with status := "ACTIVE", updatedAt := now }
    nanBalances := Function.update db.nanBalances wallet.id left.isNone
    nanAmounts := Function.update db.nanAmounts db.wallet.transactions.freshKey amount.isNone
    wallet := { db.wallet with
      wallets := db.wallet.wallets.set { wallet with balance := left.getD 0 }
      transactions := db.wallet.transactions.add fun id =>
        { id, userId := wallet.userId, walletId := some wallet.id, amount := amount.getD 0,
          balanceAfter := none, type := none, category := none, status := .other "SUCCESS",
          description := some s!"Booking payment for reservation #{booking.id}" } } }

/-- The answer to an accepted payment. -/
def receipt (db : Db) (booking : BatteryReservation) (wallet : Wallet) (amount : Option ℤ) :
    BookingPaymentResponse :=
  { bookingId := booking.id, status := "ACTIVE", amountPaid := amount,
    walletBalance := balanceLeft (db.walletBalance wallet) amount,
    transactionId := db.wallet.transactions.freshKey, message := "Booking payment successful" }

/-- `current_balance < amount` does not hold; it holds of no NaN. -/
def Covered (balance amount : Option ℤ) : Prop := ∀ a ∈ amount, ∀ b ∈ balance, a ≤ b

instance (balance amount : Option ℤ) : Decidable (Covered balance amount) :=
  inferInstanceAs (Decidable (∀ a ∈ amount, ∀ b ∈ balance, a ≤ b))

/-- The database stores the amounts of the payment: no column of SQLite takes a NaN. -/
def Storable (engine : Engine) (balance amount : Option ℤ) : Prop :=
  engine = .postgresql ∨ balance.isSome ∧ amount.isSome

instance (engine : Engine) (balance amount : Option ℤ) :
    Decidable (Storable engine balance amount) :=
  inferInstanceAs (Decidable (_ ∨ _))

/-- The text that refuses a payment; it compares two numbers. -/
def insufficient (balance amount : Option ℤ) : String :=
  s!"Insufficient wallet balance. Required {moneyText (amount.getD 0)}, " ++
    s!"available {moneyText (balance.getD 0)}. Please recharge your wallet."

/-- The last part of `pay_for_booking`, with the wallet that was read. -/
def settle (now : ℕ) (booking : BatteryReservation) (wallet : Wallet) (amount : Option ℤ) :
    BookingTx BookingPaymentResponse := do
  let db ← look
  ensure (db.isFrozen wallet.id = false) (.http 403 "Wallet is frozen")
  let balance := db.walletBalance wallet
  ensure (Covered balance amount) (.http 400 (insufficient balance amount))
  ensure (Storable db.wallet.engine balance amount) .integrityError
  update (paid now booking wallet amount)
  commit
  return receipt db booking wallet amount

/-- What is in the wallet that a payment of the user is taken from, unless it is NaN. -/
def userBalance (userId : ℕ) (db : Db) : Option ℤ :=
  match db.wallet.wallets.find? fun w => w.userId = userId with
  | some wallet => db.walletBalance wallet
  | none => some 0

def payForBooking (now bookingId : ℕ) (paymentIn : Option BookingPaymentRequest)
    (currentUserId : ℕ) : BookingTx BookingPaymentResponse := do
  let booking ← getUserBookingOr404 bookingId currentUserId
  let booking ← markExpiredIfDue now booking
  let bookingStatus := normal booking.status
  let db ← look
  if bookingStatus = "ACTIVE" then
    return { bookingId := booking.id, status := booking.status, amountPaid := some 0,
             walletBalance := userBalance currentUserId db, transactionId := 0,
             message := "Booking already paid" }
  ensure (bookingStatus = "PENDING") (.http 400 s!"Cannot pay for booking in {bookingStatus} state")
  ensure (paymentMethod paymentIn = "wallet")
    (.http 400 "Only wallet payment is currently supported for bookings")
  let amount := paymentAmount paymentIn
  ensure (∀ a ∈ amount, 0 < a) (.http 400 "Payment amount must be greater than zero")
  ensure (∀ a ∈ amount, a ≤ 10000000) (.http 400 "Payment amount exceeds allowed limit")
  let wallet ← paymentWallet currentUserId
  settle now booking wallet amount

/-- The booking is one of the user's that can be paid now, by a payment that is in order. -/
def Payable (db : Db) (now bookingId : ℕ) (paymentIn : Option BookingPaymentRequest)
    (currentUserId : ℕ) (booking : BatteryReservation) : Prop :=
  db.reservations.get? bookingId = some booking ∧ booking.userId = currentUserId ∧
    normal booking.status = "PENDING" ∧ now < booking.endTime ∧
    paymentMethod paymentIn = "wallet" ∧ (∀ a ∈ paymentAmount paymentIn, 0 < a) ∧
    ∀ a ∈ paymentAmount paymentIn, a ≤ 10000000

omit [Casing] in
/-- The wallet of a payment and the tables with it. -/
def walletFor (userId : ℕ) (db : Db) : Wallet × Db :=
  match db.wallet.wallets.find? fun w => w.userId = userId with
  | some wallet => (wallet, db)
  | none => ({ id := db.wallet.wallets.freshKey, userId, balance := 0 }, openWallet userId db)

/-- The wallet is not frozen, it holds the amount, and what is left can be stored. -/
def Passes (db : Db) (wallet : Wallet) (amount : Option ℤ) : Prop :=
  db.isFrozen wallet.id = false ∧ Covered (db.walletBalance wallet) amount ∧
    Storable db.wallet.engine (db.walletBalance wallet) amount

/-! ## The wallet of a payment -/

section Wallets

omit [Casing]

variable {db : Db} {userId : ℕ} {wallet : Wallet}

theorem paymentWallet_eq (db : Db) (userId : ℕ) : paymentWallet userId (.fresh db) =
    (.ok (walletFor userId db).1, .fresh (walletFor userId db).2) := by
  rw [paymentWallet, walletFor, look_bind, Session.working_fresh]
  rcases db.wallet.wallets.find? fun w => w.userId = userId with _ | wallet <;> rfl

theorem walletFor_of_find (h : db.wallet.wallets.find? (fun w => w.userId = userId) = some wallet) :
    walletFor userId db = (wallet, db) := by
  rw [walletFor, h]

theorem reservations_walletFor (userId : ℕ) (db : Db) :
    (walletFor userId db).2.reservations = db.reservations := by
  rw [walletFor]
  rcases db.wallet.wallets.find? fun w => w.userId = userId with _ | wallet <;> rfl

/-- The wallet is in the tables, and it is the one that is found for the user. -/
theorem find_walletFor (userId : ℕ) (db : Db) :
    (walletFor userId db).2.wallet.wallets.find? (fun w => w.userId = userId) =
      some (walletFor userId db).1 := by
  rw [walletFor]
  rcases h : db.wallet.wallets.find? fun w => w.userId = userId with _ | wallet
  · simp [openWallet, Table.find?_add, h]
  · exact h

/-- To open a wallet changes nobody's balance. -/
theorem userBalance_walletFor (userId k : ℕ) (db : Db) :
    userBalance k (walletFor userId db).2 = userBalance k db := by
  rw [walletFor]
  rcases h : db.wallet.wallets.find? fun w => w.userId = userId with _ | wallet
  swap
  · rfl
  dsimp only [openWallet, userBalance]
  rw [Table.find?_add]
  rcases hk : db.wallet.wallets.find? fun w => w.userId = k with _ | wallet
  · rw [Option.none_or]
    split_ifs with huser
    · simp [Db.walletBalance]
    · rfl
  · have hold : wallet.id ≠ db.wallet.wallets.freshKey :=
      (Table.key_lt_freshKey (Table.find?_mem hk)).ne
    simp [Db.walletBalance, hold]

theorem walletBalance_walletFor (userId : ℕ) (db : Db) :
    (walletFor userId db).2.walletBalance (walletFor userId db).1 = userBalance userId db := by
  rw [← userBalance_walletFor userId userId, userBalance, find_walletFor]

/-- The balance that a payment leaves, as it is stored. -/
theorem walletBalance_paid (now : ℕ) (booking : BatteryReservation) (amount : Option ℤ)
    (wallet : Wallet) (db : Db) :
    (paid now booking wallet amount db).walletBalance
        { wallet with balance := (balanceLeft (db.walletBalance wallet) amount).getD 0 } =
      balanceLeft (db.walletBalance wallet) amount := by
  have hnan : (paid now booking wallet amount db).nanBalances wallet.id =
      (balanceLeft (db.walletBalance wallet) amount).isNone := Function.update_self _ _ _
  change (if (paid now booking wallet amount db).nanBalances wallet.id then none
    else some ((balanceLeft (db.walletBalance wallet) amount).getD 0)) = _
  rw [hnan]
  rcases balanceLeft (db.walletBalance wallet) amount with _ | left <;> rfl

theorem userBalance_paid (now : ℕ) (booking : BatteryReservation) (amount : Option ℤ)
    (h : db.wallet.wallets.find? (fun w => w.userId = userId) = some wallet) :
    userBalance userId (paid now booking wallet amount db) =
      balanceLeft (db.walletBalance wallet) amount := by
  have hmem := Table.find?_mem h
  have hfind : (paid now booking wallet amount db).wallet.wallets.find?
      (fun w => w.userId = userId) =
        some { wallet with balance := (balanceLeft (db.walletBalance wallet) amount).getD 0 } := by
    refine (Table.find?_set fun x hx hkey => by rw [Table.eq_of_key hx hmem hkey]).trans ?_
    rw [h]
    exact congrArg some (if_pos rfl)
  rw [userBalance, hfind]
  exact walletBalance_paid now booking amount wallet db

end Wallets

/-! ## How a payment ends -/

section Settle

omit [Casing]

variable {now : ℕ} {booking : BatteryReservation} {wallet : Wallet} {amount : Option ℤ} {db : Db}

theorem settle_of_passes (h : Passes db wallet amount) :
    settle now booking wallet amount (.fresh db) =
      (.ok (receipt db booking wallet amount), .fresh (paid now booking wallet amount db)) := by
  obtain ⟨hfrozen, hcovered, hstorable⟩ := h
  rw [settle, look_bind, Session.working_fresh, ensure_bind hfrozen, ensure_bind hcovered,
    ensure_bind hstorable]
  rfl

theorem settle_of_not_passes (now : ℕ) (booking : BatteryReservation)
    (h : ¬ Passes db wallet amount) :
    ∃ e, settle now booking wallet amount (.fresh db) = (.error e, .fresh db) := by
  rw [settle, look_bind, Session.working_fresh]
  by_cases hfrozen : db.isFrozen wallet.id = false
  swap
  · exact ⟨_, ensure_bind_not hfrozen _ _ _⟩
  rw [ensure_bind hfrozen]
  by_cases hcovered : Covered (db.walletBalance wallet) amount
  swap
  · exact ⟨_, ensure_bind_not hcovered _ _ _⟩
  rw [ensure_bind hcovered]
  exact ⟨_, ensure_bind_not (fun hstorable => h ⟨hfrozen, hcovered, hstorable⟩) _ _ _⟩

end Settle

variable {db : Db} {now bookingId userId : ℕ} {paymentIn : Option BookingPaymentRequest}
  {booking : BatteryReservation}

theorem payForBooking_of_payable (h : Payable db now bookingId paymentIn userId booking) :
    payForBooking now bookingId paymentIn userId (.fresh db) =
      settle now booking (walletFor userId db).1 (paymentAmount paymentIn)
        (.fresh (walletFor userId db).2) := by
  obtain ⟨hbooking, huser, hpending, hdue, hmethod, hpos, hlimit⟩ := h
  have hget : getUserBookingOr404 bookingId userId (.fresh db) = (.ok booking, .fresh db) := by
    rw [getUserBookingOr404, look_bind, Session.working_fresh, demand_bind hbooking,
      ensure_bind huser]
    rfl
  have hmark : markExpiredIfDue now booking (.fresh db) = (.ok booking, .fresh db) := by
    rw [markExpiredIfDue, if_neg (not_not.mpr hpending), if_pos hdue]
    rfl
  have hactive : normal booking.status ≠ "ACTIVE" := by simp [hpending]
  rw [payForBooking, bind_of_ok hget, bind_of_ok hmark, look_bind, if_neg hactive,
    ensure_bind hpending, ensure_bind hmethod, ensure_bind hpos, ensure_bind hlimit,
    bind_of_ok (paymentWallet_eq db userId)]

/-- A payment that passes its checks. -/
theorem payForBooking_of_passes (h : Payable db now bookingId paymentIn userId booking)
    (hpasses : Passes (walletFor userId db).2 (walletFor userId db).1 (paymentAmount paymentIn)) :
    ((payForBooking now bookingId paymentIn userId).call db).2 =
      paid now booking (walletFor userId db).1 (paymentAmount paymentIn)
        (walletFor userId db).2 := by
  unfold Tx.call
  rw [payForBooking_of_payable h, settle_of_passes hpasses]
  rfl

/-- Any other payment leaves the wallets as they are, but for a new one of the user. -/
theorem payForBooking_cases [Capitals] (db : Db) (now bookingId userId : ℕ)
    (paymentIn : Option BookingPaymentRequest) :
    ((payForBooking now bookingId paymentIn userId).call db).2 =
        { db with
          reservations :=
            ((payForBooking now bookingId paymentIn userId).call db).2.reservations } ∨
    ((payForBooking now bookingId paymentIn userId).call db).2 = (walletFor userId db).2 ∨
    ∃ booking, Payable db now bookingId paymentIn userId booking ∧
      Passes (walletFor userId db).2 (walletFor userId db).1 (paymentAmount paymentIn) := by
  unfold Tx.call
  rcases hbooking : db.reservations.get? bookingId with _ | booking
  · have hget : getUserBookingOr404 bookingId userId (.fresh db) =
        (.error (.http 404 "Booking not found"), .fresh db) := by
      rw [getUserBookingOr404, look_bind, Session.working_fresh, demand_bind_none hbooking]
    rw [payForBooking, bind_of_error hget]
    exact .inl rfl
  by_cases huser : booking.userId = userId
  swap
  · have hget : getUserBookingOr404 bookingId userId (.fresh db) =
        (.error (.http 404 "Booking not found"), .fresh db) := by
      rw [getUserBookingOr404, look_bind, Session.working_fresh, demand_bind hbooking,
        ensure_bind_not huser]
    rw [payForBooking, bind_of_error hget]
    exact .inl rfl
  by_cases hpayable : Payable db now bookingId paymentIn userId booking
  · rw [payForBooking_of_payable hpayable]
    by_cases hpasses : Passes (walletFor userId db).2 (walletFor userId db).1
      (paymentAmount paymentIn)
    · exact .inr (.inr ⟨booking, hpayable, hpasses⟩)
    · obtain ⟨e, hrun⟩ := settle_of_not_passes now booking hpasses
      rw [hrun]
      exact .inr (.inl rfl)
  left
  have hget : getUserBookingOr404 bookingId userId (.fresh db) = (.ok booking, .fresh db) := by
    rw [getUserBookingOr404, look_bind, Session.working_fresh, demand_bind hbooking,
      ensure_bind huser]
    rfl
  rw [payForBooking, bind_of_ok hget]
  by_cases hpending : normal booking.status = "PENDING"
  swap
  · have hmark : markExpiredIfDue now booking (.fresh db) = (.ok booking, .fresh db) := by
      rw [markExpiredIfDue, if_pos hpending]
      rfl
    rw [bind_of_ok hmark, look_bind]
    split_ifs
    · rfl
    · rw [ensure_bind_not hpending]
      rfl
  by_cases hdue : now < booking.endTime
  swap
  · -- the booking expires, and the payment is refused
    have hmark : markExpiredIfDue now booking (.fresh db) =
        (.ok { booking with status := "EXPIRED", updatedAt := now }, .fresh { db with
          reservations :=
            db.reservations.set { booking with status := "EXPIRED", updatedAt := now } }) := by
      rw [markExpiredIfDue, if_neg (not_not.mpr hpending), if_neg hdue]
      rfl
    have hexpired : normal "EXPIRED" = "EXPIRED" := normal_capital (by decide) (by decide)
    rw [bind_of_ok hmark, look_bind]
    dsimp only
    rw [hexpired, if_neg (by decide), ensure_bind_not (by decide)]
    rfl
  have hmark : markExpiredIfDue now booking (.fresh db) = (.ok booking, .fresh db) := by
    rw [markExpiredIfDue, if_neg (not_not.mpr hpending), if_pos hdue]
    rfl
  have hactive : normal booking.status ≠ "ACTIVE" := by simp [hpending]
  rw [bind_of_ok hmark, look_bind, if_neg hactive, ensure_bind hpending]
  by_cases hmethod : paymentMethod paymentIn = "wallet"
  swap
  · rw [ensure_bind_not hmethod]
    rfl
  rw [ensure_bind hmethod]
  by_cases hpos : ∀ a ∈ paymentAmount paymentIn, 0 < a
  swap
  · rw [ensure_bind_not hpos]
    rfl
  rw [ensure_bind hpos, ensure_bind_not fun hlimit =>
    hpayable ⟨hbooking, huser, hpending, hdue, hmethod, hpos, hlimit⟩]
  rfl

end

end WezuBackend.Bookings.Payment
