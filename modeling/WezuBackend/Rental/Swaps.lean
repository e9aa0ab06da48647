import WezuBackend.Rental.Effects
import WezuBackend.Wallet.Operations

/-!
# Completing a swap

`complete_swap` of `app/api/v1/swaps.py`: once the station has dispensed the new battery, the
batteries of the rental are swapped and the fee is taken from the user's wallet, in one commit.  The
fee is `SwapService.calculate_swap_fee`, which is zero.

`payAndSwap_cases` says what is stored once the request has been checked: the batteries, the fee and
the session, or nothing.  A call leaves the wallet tables as they are (`completeSwap_wallet`).
-/

namespace WezuBackend.Rental.Swaps

open Lib.Tables Lib.Atomicity Lib.Atomicity.Tx
open Core.Base Core.Letters Fleet.Model
open Fleet.Transitions
open Rental.Service Rental.Effects
open Financial.Model (Wallet)

/-! ## Tables -/

structure SwapSession where
  id : ℕ
  rentalId : Option ℕ
  userId : ℕ
  stationId : ℕ
  newBatteryId : Option ℕ
  oldBatterySoc : ℚ := 0
  newBatterySoc : ℚ := 0
  /-- in hundredths -/
  swapAmount : ℤ := 0
  status : String := "initiated"
  paymentStatus : String := "pending"
  completedAt : Option ℕ := none
  deriving DecidableEq, Repr

instance : Row SwapSession ℕ := ⟨SwapSession.id⟩

structure SwapDb where
  fleet : Db
  wallet : Financial.Model.Db
  swapSessions : Table SwapSession

abbrev SwapTx := Tx Exc SwapDb

structure SwapCompleteRequest where
  newBatteryId : Option ℕ := none
  oldBatterySoc : ℚ
  newBatterySoc : ℚ

/-- The caller, as far as `require_internal_operator` looks at them. -/
structure CurrentUser where
  id : ℕ
  isInternalOperator : Bool := false

structure SwapResponse where
  id : ℕ
  status : String
  stationId : ℕ
  /-- in hundredths -/
  amount : ℤ
  deriving DecidableEq, Repr

/-! ## The endpoint -/

/-- `SwapService.calculate_swap_fee`, in hundredths. -/
def calculateSwapFee (_rentalId : ℕ) : ℤ := 0

def truthyId (batteryId : Option ℕ) : Option ℕ := batteryId.filter fun k => k ≠ 0

def feeWallet (swapFee : ℤ) (userId : ℕ) : SwapTx (Option Wallet) :=
  if 0 < swapFee then do
    let db ← look
    let wallet ← demand (db.wallet.wallets.find? fun w => w.userId = userId)
      (.http 400 "Wallet not found for swap payment")
    ensure (swapFee ≤ wallet.balance) (.http 400 "Insufficient wallet balance")
    return some wallet
  else pure none

def feeRow (swapFee : ℤ) (swapSession : SwapSession) (wallet : Wallet) (id : ℕ) :
    Financial.Model.Transaction :=
  { id, userId := swapSession.userId, walletId := some wallet.id, amount := -swapFee
    balanceAfter := some (wallet.balance - swapFee), type := some .debit
    category := some "swap_fee", status := .other "SUCCESS"
    description := some s!"Swap fee charged for station #{swapSession.stationId}"
    referenceType := some "swap_session", referenceId := some (toString swapSession.id) }

theorem key_feeRow (swapFee : ℤ) (swapSession : SwapSession) (wallet : Wallet) (id : ℕ) :
    Row.key (feeRow swapFee swapSession wallet id) = id := rfl

def charged (swapFee : ℤ) (swapSession : SwapSession) (wallet : Wallet) (db : Financial.Model.Db) :
    Financial.Model.Db :=
  { db with
    wallets := db.wallets.set { wallet with balance := wallet.balance - swapFee }
    transactions := db.transactions.add (feeRow swapFee swapSession wallet)
      (key_feeRow swapFee swapSession wallet) }

def chargeFee (swapFee : ℤ) (swapSession : SwapSession) (wallet : Option Wallet) : SwapTx Unit :=
  match wallet with
  | none => pure ()
  | some wallet =>
    if 0 < swapFee then
      update fun db => { db with wallet := charged swapFee swapSession wallet db.wallet }
    else pure ()

/-- A program on the fleet tables. -/
def onFleet {α : Type} (x : FleetTx α) : SwapTx α :=
  focus SwapDb.fleet (fun fleet db => { db with fleet }) x

def completed (now replacementBatteryId : ℕ) (completeIn : SwapCompleteRequest) (swapFee : ℤ)
    (swapSession : SwapSession) : SwapSession :=
  { swapSession with
    newBatteryId := some replacementBatteryId, oldBatterySoc := completeIn.oldBatterySoc
    newBatterySoc := completeIn.newBatterySoc, swapAmount := swapFee, status := "completed"
    paymentStatus := "paid", completedAt := some now }

section

variable [Casing]

/-- The `try` block of `complete_swap`. -/
def swapAndPay (now rentalId replacementBatteryId : ℕ) (completeIn : SwapCompleteRequest)
    (swapFee : ℤ) (swapSession : SwapSession) (wallet : Option Wallet) : SwapTx Unit := do
  let swapExecuted ← onFleet
    (executeSwap now rentalId replacementBatteryId swapSession.stationId false)
  ensure (swapExecuted = true) (.http 400 "Swap execution failed")
  chargeFee swapFee swapSession wallet
  let completedSession := completed now replacementBatteryId completeIn swapFee swapSession
  update fun db => { db with swapSessions := db.swapSessions.set completedSession }
  onFleet flush
  commit

/-- The text of an exception; the database's own texts are left out. -/
def reasonOf : Exc → String
  | .valueError message => message
  | _ => ""

def swapFailed (e : Exc) : SwapTx Unit := do
  rollback
  match e with
  | .http statusCode detail => raise (.http statusCode detail)
  | e => raise (.http 500 s!"Swap completion failed: {reasonOf e}")

/-- The end of `complete_swap`, once the request has been checked. -/
def payAndSwap (now rentalId replacementBatteryId : ℕ) (completeIn : SwapCompleteRequest)
    (swapFee : ℤ) (swapSession : SwapSession) : SwapTx Unit := do
  let wallet ← feeWallet swapFee swapSession.userId
  handle (swapAndPay now rentalId replacementBatteryId completeIn swapFee swapSession
    wallet) swapFailed

def completeSwap (now swapId : ℕ) (completeIn : SwapCompleteRequest) (currentUser : CurrentUser) :
    SwapTx SwapResponse := do
  let db ← look
  let swapSession ← demand (db.swapSessions.get? swapId) (.http 404 "Session not found")
  ensure (swapSession.userId = currentUser.id ∨ currentUser.isInternalOperator = true)
    (.http 403 "insufficient_permissions")
  ensure (swapSession.status ≠ "completed") (.http 400 "Swap already completed")
  let rentalId ← demand swapSession.rentalId (.http 400 "Swap session is not linked to a rental")
  let rental ← demand (db.fleet.rentals.get? rentalId) (.http 404 "Rental not found")
  ensure (rental.status = .active) (.http 400 "Rental is not active")
  let replacementBatteryId ← demand
    ((truthyId completeIn.newBatteryId).or swapSession.newBatteryId)
    (.http 400 "Replacement battery is required")
  let swapFee := calculateSwapFee rental.id
  let wallet ← feeWallet swapFee swapSession.userId
  handle (swapAndPay now rentalId replacementBatteryId completeIn swapFee swapSession
    wallet) swapFailed
  return { id := swapSession.id, status := "completed", stationId := swapSession.stationId
           amount := swapFee }

end

/-! ## What a call stores -/

theorem fixes_onFleet {α : Type} {x : FleetTx α} (hx : Tentative x) :
    Fixes SwapDb.wallet (onFleet x) :=
  hx.fixes_focus (fun _ => rfl) fun _ _ => rfl

variable {now rentalId replacementBatteryId : ℕ} {completeIn : SwapCompleteRequest} {swapFee : ℤ}
  {swapSession : SwapSession} {wallet : Option Wallet} {db : SwapDb}

variable {userId : ℕ}

theorem readOnly_feeWallet : ReadOnly (feeWallet swapFee userId) := by
  unfold feeWallet
  split_ifs
  · refine readOnly_look.bind fun _ => (readOnly_demand _ _).bind fun _ => ?_
    exact (readOnly_ensure _ _).bind fun _ => readOnly_pure _
  · exact readOnly_pure _

variable {t : Session SwapDb}

theorem feeWallet_ok (h : feeWallet swapFee userId (.fresh db) = (.ok wallet, t)) :
    if 0 < swapFee then
      ∃ w ∈ db.wallet.wallets, wallet = some w ∧ w.userId = userId ∧ swapFee ≤ w.balance
    else wallet = none := by
  unfold feeWallet at h
  split_ifs at h ⊢ with hfee
  · simp only [bind_ok, look_ok, demand_ok, ensure_ok, pure_ok] at h
    obtain ⟨_, _, ⟨rfl, rfl⟩, w, _, ⟨hfound, rfl⟩, _, _, ⟨hle, rfl⟩, rfl, -⟩ := h
    have huser := Table.find?_prop hfound
    exact ⟨w, Table.find?_mem hfound, rfl, of_decide_eq_true huser, hle⟩
  · obtain ⟨rfl, -⟩ := pure_ok.mp h
    rfl

/-- The wallet tables once the fee is paid. -/
def afterFee (swapFee : ℤ) (swapSession : SwapSession) (wallet : Option Wallet)
    (db : Financial.Model.Db) : Financial.Model.Db :=
  match wallet with
  | none => db
  | some wallet => if 0 < swapFee then charged swapFee swapSession wallet db else db

theorem chargeFee_eq (s : Session SwapDb) : chargeFee swapFee swapSession wallet s =
    (.ok (), ⟨s.committed, { s.working with
      wallet := afterFee swapFee swapSession wallet s.working.wallet }⟩) := by
  unfold chargeFee afterFee
  rcases wallet with _ | w
  · rfl
  · dsimp only
    split_ifs <;> rfl

theorem tentative_chargeFee : Tentative (chargeFee swapFee swapSession wallet) := by
  intro s
  rw [chargeFee_eq]

/-- What a completed swap stores: its batteries, its fee and its session. -/
def paidAndSwapped (now replacementBatteryId : ℕ) (completeIn : SwapCompleteRequest) (swapFee : ℤ)
    (swapSession : SwapSession) (wallet : Option Wallet) (fleet : Db) (db : SwapDb) : SwapDb where
  fleet := fleet
  wallet := afterFee swapFee swapSession wallet db.wallet
  swapSessions := db.swapSessions.set
    (completed now replacementBatteryId completeIn swapFee swapSession)

section

variable [Casing]

theorem tentative_executeSwap (now rentalId newBatteryId stationId : ℕ) :
    Tentative (executeSwap now rentalId newBatteryId stationId false) :=
  (tentative_swapBatteries _ _ _ _).bind fun _ =>
    readOnly_flush.tentative.bind fun _ => (readOnly_pure _).tentative

theorem atomic_swapAndPay :
    Atomic (swapAndPay now rentalId replacementBatteryId completeIn swapFee
      swapSession wallet) := by
  refine atomic_bind (fixes_onFleet (tentative_executeSwap _ _ _ _)).tentative fun _ => ?_
  refine atomic_bind (readOnly_ensure _ _).tentative fun _ => ?_
  refine atomic_bind tentative_chargeFee fun _ => ?_
  refine atomic_bind (tentative_update _) fun _ => ?_
  refine atomic_bind (fixes_onFleet readOnly_flush.tentative).tentative fun _ => ?_
  exact atomic_commit ()

theorem swapAndPay_ok (h : swapAndPay now rentalId replacementBatteryId completeIn
      swapFee swapSession wallet (.fresh db) = (.ok (), t)) :
    ∃ fleet, swapBatteries now rentalId replacementBatteryId swapSession.stationId
        (.fresh db.fleet) = (.ok (), ⟨db.fleet, fleet⟩) ∧
      t = .fresh (paidAndSwapped now replacementBatteryId completeIn swapFee swapSession wallet
        fleet db) := by
  rw [swapAndPay, bind_ok] at h
  obtain ⟨swapExecuted, s₁, hswap, h⟩ := h
  obtain ⟨u, hexecuted, rfl⟩ := focus_ok hswap
  rw [executeSwap, if_neg (by simp), bind_ok] at hexecuted
  obtain ⟨⟨⟩, v, hbatteries, hexecuted⟩ := hexecuted
  have hfleet : v.committed = db.fleet := (tentative_swapBatteries _ _ _ _).eq hbatteries
  rw [bind_ok] at hexecuted
  obtain ⟨_, v', hflush, hexecuted⟩ := hexecuted
  obtain ⟨-, rfl⟩ := flush_ok.mp hflush
  obtain ⟨-, rfl⟩ := pure_ok.mp hexecuted
  obtain ⟨_, s₂, hensure, h⟩ := bind_ok.mp h
  obtain ⟨-, rfl⟩ := ensure_ok.mp hensure
  rw [bind_of_ok (chargeFee_eq _), update_bind] at h
  obtain ⟨_, s₃, hflush, h⟩ := bind_ok.mp h
  obtain rfl := (readOnly_focus (fun _ => rfl) readOnly_flush).eq hflush
  rw [commit_ok] at h
  refine ⟨v.working, hbatteries.trans ?_, h.symm⟩
  show (Except.ok (), v) = (Except.ok (), (⟨db.fleet, v.working⟩ : Session Db))
  rw [← hfleet]

theorem handled_cases (now rentalId replacementBatteryId : ℕ) (completeIn : SwapCompleteRequest)
    (swapFee : ℤ) (swapSession : SwapSession) (wallet : Option Wallet) (db : SwapDb) :
    (∃ e, handle (swapAndPay now rentalId replacementBatteryId completeIn swapFee swapSession
        wallet) swapFailed (.fresh db) = (.error e, .fresh db)) ∨
      ∃ fleet, swapBatteries now rentalId replacementBatteryId swapSession.stationId
          (.fresh db.fleet) = (.ok (), ⟨db.fleet, fleet⟩) ∧
        handle (swapAndPay now rentalId replacementBatteryId completeIn swapFee swapSession
          wallet) swapFailed (.fresh db) = (.ok (), .fresh
            (paidAndSwapped now replacementBatteryId completeIn swapFee swapSession wallet fleet
              db)) := by
  rcases hrun : swapAndPay now rentalId replacementBatteryId completeIn swapFee swapSession wallet
    (.fresh db) with ⟨e | a, u⟩
  · have hcommitted : u.committed = db := atomic_swapAndPay _ _ _ hrun
    have hfailed : ∃ e', swapFailed e u = (.error e', .fresh u.committed) := by
      unfold swapFailed
      cases e <;> exact ⟨_, rfl⟩
    rw [handle_of_error hrun, ← hcommitted]
    exact .inl hfailed
  · obtain ⟨fleet, hbatteries, rfl⟩ := swapAndPay_ok hrun
    exact .inr ⟨fleet, hbatteries, handle_of_ok hrun⟩

theorem payAndSwap_cases (now rentalId replacementBatteryId : ℕ) (completeIn : SwapCompleteRequest)
    (swapFee : ℤ) (swapSession : SwapSession) (db : SwapDb) :
    (∃ e, payAndSwap now rentalId replacementBatteryId completeIn swapFee swapSession (.fresh db) =
        (.error e, .fresh db)) ∨
      ∃ wallet fleet, feeWallet swapFee swapSession.userId (.fresh db) = (.ok wallet, .fresh db) ∧
        swapBatteries now rentalId replacementBatteryId swapSession.stationId
          (.fresh db.fleet) = (.ok (), ⟨db.fleet, fleet⟩) ∧
        payAndSwap now rentalId replacementBatteryId completeIn swapFee swapSession (.fresh db) =
          (.ok (), .fresh (paidAndSwapped now replacementBatteryId completeIn swapFee swapSession
            wallet fleet db)) := by
  rcases hfee : feeWallet swapFee swapSession.userId (.fresh db) with ⟨e | wallet, s⟩
  · obtain rfl := readOnly_feeWallet.eq hfee
    exact .inl ⟨e, bind_of_error hfee⟩
  · obtain rfl := readOnly_feeWallet.eq hfee
    rw [payAndSwap, bind_of_ok hfee]
    rcases handled_cases now rentalId replacementBatteryId completeIn swapFee swapSession wallet db
      with herror | ⟨fleet, hbatteries, hrun⟩
    · exact .inl herror
    · exact .inr ⟨wallet, fleet, rfl, hbatteries, hrun⟩

/-- A call refuses the request before it writes, or it pays and swaps. -/
theorem completeSwap_checked (now swapId : ℕ) (completeIn : SwapCompleteRequest)
    (currentUser : CurrentUser) (db : SwapDb) :
    (∃ e, completeSwap now swapId completeIn currentUser (.fresh db) = (.error e, .fresh db)) ∨
      ∃ swapSession rentalId replacementBatteryId, db.swapSessions.get? swapId = some swapSession ∧
        swapSession.rentalId = some rentalId ∧
        (truthyId completeIn.newBatteryId).or swapSession.newBatteryId =
          some replacementBatteryId ∧
        completeSwap now swapId completeIn currentUser (.fresh db) =
          (payAndSwap now rentalId replacementBatteryId completeIn (calculateSwapFee rentalId)
            swapSession >>= fun _ => pure
              { id := swapSession.id, status := "completed", stationId := swapSession.stationId,
                amount := calculateSwapFee rentalId }) (.fresh db) := by
  unfold completeSwap
  rw [look_bind, Session.working_fresh]
  rcases hsession : db.swapSessions.get? swapId with _ | swapSession
  · rw [demand_bind_none rfl]
    exact .inl ⟨_, rfl⟩
  rw [demand_bind rfl]
  by_cases hcaller : swapSession.userId = currentUser.id ∨ currentUser.isInternalOperator = true
  swap
  · rw [ensure_bind_not hcaller]
    exact .inl ⟨_, rfl⟩
  rw [ensure_bind hcaller]
  by_cases hopen : swapSession.status ≠ "completed"
  swap
  · rw [ensure_bind_not hopen]
    exact .inl ⟨_, rfl⟩
  rw [ensure_bind hopen]
  rcases hlinked : swapSession.rentalId with _ | rentalId
  · rw [demand_bind_none rfl]
    exact .inl ⟨_, rfl⟩
  rw [demand_bind rfl]
  rcases hrental : db.fleet.rentals.get? rentalId with _ | rental
  · rw [demand_bind_none rfl]
    exact .inl ⟨_, rfl⟩
  rw [demand_bind rfl]
  by_cases hactive : rental.status = .active
  swap
  · rw [ensure_bind_not hactive]
    exact .inl ⟨_, rfl⟩
  rw [ensure_bind hactive]
  rcases hbattery : (truthyId completeIn.newBatteryId).or
    swapSession.newBatteryId with _ | batteryId
  · rw [demand_bind_none rfl]
    exact .inl ⟨_, rfl⟩
  rw [demand_bind rfl]
  refine .inr ⟨swapSession, rentalId, batteryId, rfl, hlinked, hbattery, ?_⟩
  have hrentalId : rental.id = rentalId := (Table.get?_eq_some.mp hrental).2
  rw [hrentalId, payAndSwap]
  rcases hfee : feeWallet (calculateSwapFee rentalId) swapSession.userId
    (.fresh db) with ⟨e | wallet, s⟩
  · rw [bind_of_error hfee, bind_of_error (bind_of_error hfee)]
  · rw [bind_of_ok hfee, bind_eq, bind_eq, bind_of_ok hfee]

/-- A call takes nothing from a wallet, since the fee is zero. -/
theorem completeSwap_wallet (now swapId : ℕ) (completeIn : SwapCompleteRequest)
    (currentUser : CurrentUser) (db : SwapDb) :
    ((completeSwap now swapId completeIn currentUser).call db).2.wallet = db.wallet := by
  unfold Tx.call
  rcases completeSwap_checked now swapId completeIn currentUser db with
    ⟨e, hrefused⟩ | ⟨swapSession, rentalId, batteryId, -, -, -, hchecked⟩
  · rw [hrefused]
    rfl
  rw [hchecked]
  rcases payAndSwap_cases now rentalId batteryId completeIn (calculateSwapFee rentalId) swapSession
    db with ⟨e, herror⟩ | ⟨wallet, fleet, hfee, -, hrun⟩
  · rw [bind_of_error herror]
    rfl
  rw [bind_of_ok hrun]
  have hpaid := feeWallet_ok hfee
  rw [if_neg (show ¬ 0 < calculateSwapFee rentalId from lt_irrefl 0)] at hpaid
  rw [hpaid]
  rfl

end

end WezuBackend.Rental.Swaps
