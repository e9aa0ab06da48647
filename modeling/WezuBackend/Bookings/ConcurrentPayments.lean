import WezuBackend.Bookings.Payment
import WezuBackend.Wallet.Effects
import WezuBackend.Lib.RowUpdates

/-!
# Payments and wallet operations at the same time

Calls on one wallet, each in a session of its own.  The operations of `WalletService` lock the row
of the wallet before they read it; `pay_for_booking` reads it without a lock and later writes the
balance it has computed.  Both are updates of the row in the sense of `Lib.RowUpdates`
(`payForBooking_change`).

A deposit that is committed between the read and the write of a payment is lost (`deposit_lost`).
The balance is at every moment the first one plus the committed changes if and only if every payment
commits on the balance it has read (`no_lost_update_iff`).
-/

namespace WezuBackend.Bookings.ConcurrentPayments

open Lib.Tables Lib.Runs Lib.Interleaving Lib.RowUpdates Lib.Atomicity Lib.Atomicity.Tx Core.Base
open Core.Letters Core.Floats Financial.Model Wallet.Operations Bookings.Payment

/-! ## Operations of the wallet service -/

/-- The tables, with another balance in the wallet. -/
def withBalance (db : Financial.Model.Db) (walletId : ℕ) (balance : ℤ) : Financial.Model.Db :=
  match db.wallets.get? walletId with
  | some wallet => { db with wallets := db.wallets.set { wallet with balance } }
  | none => db

/-- What the call changes in the wallet, from the balance it reads there; its other rows are as in
`db`.  A call that raises after its commit has changed the balance all the same. -/
def changeOf (cfg : Settings) (db : Financial.Model.Db) (op : Op) (walletId : ℕ) (balance : ℤ) :
    Except Exc ℤ :=
  match exec cfg (withBalance db walletId balance) op with
  | (.ok _, db') => .ok (db'.balance walletId - balance)
  | (.error e, db') =>
    if db'.balance walletId = balance then .error e else .ok (db'.balance walletId - balance)

def serviceUpdate (cfg : Settings) (db : Financial.Model.Db) (op : Op) (walletId : ℕ) :
    Update Exc ℤ :=
  ⟨true, changeOf cfg db op walletId⟩

/-- The row update of a payment. -/
def bookingUpdate (isFrozen : Bool) (amount : ℤ) : Update Exc ℤ where
  locks := false
  change balance :=
    if isFrozen then .error (.http 403 "Wallet is frozen")
    else if balance < amount then .error (.http 400 (insufficient (some balance) (some amount)))
    else .ok (floatSub balance amount - balance)

/-- **A payment that runs alone** does to the wallet what its row update says. -/
theorem payForBooking_change [Casing] {db : Bookings.Payment.Db} {now bookingId userId : ℕ}
    {paymentIn : Option BookingPaymentRequest} {booking : BatteryReservation} {w : Wallet}
    {amount : ℤ} (h : Payable db now bookingId paymentIn userId booking)
    (hw : db.wallet.wallets.find? (fun w => w.userId = userId) = some w)
    (hnan : db.nanBalances w.id = false) (ha : paymentAmount paymentIn = some amount) :
    match (bookingUpdate (db.isFrozen w.id) amount).change w.balance with
    | .error e => (payForBooking now bookingId paymentIn userId).call db = (.error e, db)
    | .ok change => ∃ r db', (payForBooking now bookingId paymentIn userId).call db = (.ok r, db') ∧
      db'.wallet.balance w.id = w.balance + change := by
  have hrun : payForBooking now bookingId paymentIn userId (.fresh db) =
      settle now booking w (some amount) (.fresh db) := by
    rw [payForBooking_of_payable h, walletFor_of_find hw, ha]
  have hbalance : db.walletBalance w = some w.balance := by
    rw [Db.walletBalance, hnan]
    rfl
  unfold bookingUpdate
  dsimp only
  rcases hfrozen : db.isFrozen w.id with _ | _
  · rw [if_neg (by decide)]
    split_ifs with hlt
    · have hcovered : ¬ Covered (db.walletBalance w) (some amount) := fun hc =>
        absurd (hc amount rfl w.balance hbalance) (by omega)
      have hrefused : settle now booking w (some amount) (.fresh db) =
          (.error (.http 400 (insufficient (some w.balance) (some amount))), .fresh db) := by
        rw [settle, look_bind, Session.working_fresh, ensure_bind hfrozen]
        rw [ensure_bind_not hcovered, hbalance]
      exact call_eq (hrun.trans hrefused)
    · have hcovered : Covered (db.walletBalance w) (some amount) := by
        rw [hbalance]
        rintro _ ⟨⟩ _ ⟨⟩
        omega
      have hpasses : Passes db w (some amount) :=
        ⟨hfrozen, hcovered, .inr ⟨by rw [hbalance]; rfl, rfl⟩⟩
      refine ⟨_, _, call_eq (hrun.trans (settle_of_passes hpasses)), ?_⟩
      have hleft : balanceLeft (db.walletBalance w) (some amount) =
          some (floatSub w.balance amount) := by
        rw [hbalance]
        rfl
      have hset : (paid now booking w (some amount) db).wallet.balance w.id =
          floatSub w.balance amount := by
        have hwritten := balanceOf_set (Table.find?_mem hw)
          { w with balance := (balanceLeft (db.walletBalance w) (some amount)).getD 0 } rfl w.id
        rw [if_pos rfl] at hwritten
        refine hwritten.trans ?_
        rw [hleft]
        rfl
      rw [Session.committed_fresh, hset]
      omega
  · rw [if_pos rfl]
    have hrefused : settle now booking w (some amount) (.fresh db) =
        (.error (.http 403 "Wallet is frozen"), .fresh db) := by
      rw [settle, look_bind, Session.working_fresh, ensure_bind_not (by simp [hfrozen])]
    exact call_eq (hrun.trans hrefused)

/-! ## Any number of calls -/

inductive Call where
  /-- an operation of `WalletService`, with the rows it sees beside the wallet -/
  | service (db : Financial.Model.Db) (op : Op)
  /-- a payment that is in order -/
  | booking (isFrozen : Bool) (amount : ℤ)

def Call.update (cfg : Settings) (walletId : ℕ) : Call → Update Exc ℤ
  | .service db op => serviceUpdate cfg db op walletId
  | .booking isFrozen amount => bookingUpdate isFrozen amount

theorem locks_update {cfg : Settings} {walletId : ℕ} {call : Call} :
    (call.update cfg walletId).locks = false ↔
      ∃ isFrozen amount, call = .booking isFrozen amount := by
  cases call <;> simp [Call.update, serviceUpdate, bookingUpdate]

section Schedule

variable {ι : Type} [DecidableEq ι]

/-- The calls' steps on a wallet that holds `balance`, in the order of the schedule. -/
def runCalls (cfg : Settings) (walletId : ℕ) (calls : ι → Call) (balance : ℤ)
    (schedule : List ι) : World ι (LockedRow ι ℤ) (Phase Exc ℤ) :=
  run (next fun i => (calls i).update cfg walletId) (.start ⟨balance, none⟩ .idle) schedule

/-- Every payment, when it commits, finds in the wallet the balance that it has read. -/
def PaymentsCurrent (cfg : Settings) (walletId : ℕ) (calls : ι → Call) (balance : ℤ)
    (schedule : List ι) : Prop :=
  ∀ p i q isFrozen amount read change, schedule = p ++ i :: q →
    calls i = .booking isFrozen amount →
    (runCalls cfg walletId calls balance p).position i = .written read change →
    (runCalls cfg walletId calls balance p).store.value = read

variable [Fintype ι]

/-- **No lost update**, if and only if the payments are current. -/
theorem no_lost_update_iff (cfg : Settings) (walletId : ℕ) (calls : ι → Call) (balance : ℤ)
    (schedule : List ι) :
    (∀ p q, schedule = p ++ q → (runCalls cfg walletId calls balance p).store.value =
        balance + committedChanges (runCalls cfg walletId calls balance p)) ↔
      PaymentsCurrent cfg walletId calls balance schedule := by
  refine (exact_iff (fun i => (calls i).update cfg walletId) balance schedule).trans ?_
  rw [along_iff]
  constructor
  · intro h p i q isFrozen amount read change hp hcall hphase
    by_contra hne
    have hlocks : ((calls i).update cfg walletId).locks = false :=
      locks_update.mpr ⟨isFrozen, amount, hcall⟩
    exact h p i q hp ⟨hlocks, read, change, hphase, fun heq => hne heq.symm⟩
  · rintro h p i q hp ⟨hlocks, read, change, hphase, hne⟩
    obtain ⟨isFrozen, amount, hcall⟩ := locks_update.mp hlocks
    exact hne (h p i q isFrozen amount read change hp hcall hphase).symm

end Schedule

def depositAndPayment : Bool → Call
  | true => .service (.ofWallets sampleUsers sampleWallets)
      (.addBalance 1 (.finite 50 0) "Deposit" none "deposit" none none)
  | false => .booking false 4900

/-- The deposit is committed between the read and the write of the payment. -/
theorem deposit_lost :
    ¬ ∀ (calls : Bool → Call) (balance : ℤ) (schedule : List Bool),
      (runCalls {} 1 calls balance schedule).store.value =
        balance + committedChanges (runCalls {} 1 calls balance schedule) := by
  intro h
  exact absurd (h depositAndPayment 10000 [false, true, true, true, false, false])
    (by decide +kernel)

end WezuBackend.Bookings.ConcurrentPayments
