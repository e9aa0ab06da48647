import WezuBackend.Wallet.Effects

/-!
# The transfer endpoint beside `transfer_balance`

`POST /transfer` of `app/api/v1/wallet_enhanced.py` moves money between two users with code of its
own.  Its two ledger rows name no user, which the column does not allow: the flush before the commit
raises, and everything is rolled back (`transferToUser_rejects`).  The service names the users, but
raises too, on SQLite only after its commit: `transferBalance_moves_iff` says when it has moved the
money by then.  So the two agree on the transfers that move none, and on no other
(`transfers_agree_iff`).
-/

namespace WezuBackend.Wallet.TransferEndpoint

open Lib.Tables Lib.Atomicity Lib.Atomicity.Tx Core.Base Core.Amounts Financial.Model Wallet.Service
open Wallet.Operations Wallet.Effects

/-! ## The endpoint -/

/-- The columns of a user's account that the endpoint checks. -/
structure AccountFlags where
  isActive : Bool
  isDeleted : Bool

/-- A `Transaction` object before it is flushed; columns that were not given are null. -/
structure PendingTransaction where
  userId : Option ℕ := none
  walletId : Option ℕ
  amount : ℤ
  balanceAfter : Option ℤ
  type : Option TxnType
  category : Option String
  status : TxnStatus
  description : Option String
  referenceType : Option String
  referenceId : Option String

/-- The row of a pending transaction; `transactions.user_id` is not nullable. -/
def flushTransaction (txn : PendingTransaction) : WalletTx Transaction := do
  let userId ← demand txn.userId .integrityError
  addTransaction fun id =>
    { id, userId, walletId := txn.walletId, amount := txn.amount, balanceAfter := txn.balanceAfter,
      type := txn.type, category := txn.category, status := txn.status,
      description := txn.description, referenceType := txn.referenceType,
      referenceId := txn.referenceId }

/-- `except ValueError`, `except Exception`: the session is rolled back. -/
def rollbackOn (e : Exc) : WalletTx Transaction := do
  rollback
  match e with
  | .valueError message => raise (.http 400 message)
  | e => raise e

/-- What stands in the `try` of the endpoint. -/
def moveMoney (currentUser recipient : User) (amountValue : ℤ) (note : Option String) :
    WalletTx Transaction := do
  -- `for user_id in sorted([current_user.id, recipient.id])`
  let walletA ← getWallet (min currentUser.id recipient.id)
  let walletB ← getWallet (max currentUser.id recipient.id)
  let senderWallet := if currentUser.id ≤ recipient.id then walletA else walletB
  let recipientWallet := if currentUser.id ≤ recipient.id then walletB else walletA
  let senderBalance ← stored senderWallet.balance
  let recipientBalance ← stored recipientWallet.balance
  ensure (amountValue ≤ senderBalance) (.http 400 "Insufficient balance")
  let senderWallet := { senderWallet with balance := senderBalance - amountValue }
  let recipientWallet := { recipientWallet with balance := recipientBalance + amountValue }
  saveWallet senderWallet
  saveWallet recipientWallet
  let senderAfter ← stored senderWallet.balance
  let senderTxn : PendingTransaction :=
    { walletId := some senderWallet.id, amount := -amountValue, balanceAfter := some senderAfter,
      type := some .debit, category := some "transfer_out", status := .success,
      description := some ((truthy note).getD
        s!"Transfer to {(truthy (some recipient.phoneNumber)).getD (toString recipient.id)}"),
      referenceType := some "user_transfer", referenceId := some (toString recipient.id) }
  let recipientAfter ← stored recipientWallet.balance
  let recipientTxn : PendingTransaction :=
    { walletId := some recipientWallet.id, amount := amountValue,
      balanceAfter := some recipientAfter, type := some .credit, category := some "transfer_in",
      status := .success,
      description := some ((truthy note).getD
        s!"Transfer from {(truthy (some currentUser.phoneNumber)).getD (toString currentUser.id)}"),
      referenceType := some "user_transfer", referenceId := some (toString currentUser.id) }
  let senderTxn ← flushTransaction senderTxn
  let _ ← flushTransaction recipientTxn
  commitLedger
  -- `db.refresh(sender_txn)`
  ensure senderTxn.status.Readable .lookupError
  return senderTxn

def transferToUser (accounts : ℕ → AccountFlags) (currentUser : User) (recipientPhone : String)
    (amount : Amount) (note : Option String := none) : WalletTx Transaction := do
  let amountValue ← money amount
  ensure (0 < amountValue) (.http 400 "Transfer amount must be greater than zero")
  let db ← look
  let recipient ← demand (db.users.find? fun u => u.phoneNumber = recipientPhone)
    (.http 404 "Recipient not found")
  ensure ((accounts recipient.id).isActive = true ∧ (accounts recipient.id).isDeleted = false)
    (.http 400 "Recipient account is not active")
  ensure (recipient.id ≠ currentUser.id) (.http 400 "Cannot transfer to yourself")
  handle (moveMoney currentUser recipient amountValue note) rollbackOn

/-! ## When the service transfers -/

/-- What the user's wallet holds; a wallet that does not exist yet holds nothing. -/
def userBalance (db : Db) (userId : ℕ) : ℤ :=
  match db.wallets.find? fun w => w.userId = userId with
  | some wallet => wallet.balance
  | none => 0

/-- The amount is one, the phone number is another user's, the sender holds the amount, and the
amounts that come up have at most 28 digits. -/
def Transferable (db : Db) (senderId : ℕ) (recipientPhone : String) (amount : Amount) : Prop :=
  ∃ v recipient, toMoney amount = .ok v ∧ 0 < v ∧
    (db.users.find? fun u => u.phoneNumber = recipientPhone) = some recipient ∧
    recipient.id ≠ senderId ∧ v ≤ userBalance db senderId ∧ Fits (userBalance db senderId) ∧
    Fits (userBalance db recipient.id) ∧ Fits (userBalance db recipient.id + v)

variable {u : ℕ}

variable {w : Wallet}

theorem Opened.userBalance_eq {db db' : Db} (h : Opened db u w db') :
    w.balance = userBalance db u := by
  unfold userBalance
  rcases hfind : db.wallets.find? fun w => w.userId = u with _ | w₀
  · rcases h.empty_of_new w h.mem with hold | hzero
    · have hnot := Table.find?_eq_none.mp hfind w hold
      simp [h.owner] at hnot
    · exact hzero
  · rw [h.same w₀ hfind]

theorem getWallet_succeeds {s : Session Db} (h : (s.working.users.get? u).isSome ∨
      (s.working.wallets.find? fun w => w.userId = u).isSome) :
    ∃ w t, getWallet u false s = (.ok w, t) := by
  rcases hfind : s.working.wallets.find? fun w => w.userId = u with _ | w
  · rw [hfind] at h
    obtain ⟨user, huser⟩ := Option.isSome_iff_exists.mp (h.resolve_right (by simp))
    simp only [getWallet, look_bind, hfind, demand_bind huser]
    exact ⟨_, _, rfl⟩
  · simp only [getWallet, look_bind, hfind]
    exact ⟨w, s, rfl⟩

variable {s t : Session Db}

theorem getWallet_other {u v : ℕ} (hne : v ≠ u) (h : getWallet u false s = (.ok w, t)) :
    (t.working.wallets.find? fun w => w.userId = v) =
      s.working.wallets.find? fun w => w.userId = v := by
  simp only [getWallet, bind_ok, look_ok] at h
  obtain ⟨db, _, ⟨rfl, rfl⟩, h⟩ := h
  rcases hfind : s.working.wallets.find? fun w => w.userId = u with _ | w₀
  · simp only [hfind, bind_ok, demand_ok, addWallet_ok, Bool.false_eq_true, if_false, pure_ok] at h
    obtain ⟨_, _, ⟨-, rfl⟩, _, _, ⟨rfl, rfl⟩, rfl, rfl⟩ := h
    have hnot : decide (u = v) = false := decide_eq_false hne.symm
    rw [Table.find?_add, hnot]
    simp
  · simp only [hfind, pure_ok] at h
    obtain ⟨-, rfl⟩ := h
    rfl

variable {db : Db} {x y : ℕ}

variable {s₁ s₂ : Session Db} {wa wb : Wallet}

/-- Both wallets, the one of the lower user id first: each has the balance it had before. -/
theorem lockedWallets (hne : x ≠ y)
    (ha : getWallet x false (.fresh db) = (.ok wa, s₁)) (hb : getWallet y false s₁ = (.ok wb, s₂)) :
    wa.userId = x ∧ wa.balance = userBalance db x ∧ wb.userId = y ∧
      wb.balance = userBalance db y := by
  have hoa := (getWallet_ok ha).2
  have hob := (getWallet_ok hb).2
  have hkeep : userBalance s₁.working y = userBalance db y := by
    unfold userBalance
    rw [getWallet_other hne.symm ha]
    rfl
  exact ⟨hoa.owner, Opened.userBalance_eq hoa, hob.owner,
    (Opened.userBalance_eq hob).trans hkeep⟩

theorem lockedWallets_balance (hne : y ≠ x)
    (ha : getWallet (min x y) false (.fresh db) = (.ok wa, s₁))
    (hb : getWallet (max x y) false s₁ = (.ok wb, s₂)) :
    (if wa.userId = x then wa else wb).balance = userBalance db x ∧
      (if wb.userId = y then wb else wa).balance = userBalance db y := by
  have hminmax : min x y ≠ max x y := by omega
  obtain ⟨hownA, hbalA, hownB, hbalB⟩ := lockedWallets hminmax ha hb
  rcases Nat.lt_or_gt_of_ne hne with hlt | hlt
  · have hmin : min x y = y := min_eq_right hlt.le
    have hmax : max x y = x := max_eq_left hlt.le
    rw [hmin] at hownA hbalA
    rw [hmax] at hownB hbalB
    rw [if_neg (hownA ▸ hne), if_neg (hownB ▸ hne.symm)]
    exact ⟨hbalB, hbalA⟩
  · have hmin : min x y = x := min_eq_left hlt.le
    have hmax : max x y = y := max_eq_right hlt.le
    rw [hmin] at hownA hbalA
    rw [hmax] at hownB hbalB
    rw [if_pos hownA, if_pos hownB]
    exact ⟨hbalA, hbalB⟩

variable {v : ℤ}

theorem hasWallet_of_pos (hv : 0 < v) (h : v ≤ userBalance db u) :
    (db.wallets.find? fun w => w.userId = u).isSome := by
  unfold userBalance at h
  rcases hfind : db.wallets.find? fun w => w.userId = u with _ | w
  · rw [hfind] at h
    dsimp only at h
    omega
  · rfl

theorem lockedWallets_succeed {recipient : User}
    (hx : (db.wallets.find? fun w => w.userId = x).isSome)
    (hy : db.users.get? y = some recipient) (hne : y ≠ x) :
    ∃ wa s₁ wb s₂, getWallet (min x y) false (.fresh db) = (.ok wa, s₁) ∧
      getWallet (max x y) false s₁ = (.ok wb, s₂) := by
  have hfirst : (((Session.fresh db).working.users.get? (min x y)).isSome ∨
      ((Session.fresh db).working.wallets.find? fun w => w.userId = min x y).isSome) := by
    rcases Nat.lt_or_gt_of_ne hne with hlt | hlt
    · rw [min_eq_right hlt.le]
      exact .inl (by simp [hy])
    · rw [min_eq_left hlt.le]
      exact .inr hx
  obtain ⟨wa, s₁, ha⟩ := getWallet_succeeds hfirst
  have husers : s₁.working.users = db.users := by rw [(getWallet_ok ha).2.rest]; rfl
  have hsecond : ((s₁.working.users.get? (max x y)).isSome ∨
      (s₁.working.wallets.find? fun w => w.userId = max x y).isSome) := by
    rcases Nat.lt_or_gt_of_ne hne with hlt | hlt
    · have hother : max x y ≠ min x y := by omega
      rw [getWallet_other hother ha, max_eq_left hlt.le]
      exact .inr hx
    · rw [max_eq_right hlt.le, husers]
      exact .inl (by simp [hy])
  obtain ⟨wb, s₂, hb⟩ := getWallet_succeeds hsecond
  exact ⟨wa, s₁, wb, s₂, ha, hb⟩

variable {amount : Amount} {phone : String}

theorem moveBalance_succeeds_iff {senderId : ℕ} (note : Option String) :
    (∃ r t, moveBalance senderId phone amount note (.fresh db) = (.ok r, t)) ↔
      Transferable db senderId phone amount ∧ db.engine = .sqlite := by
  constructor
  · rintro ⟨r, t, h⟩
    simp only [moveBalance, bind_ok, money_ok, look_ok, demand_ok, ensure_ok, stored_ok,
      saveWallet_ok, addTransaction_ok, commitLedger_ok, pure_ok] at h
    obtain ⟨v, _, ⟨ha, rfl⟩, _, _, ⟨hv, rfl⟩, _, _, ⟨rfl, rfl⟩, recipient, _, ⟨hr, rfl⟩, h⟩ := h
    obtain ⟨_, _, ⟨hne, rfl⟩, wa, s₁, hwa, wb, s₂, hwb, h⟩ := h
    obtain ⟨_, _, ⟨⟨hfs, rfl⟩, rfl⟩, _, _, ⟨hle, rfl⟩, _, _, rfl, _, _, ⟨-, rfl⟩, h⟩ := h
    obtain ⟨_, _, ⟨-, rfl⟩, _, _, ⟨⟨hfr, rfl⟩, rfl⟩, _, _, rfl, _, _, ⟨⟨hfa, rfl⟩, rfl⟩, h⟩ := h
    obtain ⟨_, _, ⟨-, rfl⟩, _, _, ⟨hcommit, rfl⟩, -⟩ := h
    obtain ⟨hsb, hrb⟩ := lockedWallets_balance hne hwa hwb
    rw [hsb] at hle hfs
    rw [hrb] at hfr hfa
    refine ⟨⟨v, recipient, ha, hv, hr, hne, hle, hfs, hfr, hfa⟩, ?_⟩
    have hengine : s₂.working.engine = db.engine := by
      rw [(getWallet_ok hwb).2.rest, (getWallet_ok hwa).2.rest]
      rfl
    refine hengine ▸ hcommit.resolve_right fun hread => ?_
    exact absurd (hread _ (Table.mem_add.mpr (.inr rfl))) (by simp [inColumns])
  · rintro ⟨⟨v, recipient, ha, hv, hr, hne, hle, hfs, hfr, hfa⟩, hengine⟩
    have hget : db.users.get? recipient.id = some recipient :=
      Table.get?_of_mem (Table.find?_mem hr)
    obtain ⟨wa, s₁, wb, s₂, hwa, hwb⟩ :=
      lockedWallets_succeed (hasWallet_of_pos hv hle) hget hne
    obtain ⟨hsb, hrb⟩ := lockedWallets_balance hne hwa hwb
    have hafter : Fits ((if wa.userId = senderId then wa else wb).balance - v) := by
      rw [hsb]
      unfold Fits at hfs ⊢
      omega
    rw [← hsb] at hle hfs
    rw [← hrb] at hfr hfa
    have hstored : ∀ {m : ℤ} (h : Fits m) (s : Session Db), stored m s = (.ok m, s) :=
      fun h s => stored_ok.mpr ⟨⟨h, rfl⟩, rfl⟩
    rw [moveBalance, bind_of_ok (money_ok.mpr ⟨ha, rfl⟩), ensure_bind hv, look_bind,
      Session.working_fresh, demand_bind hr, ensure_bind hne, bind_of_ok hwa, bind_of_ok hwb]
    dsimp only
    rw [bind_of_ok (hstored hfs _), ensure_bind hle, bind_of_ok ((saveWallet_ok (u := ())).mpr rfl),
      bind_of_ok (hstored hafter _), bind_of_ok (addTransaction_ok.mpr ⟨rfl, rfl⟩),
      bind_of_ok (hstored hfr _), bind_of_ok ((saveWallet_ok (u := ())).mpr rfl),
      bind_of_ok (hstored hfa _), bind_of_ok (addTransaction_ok.mpr ⟨rfl, rfl⟩),
      bind_of_ok ((commitLedger_ok (u := ())).mpr ⟨.inl ?_, rfl⟩)]
    · exact ⟨_, _, rfl⟩
    · rw [← hengine, (getWallet_ok hwb).2.rest, (getWallet_ok hwa).2.rest]
      rfl

/-- The service raises in any case: the row that it loads again has a status that it cannot load. -/
theorem transferBalance_raises (db : Db) (senderId : ℕ) (phone : String) (amount : Amount)
    (note : Option String) :
    ∃ e, (transferBalance senderId phone amount note (.fresh db)).1 = .error e := by
  rcases h : transferBalance senderId phone amount note (.fresh db) with ⟨e | r, t⟩
  · exact ⟨e, rfl⟩
  · obtain ⟨hmove, hread⟩ := refreshed_ok.mp h
    have hsuccess : r.status = .success := by
      simp only [moveBalance, bind_ok, addTransaction_ok, pure_ok] at hmove
      obtain ⟨_, _, -, _, _, -, _, _, -, _, _, -, _, _, -, _, _, -, _, _, -, hmove⟩ := hmove
      obtain ⟨_, _, -, _, _, -, _, _, -, _, _, -, _, _, ⟨rfl, -⟩, hmove⟩ := hmove
      obtain ⟨_, _, -, _, _, -, _, _, -, _, _, -, _, _, -, rfl, -⟩ := hmove
      rfl
    exact absurd rfl (hsuccess ▸ ne_success_of_readable (hread r rfl))

/-- The two rows are committed before the exception. -/
theorem moveBalance_rows {senderId : ℕ} {note : Option String} {r : Transaction} {t : Session Db}
    (h : moveBalance senderId phone amount note (.fresh db) = (.ok r, t)) :
    t.committed.transactions.rows.length = db.transactions.rows.length + 2 := by
  simp only [moveBalance, bind_ok, look_ok, saveWallet_ok, addTransaction_ok, commitLedger_ok,
    pure_ok, money_ok, demand_ok, ensure_ok, stored_ok] at h
  obtain ⟨_, _, ⟨-, rfl⟩, _, _, ⟨-, rfl⟩, _, _, ⟨rfl, rfl⟩, _, _, ⟨-, rfl⟩, h⟩ := h
  obtain ⟨_, _, ⟨-, rfl⟩, wa, s₁, hwa, wb, s₂, hwb, h⟩ := h
  obtain ⟨_, _, ⟨-, rfl⟩, _, _, ⟨-, rfl⟩, _, _, rfl, _, _, ⟨-, rfl⟩, h⟩ := h
  obtain ⟨_, _, ⟨-, rfl⟩, _, _, ⟨-, rfl⟩, _, _, rfl, _, _, ⟨-, rfl⟩, h⟩ := h
  obtain ⟨_, _, ⟨-, rfl⟩, _, _, ⟨-, rfl⟩, -, rfl⟩ := h
  have hsame : s₂.working.transactions = db.transactions := by
    rw [(getWallet_ok hwb).2.transactions, (getWallet_ok hwa).2.transactions]
    rfl
  simp [Table.add, Table.insert, hsame]

theorem transferBalance_moves_iff {senderId : ℕ} (note : Option String) :
    (transferBalance senderId phone amount note (.fresh db)).2.committed ≠ db ↔
      Transferable db senderId phone amount ∧ db.engine = .sqlite := by
  rw [transferBalance, refreshed_snd, ← moveBalance_succeeds_iff note]
  rcases h : moveBalance senderId phone amount note (.fresh db) with ⟨e | r, t⟩
  · have hsame : t.committed = db := atomic_moveBalance _ _ _ h
    simp [hsame]
  · refine iff_of_true ?_ ⟨r, t, rfl⟩
    intro hsame
    have hrows := moveBalance_rows h
    rw [hsame] at hrows
    omega

/-! ## The endpoint never transfers -/

variable {r : Transaction}

theorem flushTransaction_rejects {txn : PendingTransaction} (h : txn.userId = none) :
    flushTransaction txn s ≠ (.ok r, t) := by
  intro hok
  simp only [flushTransaction, bind_ok, demand_ok] at hok
  obtain ⟨_, _, ⟨hsome, -⟩, -⟩ := hok
  rw [h] at hsome
  cases hsome

variable {note : Option String}

theorem tentative_flushTransaction (txn : PendingTransaction) :
    Tentative (flushTransaction txn) :=
  (tentative_demand _ _).bind fun _ => tentative_addTransaction _ _

theorem moveMoney_rejects {u recipient : User} : moveMoney u recipient v note s ≠ (.ok r, t) := by
  intro hok
  simp only [moveMoney, bind_ok] at hok
  obtain ⟨_, _, -, _, _, -, _, _, -, _, _, -, _, _, -, _, _, -, _, _, -, _, _, -, _, _, -, h⟩ := hok
  obtain ⟨_, _, hflush, -⟩ := h
  exact flushTransaction_rejects rfl hflush

theorem atomic_moveMoney {u recipient : User} : Atomic (moveMoney u recipient v note) := by
  refine atomic_bind (tentative_getWallet _) fun _ => ?_
  refine atomic_bind (tentative_getWallet _) fun _ => ?_
  refine atomic_bind (tentative_stored _) fun _ => atomic_bind (tentative_stored _) fun _ => ?_
  refine atomic_bind (tentative_ensure _ _) fun _ => atomic_bind (tentative_update _) fun _ => ?_
  refine atomic_bind (tentative_update _) fun _ => atomic_bind (tentative_stored _) fun _ => ?_
  refine atomic_bind (tentative_stored _) fun _ s e t h => ?_
  rcases bind_error.mp h with h | ⟨_, _, hflush, -⟩
  · exact (tentative_flushTransaction _).eq h
  · exact absurd hflush (flushTransaction_rejects rfl)

theorem rollbackOn_rejects {e : Exc} :
    rollbackOn e s ≠ (.ok r, t) := by
  intro hok
  simp only [rollbackOn, bind_ok] at hok
  obtain ⟨_, _, -, hok⟩ := hok
  cases e <;> exact absurd hok (by simp)

theorem tentative_rollbackOn (e : Exc) : Tentative (rollbackOn e) := by
  intro s
  cases e <;> rfl

/-- The call raises, and leaves the state as it was. -/
def Rejects (x : WalletTx Transaction) (db : Db) : Prop := ∃ e, x.call db = (.error e, db)

/-- **The endpoint never transfers.** -/
theorem transferToUser_rejects (accounts : ℕ → AccountFlags) (db : Db) (u : User) (phone : String)
    (amount : Amount) (note : Option String) :
    Rejects (transferToUser accounts u phone amount note) db := by
  have hatomic : Atomic (transferToUser accounts u phone amount note) := by
    refine atomic_bind (tentative_money _) fun v => atomic_bind (tentative_ensure _ _) fun _ => ?_
    refine atomic_bind tentative_look fun _ => atomic_bind (tentative_demand _ _) fun x => ?_
    refine atomic_bind (tentative_ensure _ _) fun _ => ?_
    refine atomic_bind (tentative_ensure _ _) fun _ => ?_
    intro s e t h
    rcases hmove : moveMoney u x v note s with ⟨e' | r, s'⟩
    · rw [handle_of_error hmove] at h
      rw [(tentative_rollbackOn e').eq h, atomic_moveMoney _ _ _ hmove]
    · exact absurd hmove moveMoney_rejects
  rcases h : transferToUser accounts u phone amount note (.fresh db) with ⟨e | r, t⟩
  · exact ⟨e, by rw [call_eq h, hatomic _ _ _ h]; rfl⟩
  · simp only [transferToUser, bind_ok] at h
    obtain ⟨_, _, -, _, _, -, _, s', -, x, s'', -, _, _, -, _, s₁, -, h⟩ := h
    rcases hmove : moveMoney u x _ note s₁ with ⟨e | r', s₂⟩
    · rw [handle_of_error hmove] at h
      exact absurd h rollbackOn_rejects
    · exact absurd hmove moveMoney_rejects

/-! ## Agreement -/

/-- The call returns and leaves the state `db'`. -/
def Succeeds (x : WalletTx Transaction) (db db' : Db) : Prop := ∃ r, x.call db = (.ok r, db')

/-- A transfer of `v`: one debit of the sender, one credit of the recipient, and the two balances
together are what they were. -/
structure Transfers (db db' : Db) (senderId recipientId : ℕ) (v : ℤ) : Prop where
  rows : (db'.transactions.rows.drop db.transactions.rows.length).map
      (fun txn => (txn.userId, txn.amount, txn.type)) =
    [(senderId, -v, some .debit), (recipientId, v, some .credit)]
  sum : userBalance db' senderId + userBalance db' recipientId =
    userBalance db senderId + userBalance db recipientId

/-- Endpoint and service both reject, or both make the same transfer. -/
def Agree (accounts : ℕ → AccountFlags) (db : Db) (u : User) (phone : String) (amount : Amount)
    (note : Option String) : Prop :=
  (Rejects (transferToUser accounts u phone amount note) db ∧
    Rejects (transferBalance u.id phone amount note) db) ∨
  ∃ d e recipient v, Succeeds (transferToUser accounts u phone amount note) db d ∧
    Succeeds (transferBalance u.id phone amount note) db e ∧
    (db.users.find? fun x => x.phoneNumber = phone) = some recipient ∧ toMoney amount = .ok v ∧
    Transfers db d u.id recipient.id v ∧ Transfers db e u.id recipient.id v ∧
    userBalance d u.id = userBalance e u.id ∧
    userBalance d recipient.id = userBalance e recipient.id

theorem not_succeeds_of_rejects {x : WalletTx Transaction} {db' : Db} (h : Rejects x db) :
    ¬ Succeeds x db db' := by
  obtain ⟨e, he⟩ := h
  rintro ⟨r, hok⟩
  cases he.symm.trans hok

theorem transferBalance_rejects_iff {senderId : ℕ} (note : Option String) :
    Rejects (transferBalance senderId phone amount note) db ↔
      ¬ (Transferable db senderId phone amount ∧ db.engine = .sqlite) := by
  obtain ⟨e, he⟩ := transferBalance_raises db senderId phone amount note
  rw [← transferBalance_moves_iff note, not_not]
  constructor
  · rintro ⟨_, hcall⟩
    exact congrArg Prod.snd hcall
  · exact fun hsame => ⟨e, Prod.ext he hsame⟩

/-- **Endpoint and service agree** exactly on the transfers that move no money: all of them on
PostgreSQL, which refuses the rows of both; and those that the service refuses, since the amount is
not a positive one, the phone number is no user's or the sender's own, the sender holds less, or an
amount has too many digits. -/
theorem transfers_agree_iff (accounts : ℕ → AccountFlags) (db : Db) (u : User) (phone : String)
    (amount : Amount) (note : Option String) :
    Agree accounts db u phone amount note ↔
      ¬ (Transferable db u.id phone amount ∧ db.engine = .sqlite) := by
  have hendpoint := transferToUser_rejects accounts db u phone amount note
  rw [← transferBalance_rejects_iff note]
  constructor
  · rintro (⟨-, hservice⟩ | ⟨d, e, recipient, v, hok, -⟩)
    · exact hservice
    · exact absurd hok (not_succeeds_of_rejects hendpoint)
  · exact fun hservice => .inl ⟨hendpoint, hservice⟩

/-- Two users; the first one's wallet holds 500.00. -/
def transferDb : Db :=
  .ofWallets ⟨[⟨1, "3000000001"⟩, ⟨2, "3000000002"⟩], by decide⟩ ⟨[⟨1, 1, 50000⟩], by decide⟩

/-- The service raises with the money moved, the endpoint with nothing changed. -/
theorem transfer_disagreement : ¬ ∀ (accounts : ℕ → AccountFlags) (db : Db) (u : User)
    (phone : String) (amount : Amount) (note : Option String),
    db.users.get? u.id = some u →
    (∀ r, (db.users.find? fun x => x.phoneNumber = phone) = some r →
      (accounts r.id).isActive = true ∧ (accounts r.id).isDeleted = false) →
    Agree accounts db u phone amount note := by
  intro hall
  have hagree := hall (fun _ => ⟨true, false⟩) transferDb ⟨1, "3000000001"⟩ "3000000002"
    (.finite 200 0) none (by decide) (fun _ _ => ⟨rfl, rfl⟩)
  have hmoved : ((transferBalance 1 "3000000002" (.finite 200 0)).call transferDb).2.balance 1 =
      30000 := by
    decide +kernel
  rcases hagree with ⟨-, e, herror⟩ | ⟨d, e, recipient, v, ⟨r, hok⟩, -⟩
  · have hkept : transferDb.balance 1 = 30000 := by
      rw [herror] at hmoved
      exact hmoved
    revert hkept
    decide
  · have hfail : ((transferToUser (fun _ => ⟨true, false⟩) ⟨1, "3000000001"⟩ "3000000002"
        (.finite 200 0)).call transferDb).1.isOk = false := by
      decide +kernel
    rw [hok] at hfail
    cases hfail

end WezuBackend.Wallet.TransferEndpoint
