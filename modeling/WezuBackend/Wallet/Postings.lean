import WezuBackend.Wallet.Balance
import WezuBackend.Bookings.Payment
import WezuBackend.Rental.Swaps
import WezuBackend.Orders.Refund

/-!
# One ledger row for each change of a balance

Four modules change wallets: `WalletService`, the payment of a booking, the completion of a swap and
the refund of a return order.  A change is booked (`Booked`) if the call writes or settles exactly
one transaction of the wallet, whose amount is what the balance changed by and which carries the new
balance.

`WalletService` books every change, as long as a balance changes by what the column of the row keeps
of the amount (`KeepsMove`); the swap and the refund of a return order make none.  The payment of a
booking books none: its row has the amount with the other sign and carries no balance
(`changes_booked_iff`).
-/

namespace WezuBackend.Wallet.Postings

open Lib.Tables Lib.Atomicity.Tx Core.Base Core.Amounts Core.Letters Core.Floats
open Financial.Model Wallet.Service Wallet.Operations Wallet.Effects Wallet.Balance

/-! ## Booked changes -/

/-- The row is one of the wallet that the call has written or settled. -/
def PostsOn (db db' : Db) (walletId : ℕ) (txn : Transaction) : Prop :=
  Posts db db' txn ∧ txn.walletId = some walletId

/-- The row says what became of the balance. -/
def Tells (db db' : Db) (walletId : ℕ) (txn : Transaction) : Prop :=
  txn.amount = db'.balance walletId - db.balance walletId ∧
    txn.balanceAfter = some (db'.balance walletId)

/-- Every changed balance has exactly one row, and it says so. -/
def Booked (db db' : Db) : Prop :=
  ∀ k, db'.balance k ≠ db.balance k →
    ∃ txn, PostsOn db db' k txn ∧ Tells db db' k txn ∧
      ∀ txn', PostsOn db db' k txn' → txn' = txn

variable {db db' : Db}

theorem booked_of_balance (h : ∀ k, db'.balance k = db.balance k) : Booked db db' :=
  fun k hk => absurd (h k) hk

variable {a : ℤ} {w : Wallet}

variable {row : Transaction}

/-- The balance, as its column keeps it, changes by what the column of the row keeps of the amount.
-/
def KeepsMove (balance amount : ℤ) : Prop := column (balance + amount) - balance = column amount

/-- Below ten trillion rupees that is so. -/
theorem keepsMove_of_kept {balance amount : ℤ} (ha : Kept amount) (h : Kept (balance + amount)) :
    KeepsMove balance amount := by
  rw [KeepsMove, column_of_kept ha, column_of_kept h]
  omega

theorem booked_of_move {wallets : Table Wallet} (hkeeps : KeepsMove w.balance a)
    (hbalance : ∀ k, balanceOf wallets k = db.balance k) (hw : w ∈ wallets)
    (hwallets : db'.wallets = wallets.set (moved w a)) (hposts : Posts db db' row)
    (hwallet : row.walletId = some w.id) (hamount : row.amount = column a)
    (hafter : row.balanceAfter = some (column (w.balance + a)))
    (honly : ∀ txn, Posts db db' txn → txn = row) : Booked db db' := by
  have hmoved : ∀ k, db'.balance k =
      if k = w.id then column (w.balance + a) else db.balance k := fun k => by
    rw [Db.balance, hwallets, balanceOf_moved hw, hbalance]
  intro k hk
  by_cases hkw : k = w.id
  · subst hkw
    have hnew := hmoved w.id
    have hold : db.balance w.id = w.balance := (hbalance w.id).symm.trans (balanceOf_mem hw)
    rw [if_pos rfl] at hnew
    refine ⟨row, ⟨hposts, hwallet⟩, ⟨?_, ?_⟩, fun txn htxn => honly txn htxn.1⟩
    · rw [hamount, hnew, hold, hkeeps]
    · rw [hafter, hnew]
  · rw [hmoved k, if_neg hkw] at hk
    exact absurd rfl hk

theorem posts_add (hrow : row.id = db.transactions.freshKey)
    (h : ∀ txn, txn ∈ db'.transactions ↔ txn ∈ db.transactions ∨ txn = row) (txn : Transaction) :
    Posts db db' txn ↔ txn = row := by
  constructor
  · intro hposts
    rcases (h txn).mp hposts.1 with hold | hnew
    · exact absurd hold hposts.not_mem
    · exact hnew
  · rintro rfl
    refine ⟨(h txn).mpr (.inr rfl), .inl fun t ht hid => ?_⟩
    have hlt := Table.key_lt_freshKey ht
    rw [← hrow, ← hid] at hlt
    exact lt_irrefl _ hlt

theorem key_entry (w : Wallet) (a : ℤ) (ty : TxnType) (c : String) (st : TxnStatus) (d : String)
    (rt ri p : Option String) (id : ℕ) : Row.key (entry w a ty c st d rt ri p id) = id := rfl

theorem booked_posted {db db₁ db' : Db} (hkeeps : KeepsMove w.balance a) (hext : Extended db db₁)
    (hw : w ∈ db₁.wallets) {ty c st d rt ri p}
    (hwallets : db'.wallets = (posted db₁ w a ty c st d rt ri p).wallets)
    (htxns : db'.transactions = (posted db₁ w a ty c st d rt ri p).transactions) :
    Booked db db' := by
  have hrows : ∀ txn, txn ∈ db'.transactions ↔ txn ∈ db.transactions ∨
      txn = entry (shifted w a) a ty c st d rt ri p db₁.transactions.freshKey := fun txn => by
    rw [htxns, ← hext.transactions]
    exact mem_posted
  have hposts := posts_add (congrArg Table.freshKey hext.transactions) hrows
  exact booked_of_move hkeeps hext.balance hw hwallets ((hposts _).mpr rfl) rfl rfl rfl
    fun txn htxn => (hposts txn).mp htxn

/-! ## `WalletService` -/

variable {v : ℤ}

theorem booked_captured {t : Transaction} {p : String} (hkeeps : KeepsMove w.balance v)
    (ht : t ∈ db.transactions) (htw : t.walletId = some w.id) (hw : w ∈ db.wallets)
    (hs : t.status ≠ .success) (hwallets : db'.wallets = db.wallets.set (moved w v))
    (htxns : db'.transactions = db.transactions.set (captured t v (w.balance + v) p)) :
    Booked db db' := by
  have hnew : captured t v (w.balance + v) p ∉ db.transactions := fun hmem => by
    have hsame : captured t v (w.balance + v) p = t := Table.eq_of_key hmem ht rfl
    rw [← hsame] at hs
    exact hs rfl
  refine booked_of_move hkeeps (fun _ => rfl) hw hwallets ⟨?_, .inr ⟨hnew, rfl⟩⟩ htw rfl rfl ?_
  · rw [htxns]
    exact Table.mem_set.mpr (.inr ⟨rfl, t, ht, rfl⟩)
  · intro txn hposts
    have hmem := hposts.1
    rw [htxns] at hmem
    rcases Table.mem_set.mp hmem with ⟨hold, -⟩ | ⟨hrow, -⟩
    · exact absurd hold hposts.not_mem
    · exact hrow

/-- The reversal of a withdrawal is the only row posted: that of the hold is undone. -/
theorem booked_rejected {ty c d rt ri} {k : ℕ} {reason : Option String}
    (hkeeps : KeepsMove w.balance a) (hw : w ∈ db.wallets)
    (hwallets : db'.wallets = db.wallets.set (moved w a))
    (htxns : db'.transactions = marked
      (db.transactions.add (entry (shifted w a) a ty c .success d rt ri none)
        (key_entry _ _ _ _ _ _ _ _ _))
      (db.transactions.find? (isWithdrawalOf k)) (undone k reason)) : Booked db db' := by
  set row := entry (shifted w a) a ty c .success d rt ri none db.transactions.freshKey with hrow
  have hfresh : ∀ t ∈ db.transactions, t.id ≠ row.id := fun t ht =>
    (Table.key_lt_freshKey ht).ne
  have hadded : ∀ {txn : Transaction}, txn ∈ db.transactions.add
      (entry (shifted w a) a ty c .success d rt ri none) (key_entry _ _ _ _ _ _ _ _ _) ↔
        txn ∈ db.transactions ∨ txn = row := Table.mem_add_mk _
  have hposted : row ∈ db'.transactions := by
    rw [htxns]
    rcases hfound : db.transactions.find? (isWithdrawalOf k) with _ | t
    · exact hadded.mpr (.inr rfl)
    · refine Table.mem_set.mpr (.inl ⟨hadded.mpr (.inr rfl), ?_⟩)
      exact fun hid => hfresh t (Table.find?_mem hfound) hid.symm
  refine booked_of_move hkeeps (fun _ => rfl) hw hwallets ⟨hposted, .inl hfresh⟩ rfl rfl rfl ?_
  intro txn hposts
  have hmem := hposts.1
  rw [htxns] at hmem
  rcases mem_marked hmem with hmem | ⟨t, ht, rfl⟩
  · rcases hadded.mp hmem with hold | hnew
    · exact absurd hold hposts.not_mem
    · exact hnew
  · -- the row of the hold is undone, not settled
    rcases hposts.2 with hnew | ⟨-, hs⟩
    · exact absurd rfl (hnew t (Table.find?_mem ht))
    · cases hs

theorem booked_transferred {db db₁ db' : Db} (hext : Extended db db₁) {sw rw : Wallet}
    (hsends : KeepsMove sw.balance (-v)) (hreceives : KeepsMove rw.balance v)
    {ty c d rt ri ty' c' d' rt' ri'} (hsw : sw ∈ db₁.wallets) (hrw : rw ∈ db₁.wallets)
    (hne : sw.id ≠ rw.id)
    (hdb' : db' = posted (posted db₁ sw (-v) ty c .success d rt ri none) rw v ty' c'
      .success d' rt' ri'
      none) : Booked db db' := by
  subst hdb'
  set mid := posted db₁ sw (-v) ty c .success d rt ri none with hmid
  set last := posted mid rw v ty' c' .success d' rt' ri' none with hlast
  set debit :=
    entry (shifted sw (-v)) (-v) ty c .success d rt ri none db₁.transactions.freshKey with hdebit
  set credit :=
    entry (shifted rw v) v ty' c' .success d' rt' ri' none mid.transactions.freshKey with hcredit
  have hbalance : ∀ k, last.balance k = if k = rw.id then column (rw.balance + v) else
      if k = sw.id then column (sw.balance + -v) else db.balance k := fun k => by
    rw [← hext.balance k]
    exact balanceOf_transferred hsw hrw hne v k
  have hrows : ∀ txn, txn ∈ last.transactions ↔
      (txn ∈ db₁.transactions ∨ txn = debit) ∨ txn = credit := fun txn => by
    rw [hlast, mem_posted, hmid, mem_posted]
  have hold : ∀ t ∈ db.transactions, t.id < debit.id := fun t ht => by
    rw [← hext.transactions] at ht
    exact Table.key_lt_freshKey ht
  have hlater : debit.id < credit.id := by
    have hmem : debit ∈ mid.transactions := by
      rw [hmid, mem_posted]
      exact .inr rfl
    exact Table.key_lt_freshKey hmem
  have hdebited : Posts db last debit :=
    ⟨(hrows debit).mpr (.inl (.inr rfl)), .inl fun t ht => (hold t ht).ne⟩
  have hcredited : Posts db last credit :=
    ⟨(hrows credit).mpr (.inr rfl), .inl fun t ht => ((hold t ht).trans hlater).ne⟩
  have honly : ∀ txn, Posts db last txn → txn = debit ∨ txn = credit := by
    intro txn hposts
    rcases (hrows txn).mp hposts.1 with (hmem | rfl) | rfl
    · rw [hext.transactions] at hmem
      exact absurd hmem hposts.not_mem
    · exact .inl rfl
    · exact .inr rfl
  have hsender : db.balance sw.id = sw.balance :=
    (hext.balance sw.id).symm.trans (balanceOf_mem hsw)
  have hrecipient : db.balance rw.id = rw.balance :=
    (hext.balance rw.id).symm.trans (balanceOf_mem hrw)
  intro k hk
  by_cases hks : k = sw.id
  · subst hks
    have hnew := hbalance sw.id
    rw [if_neg hne, if_pos rfl] at hnew
    refine ⟨debit, ⟨hdebited, rfl⟩, ⟨?_, ?_⟩, ?_⟩
    · rw [hnew, hsender, hsends]
      rfl
    · rw [hnew]
      rfl
    · rintro txn ⟨hposts, hwallet⟩
      rcases honly txn hposts with rfl | rfl
      · rfl
      · exact absurd (Option.some.inj hwallet) hne.symm
  · by_cases hkr : k = rw.id
    · subst hkr
      have hnew := hbalance rw.id
      rw [if_pos rfl] at hnew
      refine ⟨credit, ⟨hcredited, rfl⟩, ⟨?_, ?_⟩, ?_⟩
      · rw [hnew, hrecipient, hreceives]
        rfl
      · rw [hnew]
        rfl
      · rintro txn ⟨hposts, hwallet⟩
        rcases honly txn hposts with rfl | rfl
        · exact absurd (Option.some.inj hwallet) hne
        · rfl
    · have hsame := hbalance k
      rw [if_neg hkr, if_neg hks] at hsame
      exact absurd hsame hk

/-- The wallets of the user keep a move by the amount. -/
def UserKeeps (db : Db) (userId : ℕ) (amount : ℤ) : Prop :=
  ∀ w ∈ db.wallets, w.userId = userId → KeepsMove w.balance amount

theorem UserKeeps.extended {db db₁ : Db} {u : ℕ} (h : UserKeeps db u a) (ho : Extended db db₁)
    (hw : w ∈ db₁.wallets) (hown : w.userId = u) : KeepsMove w.balance a := by
  rcases ho.empty_of_new w hw with hold | hzero
  · exact h w hold hown
  · rw [hzero, KeepsMove, zero_add, sub_zero]

/-- Every wallet that the call can move keeps the move. -/
def Exact (db : Db) : Op → Prop
  | .addBalance userId amount _ _ _ _ _ => ∀ v, toMoney amount = .ok v → UserKeeps db userId v
  | .deductBalance userId amount _ | .requestWithdrawal userId amount _ =>
    ∀ v, toMoney amount = .ok v → UserKeeps db userId (-v)
  | .applyRechargeCapture _ orderId _ amount _ => ∀ v intent, toMoney amount = .ok v →
    db.transactions.find? (isRechargeOf orderId) = some intent →
    ∀ w ∈ db.wallets, intent.walletId = some w.id → KeepsMove w.balance v
  | .rejectWithdrawalRequest requestId _ => ∀ req, db.withdrawalRequests.get? requestId = some req →
    ∀ w ∈ db.wallets, req.walletId = w.id → KeepsMove w.balance req.amount
  | .transferBalance senderId recipientPhone amount _ => ∀ v recipient, toMoney amount = .ok v →
    (db.users.find? fun u => u.phoneNumber = recipientPhone) = some recipient →
    UserKeeps db senderId (-v) ∧ UserKeeps db recipient.id v
  | .processRefund refundId => ∀ refund origTxn, db.refunds.get? refundId = some refund →
    db.transactions.get? refund.transactionId = some origTxn →
    ∀ w ∈ db.wallets, origTxn.walletId = some w.id → KeepsMove w.balance refund.amount
  | _ => True

/-- **What `WalletService` does is booked.** -/
theorem booked_effect {cfg : Settings} {op : Op} (hop : Exact db op) (he : Effect cfg db op db') :
    Booked db db' := by
  cases he with
  | unchanged => exact booked_of_balance fun _ => rfl
  | added ha hv ho =>
    exact booked_posted ((hop _ ha).extended ho.toExtended ho.mem ho.owner) ho.toExtended ho.mem
      rfl rfl
  | deducted ha hv ho hle =>
    exact booked_posted ((hop _ ha).extended ho.toExtended ho.mem ho.owner) ho.toExtended ho.mem
      rfl rfl
  | intentCreated ha hv ho hnew => exact booked_of_balance ho.balance
  | captured ha hv ht htw hw hu hl hf hn =>
    exact booked_captured (hop _ _ ha ht _ hw htw) (Table.find?_mem ht) htw hw (hl.found_ne ht)
      hn.wallets hn.transactions
  | intentFailed => exact booked_of_balance fun _ => rfl
  | requested ha hv ho hle =>
    exact booked_posted ((hop _ ha).extended ho.toExtended ho.mem ho.owner) ho.toExtended ho.mem
      rfl rfl
  | approved => exact booked_of_balance fun _ => rfl
  | rejected hr hs hw hrw hl hfr hfw hfs => exact booked_rejected (hop _ hr _ hw hrw) hw rfl rfl
  | transferred ha hv hr ho hsw hrw hsown hown hne hle =>
    obtain ⟨hsends, hreceives⟩ := hop _ _ ha hr
    exact booked_transferred ho (hsends.extended ho hsw hsown) (hreceives.extended ho hrw hown)
      hsw hrw hne rfl
  | refundInitiated => exact booked_of_balance fun _ => rfl
  | refundAbandoned => exact booked_of_balance fun _ => rfl
  | refunded hr hs ht hread htw hw =>
    exact booked_posted (hop _ _ hr ht _ hw htw) (extended_refl db) hw rfl rfl

/-! ## Bookings -/

section Bookings

open Bookings.Payment

variable {db db' : Bookings.Payment.Db} {now bookingId userId : ℕ}
  {paymentIn : Option BookingPaymentRequest}

/-- The balance of a wallet, unless it is NaN; a wallet that does not exist yet holds nothing. -/
def storedBalance (db : Bookings.Payment.Db) (walletId : ℕ) : Option ℤ :=
  match db.wallet.wallets.get? walletId with
  | some wallet => db.walletBalance wallet
  | none => some 0

/-- The row says what became of a balance, which is no NaN before or after. -/
def TellsPayment (before after : Option ℤ) (txn : Transaction) : Prop :=
  ∃ b ∈ before, ∃ b' ∈ after, txn.amount = b' - b ∧ txn.balanceAfter = some b'

/-- `Booked`, where a balance may be NaN. -/
def PaymentBooked (db db' : Bookings.Payment.Db) : Prop :=
  ∀ k, storedBalance db' k ≠ storedBalance db k →
    ∃ txn, PostsOn db.wallet db'.wallet k txn ∧
      TellsPayment (storedBalance db k) (storedBalance db' k) txn ∧
      ∀ txn', PostsOn db.wallet db'.wallet k txn' → txn' = txn

theorem storedBalance_walletFor (userId k : ℕ) (db : Bookings.Payment.Db) :
    storedBalance (walletFor userId db).2 k = storedBalance db k := by
  rw [walletFor]
  rcases db.wallet.wallets.find? fun w => w.userId = userId with _ | wallet
  swap
  · rfl
  dsimp only [openWallet, storedBalance]
  by_cases hk : k = db.wallet.wallets.freshKey
  · subst hk
    have hold : db.wallet.wallets.get? db.wallet.wallets.freshKey = none :=
      Table.get?_eq_none.mpr fun w hw => (Table.key_lt_freshKey hw).ne
    simp [Table.get?_add_fresh, hold, Db.walletBalance]
  · rw [Table.get?_add_ne hk]
    rcases hget : db.wallet.wallets.get? k with _ | w
    · rfl
    · have hid : w.id ≠ db.wallet.wallets.freshKey := by
        rw [← key_wallet, (Table.get?_eq_some.mp hget).2]
        exact hk
      simp [Db.walletBalance, hid]

/-- The wallet of a payment holds what the user has. -/
theorem storedBalance_of_walletFor (userId : ℕ) (db : Bookings.Payment.Db) :
    storedBalance (walletFor userId db).2 (walletFor userId db).1.id = userBalance userId db := by
  have hget : (walletFor userId db).2.wallet.wallets.get? (walletFor userId db).1.id =
      some (walletFor userId db).1 :=
    Table.get?_of_mem (Table.find?_mem (find_walletFor userId db))
  rw [← walletBalance_walletFor, storedBalance, hget]

theorem storedBalance_paid {booking : BatteryReservation} {amount : Option ℤ}
    (hw : w ∈ db.wallet.wallets) (k : ℕ) : storedBalance (paid now booking w amount db) k =
      if k = w.id then balanceLeft (db.walletBalance w) amount else storedBalance db k := by
  unfold storedBalance
  split_ifs with hk
  · have hget : db.wallet.wallets.get? w.id = some w := Table.get?_of_mem hw
    have hset : (paid now booking w amount db).wallet.wallets.get? k =
        some { w with balance := (balanceLeft (db.walletBalance w) amount).getD 0 } := by
      rw [hk]
      exact Table.get?_set_self hget
    rw [hset]
    exact walletBalance_paid now booking amount w db
  · have hset : (paid now booking w amount db).wallet.wallets.get? k =
        db.wallet.wallets.get? k := Table.get?_set_ne hk
    rw [hset]
    rcases hget : db.wallet.wallets.get? k with _ | x
    · rfl
    · have hid : x.id ≠ w.id := by
        rw [← key_wallet, (Table.get?_eq_some.mp hget).2]
        exact hk
      have hnan : (paid now booking w amount db).nanBalances x.id = db.nanBalances x.id :=
        Function.update_of_ne hid _ _
      dsimp only
      rw [Db.walletBalance, hnan]
      rfl

theorem paymentBooked_of_balance (h : ∀ k, storedBalance db' k = storedBalance db k) :
    PaymentBooked db db' := fun k hk => absurd (h k) hk

/-- The payment goes through, and the balance does not come out as it was. -/
def Accepted [Casing] (db : Bookings.Payment.Db) (now bookingId : ℕ)
    (paymentIn : Option BookingPaymentRequest) (userId : ℕ) : Prop :=
  ∃ booking, Payable db now bookingId paymentIn userId booking ∧
    Passes (walletFor userId db).2 (walletFor userId db).1 (paymentAmount paymentIn) ∧
    balanceLeft (userBalance userId db) (paymentAmount paymentIn) ≠ userBalance userId db

theorem storedBalance_accepted {booking : BatteryReservation} {amount : Option ℤ} (k : ℕ) :
    storedBalance (paid now booking (walletFor userId db).1 amount (walletFor userId db).2) k =
      if k = (walletFor userId db).1.id then balanceLeft (userBalance userId db) amount
      else storedBalance db k := by
  rw [storedBalance_paid (Table.find?_mem (find_walletFor userId db)), walletBalance_walletFor,
    storedBalance_walletFor]

/-- The row of a payment carries no balance. -/
theorem not_booked_paid {booking : BatteryReservation} {amount : Option ℤ}
    (h : balanceLeft (userBalance userId db) amount ≠ userBalance userId db) :
    ¬ PaymentBooked db
      (paid now booking (walletFor userId db).1 amount (walletFor userId db).2) := by
  intro hbooked
  have hchanged : storedBalance
      (paid now booking (walletFor userId db).1 amount (walletFor userId db).2)
        (walletFor userId db).1.id ≠ storedBalance db (walletFor userId db).1.id := by
    rw [storedBalance_accepted, if_pos rfl, ← storedBalance_walletFor userId,
      storedBalance_of_walletFor]
    exact h
  obtain ⟨txn, ⟨hposts, -⟩, ⟨_, -, _, -, -, hafter⟩, -⟩ := hbooked _ hchanged
  have hsame : (walletFor userId db).2.wallet.transactions = db.wallet.transactions := by
    rw [walletFor]
    rcases db.wallet.wallets.find? fun w => w.userId = userId with _ | w <;> rfl
  have hrow := (posts_add (congrArg Table.freshKey hsame)
    (fun txn => by rw [← hsame]; exact Table.mem_add) txn).mp hposts
  rw [hrow] at hafter
  cases hafter

theorem booked_payment_iff [Casing] [Capitals] (db : Bookings.Payment.Db)
    (now bookingId userId : ℕ) (paymentIn : Option BookingPaymentRequest) :
    PaymentBooked db ((payForBooking now bookingId paymentIn userId).call db).2 ↔
      ¬ Accepted db now bookingId paymentIn userId := by
  constructor
  · rintro hbooked ⟨booking, hpayable, hpasses, hchanges⟩
    rw [payForBooking_of_passes hpayable hpasses] at hbooked
    exact not_booked_paid hchanges hbooked
  · intro hnot
    refine paymentBooked_of_balance fun k => ?_
    rcases payForBooking_cases db now bookingId userId paymentIn with
      hsame | hsame | ⟨booking, hpayable, hpasses⟩
    · rw [hsame]
      rfl
    · rw [hsame, storedBalance_walletFor]
    · have hleft : balanceLeft (userBalance userId db) (paymentAmount paymentIn) =
          userBalance userId db := by
        by_contra hchanges
        exact hnot ⟨booking, hpayable, hpasses, hchanges⟩
      rw [payForBooking_of_passes hpayable hpasses, storedBalance_accepted, hleft]
      split_ifs with hk
      · rw [hk, ← storedBalance_walletFor userId, storedBalance_of_walletFor]
      · rfl

end Bookings

/-! ## Refunds of return orders -/

section OrderRefunds

open Orders.Service Orders.Refund

variable {wallets : Table Wallet}

def SameWallets (wallets : Table Wallet) (db : RefundDb) : Prop := db.wallets = wallets

theorem throughout_onFleet {α : Type} (x : Fleet.Model.FleetTx α) :
    Throughout (SameWallets wallets) (onFleet x) := fun _ hc hw => ⟨hc, hw⟩

theorem throughout_commitRefund : Throughout (SameWallets wallets) commitRefund :=
  (throughout_onFleet _).bind fun _ => throughout_commit

theorem keeps_failRefund (now : ℕ) (plan : RefundPlan) (e : Exc) :
    Keeps (SameWallets wallets) (failRefund now plan e) := by
  have hwrite : Throughout (SameWallets wallets)
      (update (storeStatus now "failed" plan.order) : RefundTx Unit) :=
        throughout_update fun _ h => h
  exact hwrite.keeps.bind fun _ => throughout_commitRefund.keeps.bind fun _ =>
    (readOnly_raise e).keeps

theorem keeps_finishRefund (now : ℕ) (scope : RequestScope) (key : Option String)
    (plan : RefundPlan) : Keeps (SameWallets wallets) (finishRefund now scope key plan) := by
  have hwrite : Throughout (SameWallets wallets)
      (update (storeStatus now "processed" plan.order) : RefundTx Unit) :=
    throughout_update fun _ h => h
  refine hwrite.keeps.bind fun _ => (throughout_onFleet _).keeps.bind fun _ => ?_
  exact throughout_commitRefund.keeps.bind fun _ => (readOnly_pure _).keeps

theorem keeps_creditWallet (userId : ℕ) (plan : RefundPlan) :
    Keeps (SameWallets wallets) (creditWallet userId plan) := by
  intro s hc _
  obtain ⟨t, hraises, hcommitted⟩ := creditWallet_raises userId plan s
  rw [hraises]
  refine ⟨?_, fun a u h => by cases h⟩
  rw [hcommitted]
  exact hc

theorem keeps_settleRefund (now : ℕ) (scope : RequestScope) (key : Option String)
    (answer : GatewayAnswer) (plan : RefundPlan) :
    Keeps (SameWallets wallets) (settleRefund now scope key answer plan) := by
  unfold settleRefund
  rcases plan.destination with ⟨t, p⟩ | userId | _
  · rcases answer with g | error
    · have henter : Throughout (SameWallets wallets)
          (enterGateway ⟨p, plan.amount, withRefundStatus now "processed" plan.order⟩) :=
        fun _ hc hw => ⟨hc, hw⟩
      refine henter.keeps.bind fun _ => ?_
      refine (throughout_update fun db h => ?_).keeps.bind fun _ => keeps_finishRefund _ _ _ _
      exact (of_exceptRefunds (exceptRefunds_bookRefund now t plan g db)).2.1.trans h
    · refine (throughout_update fun db h => ?_).keeps.bind fun _ => keeps_failRefund _ _ _
      exact (of_exceptRefunds (exceptRefunds_bookFailure plan db)).2.1.trans h
  · refine (keeps_creditWallet userId plan).bind fun _ => ?_
    refine Keeps.bind (throughout_update fun _ h => ?_).keeps fun _ => keeps_finishRefund _ _ _ _
    exact h
  · exact keeps_failRefund _ _ _

theorem wallets_refund (now : ℕ) (scope : RequestScope) (answer : GatewayAnswer)
    (orderReference : String) (db : RefundDb) :
    ((processRefund now scope answer orderReference).call db).2.wallets = db.wallets := by
  have hkeeps : Keeps (SameWallets db.wallets) (processRefund now scope answer orderReference) := by
    refine (readOnly_lift _).keeps.bind fun key => (throughout_onFleet _).keeps.bind fun found => ?_
    rcases found with _ | data
    · refine readOnly_look.keeps.bind fun _ => (readOnly_lift _).keeps.bind fun plan => ?_
      exact keeps_settleRefund _ _ _ _ _
    · exact (readOnly_pure _).keeps
  exact hkeeps.call (I := SameWallets db.wallets) rfl

end OrderRefunds

/-! ## The ledger -/

/-- **One row for each change of a balance.**  Every call of `WalletService` whose moves the columns
keep books what it changes, and every completion of a swap and every refund of a return order
changes no wallet; the payment of a booking books what it changes if and only if it does not go
through. -/
theorem changes_booked_iff [Casing] [Capitals] :
    (∀ cfg db op, Exact db op → Booked db (step cfg db op)) ∧
    (∀ now swapId completeIn currentUser db,
      ((Rental.Swaps.completeSwap now swapId completeIn currentUser).call db).2.wallet
        = db.wallet) ∧
    (∀ now scope answer orderReference db,
      ((Orders.Refund.processRefund now scope answer orderReference).call db).2.wallets
        = db.wallets) ∧
    ∀ db now bookingId userId paymentIn, PaymentBooked db
        ((Bookings.Payment.payForBooking now bookingId paymentIn userId).call db).2 ↔
      ¬ Accepted db now bookingId paymentIn userId :=
  ⟨fun cfg db op hop => booked_effect hop (step_effect cfg db op), Rental.Swaps.completeSwap_wallet,
    wallets_refund, booked_payment_iff⟩

/-- User 1 has 50.00 and a booking that is not paid yet. -/
def unpaidBooking : Bookings.Payment.Db where
  wallet := .ofWallets sampleUsers ⟨[⟨1, 1, 5000⟩], List.nodup_singleton _⟩
  reservations :=
    ⟨[{ id := 1, userId := 1, endTime := 10, updatedAt := 0 }], List.nodup_singleton _⟩

/-- A deduction of 49.00, and a payment of 60.00, which is refused. -/
theorem changes_booked_iff_sample :
    Booked unpaidBooking.wallet (step {} unpaidBooking.wallet
      (.deductBalance 1 (.finite 49 0) "Payment")) ∧
    PaymentBooked unpaidBooking ((Bookings.Payment.payForBooking 1 1
      (some { amount := some (.number 60) }) 1).call unpaidBooking).2 := by
  refine ⟨changes_booked_iff.1 _ _ _ fun v hv w hw _ => ?_,
    (changes_booked_iff.2.2.2 unpaidBooking 1 1 1 _).mpr ?_⟩
  · obtain rfl : 4900 = v := Except.ok.inj hv
    obtain rfl := List.mem_singleton.mp hw
    exact keepsMove_of_kept (by decide) (by decide)
  · rintro ⟨-, -, ⟨-, hcovered, -⟩, -⟩
    exact absurd (hcovered 6000 (by decide +kernel) 5000 (by decide +kernel)) (by decide)

/-- The payment of 49.00 is entered as +49.00, without the balance. -/
theorem payment_not_booked : ¬ PaymentBooked unpaidBooking
    ((Bookings.Payment.payForBooking 1 1 none 1).call unpaidBooking).2 := by
  intro hbooked
  have hbefore : storedBalance unpaidBooking 1 = some 5000 := by decide +kernel
  have hafter : storedBalance
      ((Bookings.Payment.payForBooking 1 1 none 1).call unpaidBooking).2 1 = some 100 := by
    decide +kernel
  have hrows : ∀ txn ∈ ((Bookings.Payment.payForBooking 1 1 none 1).call
      unpaidBooking).2.wallet.transactions.rows, txn.amount = 4900 ∧ txn.balanceAfter = none := by
    decide +kernel
  obtain ⟨txn, ⟨hposts, -⟩, ⟨_, -, _, -, -, hcarried⟩, -⟩ :=
    hbooked 1 (by rw [hbefore, hafter]; decide)
  rw [(hrows txn hposts.1).2] at hcarried
  cases hcarried

end WezuBackend.Wallet.Postings
