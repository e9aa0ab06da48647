import WezuBackend.Wallet.Service

/-!
# What one call to `WalletService` does

`Op` is a call with its arguments, and `step` the stored state after it.  `Effect` lists what a call
can have done, one case for each way a program of `WalletService` ends: it left the store alone, or
it moved a balance and posted the row that goes with it, or it moved one row to its next status.
`step_effect` is the only place where the programs are unfolded; the invariants are proved from it.
-/

namespace WezuBackend.Wallet.Operations

open Lib.Tables Lib.Atomicity Lib.Atomicity.Tx Core.Base Core.Amounts Core.Floats
open Financial.Model Wallet.Service

/-- A call to `WalletService`. -/
inductive Op where
  | addBalance (userId : ℕ) (amount : Amount) (description : String)
      (gatewayPaymentId : Option String) (category : String)
      (referenceType referenceId : Option String)
  | deductBalance (userId : ℕ) (amount : Amount) (description : String)
  | createRechargeIntent (userId : ℕ) (amount : Amount) (orderId description : String)
  | applyRechargeCapture (now : ℕ) (orderId paymentId : String) (amount : Amount)
      (notedUserId : Option ℕ)
  | markRechargeIntentFailed (orderId : String) (paymentId : Option String)
  | requestWithdrawal (userId : ℕ) (amount : Amount) (bankDetails : String)
  | approveWithdrawalRequest (requestId : ℕ) (payoutReference : Option String)
  | rejectWithdrawalRequest (requestId : ℕ) (reason : Option String)
  | transferBalance (senderId : ℕ) (recipientPhone : String) (amount : Amount)
      (note : Option String)
  | initiateRefund (now : ℕ) (transactionId : ℕ) (amount : Option Amount) (reason : String)
  | processRefund (refundId : ℕ)

/-- The program of a call; what it returns is dropped. -/
def program (cfg : Settings) : Op → WalletTx Unit
  | .addBalance u a d g c rt ri => do let _ ← addBalance u a d g c rt ri
  | .deductBalance u a d => do let _ ← deductBalance u a d
  | .createRechargeIntent u a o d => do let _ ← createRechargeIntent u a o d
  | .applyRechargeCapture now o p a n => do let _ ← applyRechargeCapture cfg now o p a n
  | .markRechargeIntentFailed o p => do let _ ← markRechargeIntentFailed o p
  | .requestWithdrawal u a b => do let _ ← requestWithdrawal u a b
  | .approveWithdrawalRequest k p => do let _ ← approveWithdrawalRequest k p
  | .rejectWithdrawalRequest k r => do let _ ← rejectWithdrawalRequest k r
  | .transferBalance s p a n => do let _ ← transferBalance s p a n
  | .initiateRefund now k a r => do let _ ← initiateRefund now k a r
  | .processRefund k => do let _ ← processRefund k

/-- A call on the stored state: what it raises or returns, and the stored state after it. -/
def exec (cfg : Settings) (db : Db) (op : Op) : Except Exc Unit × Db := (program cfg op).call db

/-- The stored state after a call. -/
def step (cfg : Settings) (db : Db) (op : Op) : Db := (exec cfg db op).2

/-! ## Rows written -/

variable {s t : Session Db} {v : ℤ}

@[simp] theorem money_ok {a : Amount} :
    money a s = (.ok v, t) ↔ toMoney a = .ok v ∧ s = t := by
  simp [money]

@[simp] theorem stored_ok {m v : ℤ} :
    stored m s = (.ok v, t) ↔ (Fits m ∧ m = v) ∧ s = t := by
  simp [stored]

@[simp] theorem addWallet_ok {mk : ℕ → Wallet} {hmk : ∀ k, (mk k).id = k} {r : Wallet} :
    addWallet mk hmk s = (.ok r, t) ↔ mk s.working.wallets.freshKey = r ∧
      ⟨s.committed, { s.working with wallets := s.working.wallets.add mk hmk }⟩ = t := by
  simp [addWallet, bind_ok]

variable {u : Unit}

/-- The wallet as its `float` column keeps it. -/
def kept (wallet : Wallet) : Wallet := { wallet with balance := column wallet.balance }

@[simp] theorem saveWallet_ok {x : Wallet} :
    saveWallet x s = (.ok u, t) ↔
      ⟨s.committed, { s.working with wallets := s.working.wallets.set (kept x) }⟩ = t := by
  simp [saveWallet, kept]

@[simp] theorem addTransaction_ok {mk : ℕ → Transaction} {hmk : ∀ k, (mk k).id = k}
    {r : Transaction} :
    addTransaction mk hmk s = (.ok r, t) ↔ inColumns (mk s.working.transactions.freshKey) = r ∧
      ⟨s.committed, { s.working with
        transactions := s.working.transactions.add (fun id => inColumns (mk id)) hmk }⟩ = t := by
  simp [addTransaction, bind_ok]

/-- The rows that match can be loaded. -/
def Loadable (txns : Table Transaction) (p : Transaction → Bool) : Prop :=
  ∀ txn ∈ txns, p txn → txn.status.Readable

@[simp] theorem firstTransaction_ok {p : Transaction → Bool} {r : Option Transaction} :
    firstTransaction p s = (.ok r, t) ↔
      (Loadable s.working.transactions p ∧ s.working.transactions.find? p = r) ∧ s = t := by
  simp [firstTransaction, Loadable, bind_ok, and_assoc]

@[simp] theorem getTransaction_ok {k : ℕ} {r : Option Transaction} :
    getTransaction k s = (.ok r, t) ↔
      ((∀ txn ∈ s.working.transactions.get? k, txn.status.Readable) ∧
        s.working.transactions.get? k = r) ∧ s = t := by
  simp [getTransaction, bind_ok, and_assoc]

@[simp] theorem commitLedger_ok :
    commitLedger s = (.ok u, t) ↔
      (s.working.engine = .sqlite ∨ ∀ txn ∈ s.working.transactions, txn.status.Readable) ∧
        ⟨s.working, s.working⟩ = t := by
  simp [commitLedger, bind_ok]

theorem commitLedger_error {e : Exc} (h : commitLedger s = (.error e, t)) :
    .dataError = e ∧ s = t := by
  unfold commitLedger at h
  rw [look_bind] at h
  rcases bind_error.mp h with h | ⟨_, _, -, h⟩
  · exact (ensure_error.mp h).2
  · cases h

@[simp] theorem saveTransaction_ok {x : Transaction} :
    saveTransaction x s = (.ok u, t) ↔
      ⟨s.committed, { s.working with transactions := s.working.transactions.set x }⟩ = t := by
  simp [saveTransaction]

@[simp] theorem addWithdrawalRequest_ok {mk : ℕ → WalletWithdrawalRequest}
    {hmk : ∀ k, (mk k).id = k} {r : WalletWithdrawalRequest} :
    addWithdrawalRequest mk hmk s = (.ok r, t) ↔
      { mk s.working.withdrawalRequests.freshKey with
        amount := column (mk s.working.withdrawalRequests.freshKey).amount } = r ∧
      ⟨s.committed, { s.working with
        withdrawalRequests := s.working.withdrawalRequests.add
          (fun id => { mk id with amount := column (mk id).amount }) hmk }⟩ = t := by
  simp [addWithdrawalRequest, bind_ok]

@[simp] theorem saveWithdrawalRequest_ok {x : WalletWithdrawalRequest} :
    saveWithdrawalRequest x s = (.ok u, t) ↔
      ⟨s.committed, { s.working with withdrawalRequests := s.working.withdrawalRequests.set x }⟩
        = t := by
  simp [saveWithdrawalRequest]

@[simp] theorem addRefund_ok {mk : ℕ → Refund} {hmk : ∀ k, (mk k).id = k} {r : Refund} :
    addRefund mk hmk s = (.ok r, t) ↔
      { mk s.working.refunds.freshKey with
        amount := column (mk s.working.refunds.freshKey).amount } = r ∧
      ⟨s.committed, { s.working with
        refunds := s.working.refunds.add
          (fun id => { mk id with amount := column (mk id).amount }) hmk }⟩ = t := by
  simp [addRefund, bind_ok]

@[simp] theorem saveRefund_ok {x : Refund} :
    saveRefund x s = (.ok u, t) ↔
      ⟨s.committed, { s.working with refunds := s.working.refunds.set x }⟩ = t := by
  simp [saveRefund]

/-! ## Rows read again -/

/-- The refresh of a row leaves the session as the operation does. -/
theorem refreshed_snd {α : Type} (row : α → Option Transaction) (operation : WalletTx α)
    (s : Session Db) : (refreshed row operation s).2 = (operation s).2 := by
  rcases h : operation s with ⟨e | a, t⟩
  · rw [refreshed, bind_of_error h]
  · rw [refreshed, bind_of_ok h]
    by_cases hread : ∀ txn ∈ row a, txn.status.Readable
    · rw [ensure_bind hread]
      rfl
    · rw [ensure_bind_not hread]

theorem refreshed_ok {α : Type} {row : α → Option Transaction} {operation : WalletTx α} {a : α} :
    refreshed row operation s = (.ok a, t) ↔
      operation s = (.ok a, t) ∧ ∀ txn ∈ row a, txn.status.Readable := by
  simp only [refreshed, bind_ok, ensure_ok, pure_ok]
  constructor
  · rintro ⟨_, _, hrun, _, _, ⟨hread, rfl⟩, rfl, rfl⟩
    exact ⟨hrun, hread⟩
  · rintro ⟨hrun, hread⟩
    exact ⟨_, _, hrun, (), _, ⟨hread, rfl⟩, rfl, rfl⟩

theorem ne_success_of_readable {status : TxnStatus} (h : status.Readable) : status ≠ .success := by
  rintro rfl
  exact h

/-- A row of a withdrawal or recharge that is found is not settled: it could not be loaded. -/
theorem Loadable.found_ne {txns : Table Transaction} {p : Transaction → Bool} {txn : Transaction}
    (h : Loadable txns p) (hfound : txns.find? p = some txn) : txn.status ≠ .success :=
  ne_success_of_readable (h txn (Table.find?_mem hfound) (Table.find?_prop hfound))

/-! ## Wallets opened -/

/-- What was created on the way from `db` to `db'` are wallets, and they are empty. -/
structure Extended (db db' : Db) : Prop where
  rest : db' = { db with wallets := db'.wallets }
  kept : ∀ w ∈ db.wallets, w ∈ db'.wallets
  empty_of_new : ∀ w ∈ db'.wallets, w ∈ db.wallets ∨ w.balance = 0
  balance : ∀ k, db'.balance k = db.balance k

/-- `get_wallet` answered `wallet`, the user's, and left the state `db'`. -/
structure Opened (db : Db) (userId : ℕ) (wallet : Wallet) (db' : Db) : Prop
    extends Extended db db' where
  found : db'.wallets.find? (fun w => w.userId = userId) = some wallet
  same : ∀ w, db.wallets.find? (fun w => w.userId = userId) = some w → w = wallet

variable {db db' : Db} {w : Wallet}

theorem Opened.mem {u : ℕ} (h : Opened db u w db') : w ∈ db'.wallets :=
  Table.find?_mem h.found

theorem Opened.owner {u : ℕ} (h : Opened db u w db') :
    w.userId = u := by
  simpa using Table.find?_prop h.found

theorem extended_refl (db : Db) : Extended db db where
  rest := rfl
  kept _ h := h
  empty_of_new _ h := .inl h
  balance _ := rfl

theorem Extended.trans {db db₁ db₂ : Db} (h : Extended db db₁) (h' : Extended db₁ db₂) :
    Extended db db₂ where
  rest := by rw [h'.rest, h.rest]
  kept x hx := h'.kept x (h.kept x hx)
  empty_of_new x hx := by
    rcases h'.empty_of_new x hx with hx | hx
    · exact h.empty_of_new x hx
    · exact .inr hx
  balance k := (h'.balance k).trans (h.balance k)

theorem Extended.transactions {db db₁ : Db} (h : Extended db db₁) :
    db₁.transactions = db.transactions := by rw [h.rest]

theorem Extended.withdrawalRequests {db db₁ : Db} (h : Extended db db₁) :
    db₁.withdrawalRequests = db.withdrawalRequests := by rw [h.rest]

theorem Extended.refunds {db db₁ : Db} (h : Extended db db₁) : db₁.refunds = db.refunds := by
  rw [h.rest]

variable {userId : ℕ}

theorem opened_create {db : Db} (h : db.wallets.find? (fun w => w.userId = userId) = none) :
    Opened db userId { id := db.wallets.freshKey, userId, balance := 0 }
      { db with wallets := db.wallets.add fun id => { id, userId, balance := 0 } } where
  rest := rfl
  kept w hw := Table.mem_add.mpr (.inl hw)
  empty_of_new w hw := by
    rcases Table.mem_add.mp hw with h | rfl
    · exact .inl h
    · exact .inr rfl
  balance k := balanceOf_add rfl k
  found := by
    rw [Table.find?_add, h]
    simp
  same w hw := by rw [h] at hw; cases hw

theorem getWallet_ok {wallet : Wallet} (h : getWallet userId false s = (.ok wallet, t)) :
    t.committed = s.committed ∧ Opened s.working userId wallet t.working := by
  simp only [getWallet, bind_ok, look_ok] at h
  obtain ⟨db, _, ⟨rfl, rfl⟩, h⟩ := h
  rcases hw : s.working.wallets.find? fun w => w.userId = userId with _ | w
  · simp only [hw, bind_ok, demand_ok, addWallet_ok, Bool.false_eq_true, if_false, pure_ok] at h
    obtain ⟨_, _, ⟨-, rfl⟩, _, _, ⟨rfl, rfl⟩, rfl, rfl⟩ := h
    exact ⟨rfl, opened_create hw⟩
  · simp only [hw, pure_ok] at h
    obtain ⟨rfl, rfl⟩ := h
    exact ⟨rfl, extended_refl s.working, hw, fun w' hw' => Option.some.inj (hw'.symm.trans hw)⟩

/-! ## Effects -/

/-- A row posted on a wallet at its balance. -/
def entry (wallet : Wallet) (amount : ℤ) (type : TxnType) (category : String)
    (status : TxnStatus) (description : String)
    (referenceType referenceId razorpayPaymentId : Option String) (id : ℕ) : Transaction :=
  inColumns
    { id, userId := wallet.userId, walletId := some wallet.id, amount,
      balanceAfter := some wallet.balance, type := some type, category := some category, status,
      description := some description, referenceType, referenceId, razorpayPaymentId }

def shifted (wallet : Wallet) (amount : ℤ) : Wallet :=
  { wallet with balance := wallet.balance + amount }

/-- The wallet with its balance moved, as it is stored. -/
def moved (wallet : Wallet) (amount : ℤ) : Wallet := kept (shifted wallet amount)

@[simp] theorem moved_balance (w : Wallet) (a : ℤ) :
    (moved w a).balance = column (w.balance + a) := rfl

/-- Move the wallet's balance by the amount and post the row that says so. -/
def posted (db : Db) (wallet : Wallet) (amount : ℤ) (type : TxnType) (category : String)
    (status : TxnStatus) (description : String)
    (referenceType referenceId razorpayPaymentId : Option String) : Db :=
  { db with
    wallets := db.wallets.set (moved wallet amount)
    transactions := db.transactions.add (entry (shifted wallet amount) amount type category status
      description referenceType referenceId razorpayPaymentId) }

variable {a : ℤ}

theorem mem_posted {db : Db} {ty c st d rt ri p} {txn : Transaction} :
    txn ∈ (posted db w a ty c st d rt ri p).transactions ↔ txn ∈ db.transactions ∨
      txn = entry (shifted w a) a ty c st d rt ri p db.transactions.freshKey :=
  Table.mem_add_mk fun _ => rfl

theorem sum_posted {db : Db} {ty c st d rt ri p} (f : Transaction → ℤ) :
    (posted db w a ty c st d rt ri p).transactions.sum f = db.transactions.sum f +
      f (entry (shifted w a) a ty c st d rt ri p db.transactions.freshKey) :=
  Table.sum_add_mk (fun _ => rfl) f

theorem balanceOf_moved {wallets : Table Wallet} (hw : w ∈ wallets) (a : ℤ) (k : ℕ) :
    balanceOf (wallets.set (moved w a)) k =
      if k = w.id then column (w.balance + a) else balanceOf wallets k :=
  balanceOf_set hw (moved w a) rfl k

/-- A balance that its column keeps moves by the amount. -/
theorem balanceOf_moved_of_kept {wallets : Table Wallet} (hw : w ∈ wallets)
    (h : Kept (w.balance + a)) (k : ℕ) : balanceOf (wallets.set (moved w a)) k =
      balanceOf wallets k + if k = w.id then a else 0 := by
  rw [balanceOf_moved hw]
  split_ifs with hk
  · rw [column_of_kept h, hk, balanceOf_mem hw]
  · omega

theorem mem_set_moved {wallets : Table Wallet} {w x : Wallet}
    (h : x ∈ wallets.set (moved w a)) : x ∈ wallets ∨ x = moved w a := by
  rcases Table.mem_set.mp h with ⟨hx, -⟩ | ⟨rfl, -⟩
  · exact .inl hx
  · exact .inr rfl

theorem mem_moved_of_ne {wallets : Table Wallet} {w x : Wallet} (hx : x ∈ wallets)
    (hne : x.id ≠ w.id) : x ∈ wallets.set (moved w a) :=
  Table.mem_set.mpr (.inl ⟨hx, hne⟩)

theorem balanceOf_transferred {wallets : Table Wallet} {sw rw : Wallet} (hsw : sw ∈ wallets)
    (hrw : rw ∈ wallets) (hne : sw.id ≠ rw.id) (v : ℤ) (k : ℕ) :
    balanceOf ((wallets.set (moved sw (-v))).set (moved rw v)) k =
      if k = rw.id then column (rw.balance + v) else
        if k = sw.id then column (sw.balance + -v) else balanceOf wallets k := by
  rw [balanceOf_moved (mem_moved_of_ne hrw hne.symm), balanceOf_moved hsw]

/-- Rewrite a row of the ledger, if there is one. -/
def marked (txns : Table Transaction) (txn : Option Transaction) (f : Transaction → Transaction) :
    Table Transaction :=
  match txn with
  | none => txns
  | some txn => txns.set (f txn)

theorem mem_marked {txns : Table Transaction} {txn : Option Transaction}
    {f : Transaction → Transaction} {x : Transaction} (h : x ∈ marked txns txn f) :
    x ∈ txns ∨ ∃ t ∈ txn, x = f t := by
  rcases txn with _ | t
  · exact .inl h
  · rcases Table.mem_set.mp h with ⟨hx, -⟩ | ⟨rfl, -⟩
    · exact .inl hx
    · exact .inr ⟨t, rfl, rfl⟩

/-- The row of a withdrawal once it is paid out. -/
def paidOut (payoutReference : Option String) (txn : Transaction) : Transaction :=
  { txn with
    status := .success
    description := ((truthy payoutReference).map
      fun ref => s!"Withdrawal payout processed ({ref})").or txn.description }

/-- The row of a withdrawal once its hold is undone. -/
def undone (requestId : ℕ) (reason : Option String) (txn : Transaction) : Transaction :=
  { txn with
    status := .failed
    description := ((truthy reason).map
      fun r => s!"Withdrawal request #{requestId} rejected: {r}").or txn.description }

/-- Every outbox row belongs to a notification. -/
def OutboxKeyed (db : Db) : Prop :=
  ∀ o ∈ db.notificationOutbox, ∃ n ∈ db.notifications, n.id = o.notificationId

/-- The announcement of a recharge on some channels: nothing but notifications and outbox rows is
written, and of the latter one for each channel. -/
structure Announced (channels : List String) (userId : ℕ) (paymentId : String) (db db' : Db) :
    Prop where
  rest : db' = { db with
    notifications := db'.notifications, notificationOutbox := db'.notificationOutbox }
  keyed : OutboxKeyed db → OutboxKeyed db'
  outbox : OutboxKeyed db → ∃ rows : List NotificationOutbox,
    db'.notificationOutbox.rows = db.notificationOutbox.rows ++ rows ∧
    rows.map (fun o => (o.userId, o.channel, o.idempotencyKey)) = channels.map fun c =>
      (userId, c, some s!"wallet_recharge_captured:{paymentId}:{c}")

def captured (intent : Transaction) (amount balanceAfter : ℤ) (paymentId : String) :
    Transaction :=
  inColumns { intent with
    status := .success, amount, balanceAfter := some balanceAfter,
    razorpayPaymentId := some paymentId,
    description := some s!"Wallet recharge captured ({paymentId})" }

def failedIntent (paymentId : Option String) (intent : Transaction) : Transaction :=
  { intent with
    status := .failed, razorpayPaymentId := (truthy paymentId).or intent.razorpayPaymentId }

/-- What a call can have done to the stored state. -/
inductive Effect (cfg : Settings) (db : Db) : Op → Db → Prop
  | unchanged (op : Op) : Effect cfg db op db
  | added {u a d g c rt ri v w db₁} (ha : toMoney a = .ok v) (hv : 0 < v)
      (ho : Opened db u w db₁) :
      Effect cfg db (.addBalance u a d g c rt ri) (posted db₁ w v .credit c .success d rt ri g)
  | deducted {u a d v w db₁} (ha : toMoney a = .ok v) (hv : 0 < v) (ho : Opened db u w db₁)
      (hle : v ≤ w.balance) :
      Effect cfg db (.deductBalance u a d)
        (posted db₁ w (-v) .debit "withdrawal" .success d none none none)
  | intentCreated {u a o d v w db₁} (ha : toMoney a = .ok v) (hv : 0 < v)
      (ho : Opened db u w db₁)
      (hnew : ∀ t ∈ db.transactions, t.walletId = some w.id → isRechargeOf o t = false) :
      Effect cfg db (.createRechargeIntent u a o d)
        { db₁ with
          transactions := db₁.transactions.add
            (entry w v .credit "deposit" .pending d (some "wallet_recharge") (some o) none) }
  | captured {now o p a n v t w db₁} (ha : toMoney a = .ok v) (hv : 0 < v)
      (ht : db.transactions.find? (isRechargeOf o) = some t) (htw : t.walletId = some w.id)
      (hw : w ∈ db.wallets) (hu : ∀ u ∈ n, w.userId = u)
      (hl : Loadable db.transactions (isRechargeOf o)) (hf : Fits (w.balance + v))
      (hn : Announced rechargeChannels w.userId p
        { db with
          wallets := db.wallets.set (moved w v)
          transactions := db.transactions.set (captured t v (w.balance + v) p) } db₁) :
      Effect cfg db (.applyRechargeCapture now o p a n) db₁
  | intentFailed {o p t} (ht : db.transactions.find? (isRechargeOf o) = some t)
      (hl : Loadable db.transactions (isRechargeOf o)) :
      Effect cfg db (.markRechargeIntentFailed o p)
        { db with transactions := db.transactions.set (failedIntent p t) }
  | requested {u a b v w db₁} (ha : toMoney a = .ok v) (hv : 0 < v) (ho : Opened db u w db₁)
      (hle : v ≤ w.balance) :
      Effect cfg db (.requestWithdrawal u a b)
        { posted db₁ w (-v) .debit "withdrawal_request" .pending
            s!"Withdrawal request #{db₁.withdrawalRequests.freshKey}" (some "withdrawal_request")
            (some (toString db₁.withdrawalRequests.freshKey)) none with
          withdrawalRequests := db₁.withdrawalRequests.add fun id =>
            { id, walletId := w.id, amount := column v, bankDetails := b, status := .requested } }
  | approved {k p r} (hr : db.withdrawalRequests.get? k = some r) (hs : r.status = .requested)
      (hl : Loadable db.transactions (isWithdrawalOf k)) :
      Effect cfg db (.approveWithdrawalRequest k p)
        { db with
          transactions := marked db.transactions (db.transactions.find? (isWithdrawalOf k))
            (paidOut p)
          withdrawalRequests := db.withdrawalRequests.set { r with status := .processed } }
  | rejected {k reason r w d} (hr : db.withdrawalRequests.get? k = some r)
      (hs : r.status = .requested) (hw : w ∈ db.wallets) (hrw : r.walletId = w.id)
      (hl : Loadable db.transactions (isWithdrawalOf k)) (hfr : Fits r.amount)
      (hfw : Fits w.balance) (hfs : Fits (w.balance + r.amount)) :
      Effect cfg db (.rejectWithdrawalRequest k reason)
        { db with
          wallets := db.wallets.set (moved w r.amount)
          transactions := marked
            (db.transactions.add (entry (shifted w r.amount) r.amount .credit "withdrawal_reversal"
              .success d (some "withdrawal_request") (some (toString k)) none))
            (db.transactions.find? (isWithdrawalOf k)) (undone k reason)
          withdrawalRequests := db.withdrawalRequests.set { r with status := .rejected } }
  | transferred {s phone a note v sw rw db₁ ds dr ks kr recipient} (ha : toMoney a = .ok v)
      (hv : 0 < v) (hr : (db.users.find? fun u => u.phoneNumber = phone) = some recipient)
      (ho : Extended db db₁) (hsw : sw ∈ db₁.wallets) (hrw : rw ∈ db₁.wallets)
      (hsown : sw.userId = s) (hown : rw.userId = recipient.id) (hne : sw.id ≠ rw.id)
      (hle : v ≤ sw.balance) :
      Effect cfg db (.transferBalance s phone a note)
        (posted (posted db₁ sw (-v) .debit "transfer" .success ds (some "transfer") (some ks) none)
          rw v .credit "transfer" .success dr (some "transfer") (some kr) none)
  | refundInitiated {now k a why t v} (ht : db.transactions.get? k = some t)
      (hread : t.status.Readable) (hc : t.type = some .credit)
      (hnone : db.refunds.find? (isOpenRefundOf k) = none)
      (ha : toMoney (a.getD (.ofMoney t.amount)) = .ok v) (hv : 0 < v) (hf : Fits t.amount)
      (hle : v ≤ t.amount) :
      Effect cfg db (.initiateRefund now k a why)
        { db with
          refunds := db.refunds.add fun id =>
            { id, transactionId := k, amount := column v, reason := some why, status := .pending,
              createdAt := now } }
  | refundAbandoned {k r} (hr : db.refunds.get? k = some r) (hs : r.status = .pending) :
      Effect cfg db (.processRefund k)
        { db with refunds := db.refunds.set { r with status := .failed } }
  | refunded {k r t w d} (hr : db.refunds.get? k = some r) (hs : r.status = .pending)
      (ht : db.transactions.get? r.transactionId = some t) (hread : t.status.Readable)
      (htw : t.walletId = some w.id) (hw : w ∈ db.wallets) :
      Effect cfg db (.processRefund k)
        { posted db w r.amount .credit "refund" .success d (some "refund")
            (some (toString k)) none with
          refunds := db.refunds.set { r with status := .processed } }

/-! ## The announcement of a recharge -/

@[simp] theorem addNotification_ok {mk : ℕ → Notification} {hmk : ∀ k, (mk k).id = k}
    {r : Notification} :
    addNotification mk hmk s = (.ok r, t) ↔ mk s.working.notifications.freshKey = r ∧
      ⟨s.committed, { s.working with notifications := s.working.notifications.add mk hmk }⟩
        = t := by
  simp [addNotification, bind_ok]

@[simp] theorem addOutboxRow_ok {mk : ℕ → NotificationOutbox} {hmk : ∀ k, (mk k).id = k}
    {r : NotificationOutbox} :
    addOutboxRow mk hmk s = (.ok r, t) ↔ mk s.working.notificationOutbox.freshKey = r ∧
      ⟨s.committed,
        { s.working with notificationOutbox := s.working.notificationOutbox.add mk hmk }⟩ = t := by
  simp [addOutboxRow, bind_ok]

variable {cfg : Settings} {now : ℕ}

theorem enqueue_ok {n : Notification} {at? : Option ℕ}
    {key : String} (hkey : truthy (some key) = some key) {r : NotificationOutbox}
    (h : enqueue cfg now n at? (some key) s = (.ok r, t)) :
    (s = t ∧ r ∈ s.working.notificationOutbox ∧ r.notificationId = n.id) ∨
    ∃ (mk : ℕ → NotificationOutbox) (hmk : ∀ k, (mk k).id = k),
      t = ⟨s.committed,
        { s.working with notificationOutbox := s.working.notificationOutbox.add mk hmk }⟩ ∧
      ∀ k, (mk k).notificationId = n.id ∧ (mk k).userId = n.userId ∧ (mk k).channel = n.channel ∧
        (mk k).idempotencyKey = some key := by
  simp only [enqueue, hkey, bind_ok, look_ok] at h
  obtain ⟨_, _, ⟨rfl, rfl⟩, h⟩ := h
  rcases hf : s.working.notificationOutbox.find? (fun o =>
      (some key).isSome ∧ o.notificationId = n.id ∧ o.idempotencyKey = some key) with _ | row
  · simp only [hf, addOutboxRow_ok] at h
    exact .inr ⟨_, fun _ => rfl, h.2.symm, fun k => ⟨rfl, rfl, rfl, by simp [hkey]⟩⟩
  · simp only [hf, pure_ok] at h
    obtain ⟨rfl, rfl⟩ := h
    have hp := Table.find?_prop hf
    simp only [decide_eq_true_eq] at hp
    exact .inl ⟨rfl, Table.find?_mem hf, hp.2.1⟩

theorem announced_refl (userId : ℕ) (p : String) (db : Db) : Announced [] userId p db db where
  rest := rfl
  keyed h := h
  outbox _ := ⟨[], by simp⟩

variable {p : String}

theorem Announced.wallets {cs : List String} {u : ℕ}
    (h : Announced cs u p db db') : db'.wallets = db.wallets := by rw [h.rest]

theorem Announced.transactions {cs : List String} {u : ℕ}
    (h : Announced cs u p db db') : db'.transactions = db.transactions := by rw [h.rest]

theorem Announced.trans {cs cs' : List String} {db db₁ db₂ : Db}
    (h : Announced cs userId p db db₁) (h' : Announced cs' userId p db₁ db₂) :
    Announced (cs ++ cs') userId p db db₂ where
  rest := by rw [h'.rest, h.rest]
  keyed hk := h'.keyed (h.keyed hk)
  outbox hk := by
    obtain ⟨rows, hrows, hmap⟩ := h.outbox hk
    obtain ⟨rows', hrows', hmap'⟩ := h'.outbox (h.keyed hk)
    exact ⟨rows ++ rows', by rw [hrows', hrows, List.append_assoc],
      by rw [List.map_append, List.map_append, hmap, hmap']⟩

theorem announced_of_channel {p channel : String}
    (h : stageRechargeSuccessNotification cfg now userId v p channel s = (.ok u, t)) :
    t.committed = s.committed ∧ Announced [channel] userId p s.working t.working := by
  simp only [stageRechargeSuccessNotification, bind_ok, addNotification_ok, pure_ok] at h
  obtain ⟨n, _, ⟨hn, rfl⟩, row, _, henq, -, rfl⟩ := h
  have hkey : truthy (some s!"wallet_recharge_captured:{p}:{channel}") =
      some s!"wallet_recharge_captured:{p}:{channel}" := by
    simp [truthy, toString]
  have hid : n.id = s.working.notifications.freshKey := by rw [← hn]
  rcases enqueue_ok hkey henq with ⟨rfl, hrow, hrid⟩ | ⟨mk, hmk, rfl, hfields⟩
  · refine ⟨rfl, ⟨rfl, fun hk o ho => ?_, fun hk => ?_⟩⟩
    · obtain ⟨x, hx, hxid⟩ := hk o ho
      exact ⟨x, Table.mem_add.mpr (.inl hx), hxid⟩
    · -- a row of the new notification would belong to an old one
      obtain ⟨x, hx, hxid⟩ := hk row hrow
      have hlt : x.id < s.working.notifications.freshKey := Table.key_lt_freshKey hx
      omega
  · refine ⟨rfl, ⟨rfl, fun hk o ho => ?_, fun hk => ⟨[mk _], rfl, ?_⟩⟩⟩
    · have ho' : o ∈ s.working.notificationOutbox.add mk hmk := ho
      rcases Table.mem_add.mp ho' with ho | rfl
      · obtain ⟨x, hx, hxid⟩ := hk o ho
        exact ⟨x, Table.mem_add.mpr (.inl hx), hxid⟩
      · exact ⟨_, Table.mem_add.mpr (.inr rfl), by rw [(hfields _).1, ← hn]⟩
    · obtain ⟨-, huser, hchannel, hidem⟩ := hfields s.working.notificationOutbox.freshKey
      rw [List.map_singleton, List.map_singleton, huser, hchannel, hidem, ← hn]

theorem announced_of_stage
    (h : stageRechargeSuccessNotifications cfg now userId v p s = (.ok u, t)) :
    Announced rechargeChannels userId p s.working t.working := by
  unfold stageRechargeSuccessNotifications at h
  generalize rechargeChannels = cs at h ⊢
  induction cs generalizing s with
  | nil =>
    obtain ⟨-, rfl⟩ := pure_ok.mp h
    exact announced_refl userId p s.working
  | cons c cs ih =>
    simp only [List.forM] at h
    obtain ⟨_, s₁, hc, hcs⟩ := bind_ok.mp h
    exact (announced_of_channel hc).2.trans (ih hcs)

def sampleUsers : Table User := ⟨[⟨1, "+911"⟩, ⟨2, "+912"⟩], by decide⟩

def sampleWallets : Table Wallet := ⟨[⟨1, 1, 0⟩, ⟨2, 2, 0⟩], by decide⟩

end WezuBackend.Wallet.Operations
