import WezuBackend.Wallet.Balance

/-!
# Reconciliation

A wallet reconciles if its balance is the sum of its settled rows and of its open withdrawal holds.
`Books` is the invariant behind it.  No row that the service writes can be loaded again, and every
withdrawal request has such a row, so the calls that would load one (approvals, rejections, captures
and refunds) change nothing, and what the others post is what they move.

The sums drift apart only where the `float` columns do (`balance_ne_ledger`): from ten trillion
rupees on a balance is rounded, and so is no sum of rows in the same way.
-/

namespace WezuBackend.Wallet.Reconciliation

open Lib.Tables Lib.Runs Core.Amounts Core.Floats Financial.Model Wallet.Service
open Wallet.Operations Wallet.Effects

/-- The row of an open withdrawal: the pending debit of its request. -/
def IsHold (txn : Transaction) : Prop :=
  txn.status = .pending ∧ txn.type = some .debit ∧ txn.category = some "withdrawal_request"

instance (txn : Transaction) : Decidable (IsHold txn) := by unfold IsHold; infer_instance

def settledAmount (walletId : ℕ) (txn : Transaction) : ℤ :=
  if txn.walletId = some walletId ∧ txn.status = .success then txn.amount else 0

/-- The open holds of a wallet. -/
def heldAmount (walletId : ℕ) (txn : Transaction) : ℤ :=
  if txn.walletId = some walletId ∧ IsHold txn then txn.amount else 0

def ledgerBalance (db : Db) (walletId : ℕ) : ℤ :=
  db.transactions.sum (settledAmount walletId) + db.transactions.sum (heldAmount walletId)

/-- What one row says of a wallet. -/
def bookedAmount (walletId : ℕ) (txn : Transaction) : ℤ :=
  settledAmount walletId txn + heldAmount walletId txn

theorem ledgerBalance_eq (db : Db) (k : ℕ) :
    ledgerBalance db k = db.transactions.sum (bookedAmount k) :=
  (Table.sum_add_distrib _ _ _).symm

/-- A row that counts for its wallet. -/
def Counts (txn : Transaction) : Prop := txn.status = .success ∨ IsHold txn

variable {txn : Transaction}

theorem bookedAmount_of_counts (h : Counts txn) (k : ℕ) :
    bookedAmount k txn = if txn.walletId = some k then txn.amount else 0 := by
  unfold bookedAmount settledAmount heldAmount
  by_cases hs : txn.status = .success
  · have hn : ¬ IsHold txn := fun hh => by cases hh.1.symm.trans hs
    simp [hs, hn]
  · have hh : IsHold txn := h.resolve_left hs
    simp [hs, hh]

theorem bookedAmount_of_not_counts (h : ¬ Counts txn) (k : ℕ) :
    bookedAmount k txn = 0 := by
  have hs : txn.status ≠ .success := fun hs => h (.inl hs)
  have hh : ¬ IsHold txn := fun hh => h (.inr hh)
  simp [bookedAmount, settledAmount, heldAmount, hs, hh]

structure Books (db : Db) : Prop where
  reconciled : ∀ k, db.balance k = db.transactions.sum (bookedAmount k)
  within : ∀ w ∈ db.wallets, 0 ≤ w.balance ∧ Kept w.balance
  requested : ∀ r ∈ db.withdrawalRequests, ∃ t ∈ db.transactions, isWithdrawalOf r.id t

variable {wallets : Table Wallet}

theorem books_ofWallets {users : Table User} {engine : Engine}
    (h : ∀ w ∈ wallets, w.balance = 0) : Books (.ofWallets users wallets engine) where
  reconciled k := by
    have hzero : balanceOf wallets k = 0 := by
      unfold balanceOf
      rcases hg : wallets.get? k with _ | w
      · rfl
      · exact h w (Table.get?_eq_some.mp hg).1
    exact hzero
  within w hw := by
    rw [h w hw]
    decide
  requested r hr := absurd hr (Table.not_mem_empty r)

theorem Books.extended {db db₁ : Db} (h : Books db) (ho : Extended db db₁) : Books db₁ := by
  refine ⟨fun k => ?_, fun w hw => ?_, ?_⟩
  · rw [ho.balance k, ho.transactions]
    exact h.reconciled k
  · rcases ho.empty_of_new w hw with hw | hw
    · exact h.within w hw
    · rw [hw]
      decide
  · rw [ho.transactions, ho.withdrawalRequests]
    exact h.requested

variable {db : Db} {w : Wallet}

/-- A row is added beside the balances that it accounts for. -/
theorem Books.added (h : Books db) {mk : ℕ → Transaction} (hmk : ∀ k, (mk k).id = k)
    (hb : ∀ k, balanceOf wallets k =
      db.balance k + bookedAmount k (mk db.transactions.freshKey))
    (hw : ∀ w ∈ wallets, 0 ≤ w.balance ∧ Kept w.balance) :
    Books { db with wallets, transactions := db.transactions.add mk hmk } where
  reconciled k := by
    have hbk := h.reconciled k
    rw [Table.sum_add, ← hbk]
    exact hb k
  within := hw
  requested r hr := by
    obtain ⟨t, ht, href⟩ := h.requested r hr
    exact ⟨t, (Table.mem_add_mk hmk).mpr (.inl ht), href⟩

/-- A balance moves, with its row: both are amounts that their columns keep. -/
theorem Books.posted (h : Books db) (hw : w ∈ db.wallets) {a : ℤ} {ty c st d rt ri p}
    (ha : Kept a) (hpos : 0 ≤ w.balance + a) (hkept : Kept (w.balance + a))
    (hc : ∀ id, Counts (entry (shifted w a) a ty c st d rt ri p id)) :
    Books (posted db w a ty c st d rt ri p) := by
  refine h.added (fun _ => rfl) (fun k => ?_) fun x hx => ?_
  · have hamount : column a = a := column_of_kept ha
    rw [balanceOf_moved_of_kept hw hkept, bookedAmount_of_counts (hc _)]
    simp [Db.balance, entry, inColumns, shifted, hamount, eq_comm]
  · rcases mem_set_moved hx with hx | rfl
    · exact h.within x hx
    · rw [moved_balance, column_of_kept hkept]
      exact ⟨hpos, hkept⟩

/-- What leaves a wallet, and what it leaves, are amounts that the columns keep. -/
theorem kept_of_paid {b v : ℤ} (hb : Kept b) (hv : 0 < v) (hle : v ≤ b) :
    Kept (-v) ∧ 0 ≤ b + -v ∧ Kept (b + -v) := by
  unfold Kept at *
  omega

theorem Books.paid (h : Books db) (hw : w ∈ db.wallets) {v : ℤ} {ty c st d rt ri p} (hv : 0 < v)
    (hle : v ≤ w.balance)
    (hc : ∀ id, Counts (entry (shifted w (-v)) (-v) ty c st d rt ri p id)) :
    Books (Operations.posted db w (-v) ty c st d rt ri p) := by
  obtain ⟨ha, hpos, hkept⟩ := kept_of_paid (h.within w hw).2 hv hle
  exact h.posted hw ha hpos hkept hc

theorem Books.congr {db db' : Db} (h : Books db) (hw : db'.wallets = db.wallets)
    (ht : db'.transactions = db.transactions)
    (hr : ∀ r ∈ db'.withdrawalRequests, ∃ t ∈ db'.transactions, isWithdrawalOf r.id t) :
    Books db' where
  reconciled k := by
    rw [Db.balance, hw, ht]
    exact h.reconciled k
  within := by
    rw [hw]
    exact h.within
  requested := hr

theorem Books.undecided (h : Books db) (hu : Unloadable db) {k : ℕ} {r : WalletWithdrawalRequest}
    (hr : db.withdrawalRequests.get? k = some r) :
    ¬ Loadable db.transactions (isWithdrawalOf k) := by
  obtain ⟨hmem, rfl⟩ := Table.get?_eq_some.mp hr
  obtain ⟨t, ht, href⟩ := h.requested r hmem
  exact hu.not_loadable ht href

/-- There is room for the amount in the wallet of the user. -/
def Room (db : Db) (userId : ℕ) (amount : ℤ) : Prop :=
  Kept amount ∧ ∀ w ∈ db.wallets, w.userId = userId → Kept (w.balance + amount)

theorem Room.kept {db db₁ : Db} {u : ℕ} {v : ℤ} (h : Room db u v) (ho : Extended db db₁)
    (hw : w ∈ db₁.wallets) (hown : w.userId = u) : Kept (w.balance + v) := by
  rcases ho.empty_of_new w hw with hw | hw
  · exact h.2 w hw hown
  · rw [hw, zero_add]
    exact h.1

/-- The call takes no balance to ten trillion rupees. -/
def StaysKept (db : Db) : Op → Prop
  | .addBalance userId amount _ _ _ _ _ => ∀ v, toMoney amount = .ok v → Room db userId v
  | .transferBalance _ recipientPhone amount _ => ∀ v recipient, toMoney amount = .ok v →
    (db.users.find? fun u => u.phoneNumber = recipientPhone) = some recipient →
    Room db recipient.id v
  | _ => True

variable {cfg : Settings}

theorem Books.effect {db db' : Db} {op : Op} (h : Books db) (hrows : Unloadable db)
    (hop : StaysKept db op) (he : Effect cfg db op db') : Books db' := by
  cases he with
  | unchanged => exact h
  | added ha hv ho =>
    have hroom := hop _ ha
    have h₁ := h.extended ho.toExtended
    have hpos := (h₁.within _ ho.mem).1
    exact h₁.posted ho.mem hroom.1 (by omega) (hroom.kept ho.toExtended ho.mem ho.owner)
      fun _ => .inl rfl
  | deducted ha hv ho hle =>
    exact (h.extended ho.toExtended).paid ho.mem hv hle fun _ => .inl rfl
  | intentCreated ha hv ho hnew =>
    have hnc : ∀ w v d o id, ¬ Counts
        (entry w v .credit "deposit" .pending d (some "wallet_recharge") (some o) none id) := by
      intro w v d o id hc
      rcases hc with hc | hc
      · cases hc
      · cases hc.2.1
    have h₁ := h.extended ho.toExtended
    refine h₁.added (fun _ => rfl) (fun k => ?_) h₁.within
    rw [bookedAmount_of_not_counts (hnc _ _ _ _ _), add_zero]
    rfl
  | captured ha hv ht htw hw hu hl hf hn =>
    exact absurd hl (hrows.not_loadable (Table.find?_mem ht) (Table.find?_prop ht))
  | intentFailed ht hl =>
    exact absurd hl (hrows.not_loadable (Table.find?_mem ht) (Table.find?_prop ht))
  | requested ha hv ho hle =>
    have h₁ := h.extended ho.toExtended
    refine (h₁.paid ho.mem hv hle fun _ => .inr ⟨rfl, rfl, rfl⟩).congr rfl rfl ?_
    intro r hr
    rcases (Table.mem_add_mk fun _ => rfl).mp hr with hr | rfl
    · obtain ⟨t, ht, href⟩ := h₁.requested r hr
      exact ⟨t, mem_posted.mpr (.inl ht), href⟩
    · exact ⟨_, mem_posted.mpr (.inr rfl), by simp [isWithdrawalOf, entry, inColumns]⟩
  | approved hr hs hl => exact absurd hl (h.undecided hrows hr)
  | rejected hr hs hw hrw hl hfr hfw hfs => exact absurd hl (h.undecided hrows hr)
  | transferred ha hv hr ho hsw hrw hsown hown hne hle =>
    have hroom := hop _ _ ha hr
    have h₁ := h.extended ho
    have hpos := (h₁.within _ hrw).1
    refine (h₁.paid hsw hv hle fun _ => .inl rfl).posted (mem_moved_of_ne hrw hne.symm)
      hroom.1 (by omega) (hroom.kept ho hrw hown) fun _ => .inl rfl
  | refundInitiated => exact h.congr rfl rfl h.requested
  | refundAbandoned => exact h.congr rfl rfl h.requested
  | refunded hr hs ht hread htw hw =>
    exact absurd hread (hrows _ (Table.get?_eq_some.mp ht).1)

theorem books_run (h : Books db) (hu : Unloadable db) {ops : List Op}
    (hops : Along (step cfg) StaysKept db ops) : Books (run (step cfg) db ops) :=
  (run_invariant_of_along (I := fun db => Books db ∧ Unloadable db)
    (fun s op hs hop => ⟨hs.1.effect hs.2 hop (step_effect cfg s op),
      hs.2.effect (step_effect cfg s op)⟩) ⟨h, hu⟩ hops).1

/-- Every wallet's balance is the sum of its settled rows and its open holds. -/
def Reconciled (db : Db) : Prop := ∀ w ∈ db.wallets, w.balance = ledgerBalance db w.id

instance (db : Db) : Decidable (Reconciled db) := by
  unfold Reconciled
  infer_instance

/-- **Reconciliation.**  In a run from an empty ledger and empty wallets that takes no balance to
ten trillion rupees, the ledger and the balances agree all along. -/
theorem balance_eq_ledger (cfg : Settings) (engine : Engine) (users : Table User)
    (wallets : Table Wallet) (h : ∀ w ∈ wallets, w.balance = 0) (ops : List Op)
    (hops : Along (step cfg) StaysKept (.ofWallets users wallets engine) ops) :
    ∀ pre post, ops = pre ++ post →
      Reconciled (run (step cfg) (.ofWallets users wallets engine) pre) := by
  rintro pre post rfl w hw
  have hbooks := books_run (books_ofWallets h) (unloadable_ofWallets users wallets engine)
    (along_append.mp hops).1
  rw [ledgerBalance_eq, ← hbooks.reconciled, Db.balance, balanceOf_mem hw]

/-- A deposit of 100.00, a withdrawal request of 40.00, and its rejection, which raises. -/
def rejectedWithdrawal : List Op :=
  [.addBalance 1 (.finite 100 0) "Deposit" none "deposit" none none,
    .requestWithdrawal 1 (.finite 40 0) "bank", .rejectWithdrawalRequest 1 none]

theorem balance_eq_ledger_sample :
    Reconciled (run (step {}) (.ofWallets sampleUsers sampleWallets) rejectedWithdrawal) := by
  refine balance_eq_ledger {} .sqlite sampleUsers sampleWallets (by decide) rejectedWithdrawal
    ⟨?_, trivial, trivial, trivial⟩ rejectedWithdrawal [] (List.append_nil _).symm
  intro v hv
  obtain rfl : 10000 = v := Except.ok.inj hv
  exact ⟨by decide, by decide⟩

/-- A deposit of a hundred trillion rupees, one of 0.07 and one of 0.01. -/
def largeDeposit : List Op :=
  [.addBalance 1 (.finite 100000000000000 0) "Deposit" none "deposit" none none,
    .addBalance 1 (.finite 7 (-2)) "Deposit" none "deposit" none none,
    .addBalance 1 (.finite 1 (-2)) "Deposit" none "deposit" none none]

/-- The balance is rounded to the next 64th each time: it ends with 0.06, and the rows make
0.08. -/
theorem balance_ne_ledger :
    ¬ ∀ (users : Table User) (wallets : Table Wallet), (∀ w ∈ wallets, w.balance = 0) →
      ∀ ops, Reconciled (run (step {}) (.ofWallets users wallets) ops) := by
  intro h
  have hw := h sampleUsers sampleWallets (by decide) largeDeposit
  revert hw
  decide +kernel

end WezuBackend.Wallet.Reconciliation
