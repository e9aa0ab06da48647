import WezuBackend.Wallet.Effects
import WezuBackend.Lib.Runs

/-!
# Balances stay non-negative, and the ledger says so

`Solvent` holds what keeps every balance non-negative: beside the balances, the amounts that open
withdrawal requests and refunds can still give back.  Every call preserves it (`Solvent.effect`).  A
row that a call writes or settles while it moves a balance carries the balance it leads to
(`stamped_effect`), and once it is settled it stays as it is (`settled_rows_final`).
-/

namespace WezuBackend.Wallet.Balance

open Lib.Tables Lib.Runs Core.Floats Financial.Model Wallet.Operations Wallet.Effects

/-- No balance is negative, and no amount that can come back to one. -/
structure Solvent (db : Db) : Prop where
  wallets : ∀ w ∈ db.wallets, 0 ≤ w.balance
  requests : ∀ r ∈ db.withdrawalRequests, 0 ≤ r.amount
  refunds : ∀ r ∈ db.refunds, 0 ≤ r.amount

variable {wallets : Table Wallet}

theorem solvent_ofWallets {users : Table User} {engine : Engine}
    (h : ∀ w ∈ wallets, 0 ≤ w.balance) : Solvent (.ofWallets users wallets engine) where
  wallets := h
  requests r hr := absurd hr (Table.not_mem_empty r)
  refunds r hr := absurd hr (Table.not_mem_empty r)

theorem Solvent.extended {db db₁ : Db} (h : Solvent db) (ho : Extended db db₁) : Solvent db₁ := by
  refine ⟨fun w hw => ?_, ?_, ?_⟩
  · rcases ho.empty_of_new w hw with hw | hw
    · exact h.wallets w hw
    · omega
  · rw [ho.withdrawalRequests]
    exact h.requests
  · rw [ho.refunds]
    exact h.refunds

variable {a : ℤ} {w : Wallet}

theorem nonneg_moved (h : ∀ w ∈ wallets, 0 ≤ w.balance)
    (ha : 0 ≤ w.balance + a) : ∀ x ∈ wallets.set (moved w a), 0 ≤ x.balance := by
  intro x hx
  rcases mem_set_moved hx with hx | rfl
  · exact h x hx
  · exact column_nonneg ha

theorem nonneg_credited (h : ∀ w ∈ wallets, 0 ≤ w.balance)
    (hw : w ∈ wallets) (ha : 0 ≤ a) : ∀ x ∈ wallets.set (moved w a), 0 ≤ x.balance :=
  nonneg_moved h (by have := h w hw; omega)

variable {db db' : Db}

variable {cfg : Settings} {op : Op}

theorem Solvent.effect (h : Solvent db) (he : Effect cfg db op db') : Solvent db' := by
  cases he with
  | unchanged => exact h
  | added ha hv ho =>
    have h₁ := h.extended ho.toExtended
    exact ⟨nonneg_credited h₁.wallets ho.mem hv.le, h₁.requests, h₁.refunds⟩
  | deducted ha hv ho hle =>
    have h₁ := h.extended ho.toExtended
    exact ⟨nonneg_moved h₁.wallets (by omega), h₁.requests, h₁.refunds⟩
  | intentCreated ha hv ho hnew =>
    have h₁ := h.extended ho.toExtended
    exact ⟨h₁.wallets, h₁.requests, h₁.refunds⟩
  | captured ha hv ht htw hw hu hl hf hn =>
    rw [hn.rest]
    exact ⟨nonneg_credited h.wallets hw hv.le, h.requests, h.refunds⟩
  | intentFailed => exact ⟨h.wallets, h.requests, h.refunds⟩
  | requested ha hv ho hle =>
    have h₁ := h.extended ho.toExtended
    refine ⟨nonneg_moved h₁.wallets (by omega), fun r hr => ?_, h₁.refunds⟩
    rcases Table.mem_add.mp hr with hr | rfl
    · exact h₁.requests r hr
    · exact column_nonneg hv.le
  | approved hr hs hl =>
    have hamount := h.requests _ (Table.get?_eq_some.mp hr).1
    refine ⟨h.wallets, fun x hx => ?_, h.refunds⟩
    rcases Table.mem_set.mp hx with ⟨hx, -⟩ | ⟨rfl, -⟩
    · exact h.requests x hx
    · exact hamount
  | rejected hr hs hw hrw hl hfr hfw hfs =>
    have hamount := h.requests _ (Table.get?_eq_some.mp hr).1
    refine ⟨nonneg_credited h.wallets hw hamount, fun x hx => ?_, h.refunds⟩
    rcases Table.mem_set.mp hx with ⟨hx, -⟩ | ⟨rfl, -⟩
    · exact h.requests x hx
    · exact hamount
  | transferred ha hv hr ho hsw hrw hsown hown hne hle =>
    have h₁ := h.extended ho
    exact ⟨nonneg_credited (nonneg_moved h₁.wallets (by omega))
      (mem_moved_of_ne hrw hne.symm) hv.le,
      h₁.requests, h₁.refunds⟩
  | refundInitiated ht hread hc hnone ha hv hf hle =>
    refine ⟨h.wallets, h.requests, fun r hr => ?_⟩
    rcases Table.mem_add.mp hr with hr | rfl
    · exact h.refunds r hr
    · exact column_nonneg hv.le
  | refundAbandoned hr hs =>
    have hamount := h.refunds _ (Table.get?_eq_some.mp hr).1
    refine ⟨h.wallets, h.requests, fun x hx => ?_⟩
    rcases Table.mem_set.mp hx with ⟨hx, -⟩ | ⟨rfl, -⟩
    · exact h.refunds x hx
    · exact hamount
  | refunded hr hs ht hread htw hw =>
    have hamount := h.refunds _ (Table.get?_eq_some.mp hr).1
    refine ⟨nonneg_credited h.wallets hw hamount, h.requests, fun x hx => ?_⟩
    rcases Table.mem_set.mp hx with ⟨hx, -⟩ | ⟨rfl, -⟩
    · exact h.refunds x hx
    · exact hamount

theorem solvent_run (cfg : Settings) {db : Db} (h : Solvent db) (ops : List Op) :
    Solvent (run (step cfg) db ops) :=
  run_invariant (fun s op hs => hs.effect (step_effect cfg s op)) h ops

/-! ## The balance on the row -/

def MovesBalance (db db' : Db) : Prop := ∃ k, db'.balance k ≠ db.balance k

/-- The row is new, or it became a settled one. -/
def Posts (db db' : Db) (txn : Transaction) : Prop :=
  txn ∈ db'.transactions ∧
    ((∀ t ∈ db.transactions, t.id ≠ txn.id) ∨ txn ∉ db.transactions ∧ txn.status = .success)

/-- The row carries the balance its wallet has. -/
def Stamped (db : Db) (txn : Transaction) : Prop :=
  ∃ k, txn.walletId = some k ∧ txn.balanceAfter = some (db.balance k)

variable {txn : Transaction}

theorem Posts.not_mem (h : Posts db db' txn) :
    txn ∉ db.transactions := by
  intro hm
  rcases h.2 with hnew | ⟨hnew, -⟩
  · exact hnew txn hm rfl
  · exact hnew hm

theorem stamped_of_balance {db' : Db}
    (hw : w ∈ wallets) (hdb : db'.wallets = wallets.set (moved w a))
    (hid : txn.walletId = some w.id)
    (hafter : txn.balanceAfter = some (column (w.balance + a))) : Stamped db' txn := by
  refine ⟨w.id, hid, ?_⟩
  rw [hafter, Db.balance, hdb, balanceOf_moved hw, if_pos rfl]

theorem stamped_of_posted {db db₁ db' : Db} (hp : Posts db db' txn)
    (h₁ : db₁.transactions = db.transactions) (hw : w ∈ db₁.wallets)
    (hdb : db'.wallets = db₁.wallets.set (moved w a)) {ty c st d rt ri p}
    (hmem : txn ∈ db₁.transactions.add (entry (shifted w a) a ty c st d rt ri p)) :
    Stamped db' txn := by
  rcases Table.mem_add.mp hmem with hm | rfl
  · rw [h₁] at hm
    exact absurd hm hp.not_mem
  · exact stamped_of_balance hw hdb rfl rfl

/-- **The balance on the row.**  What a call that moves a balance writes or settles carries the
balance it leads to. -/
theorem stamped_effect (he : Effect cfg db op db')
    (hm : MovesBalance db db') (hp : Posts db db' txn) : Stamped db' txn := by
  obtain ⟨k, hk⟩ := hm
  cases he with
  | unchanged => exact absurd rfl hk
  | added ha hv ho => exact stamped_of_posted hp ho.transactions ho.mem rfl hp.1
  | deducted ha hv ho hle => exact stamped_of_posted hp ho.transactions ho.mem rfl hp.1
  | intentCreated ha hv ho hnew => exact absurd (ho.balance k) hk
  | captured ha hv ht htw hw hu hl hf hn =>
    have hmem := hp.1
    rw [hn.rest] at hmem
    rcases Table.mem_set.mp hmem with ⟨hx, -⟩ | ⟨rfl, -⟩
    · exact absurd hx hp.not_mem
    · exact stamped_of_balance hw (by rw [hn.rest]) htw rfl
  | intentFailed => exact absurd rfl hk
  | requested ha hv ho hle => exact stamped_of_posted hp ho.transactions ho.mem rfl hp.1
  | approved => exact absurd rfl hk
  | rejected hr hs hw hrw hl hfr hfw hfs =>
    rcases mem_marked hp.1 with hmem | ⟨t, ht, rfl⟩
    · exact stamped_of_posted hp rfl hw rfl hmem
    · -- the row of the hold is undone, not settled
      rcases hp.2 with hnew | ⟨-, hs⟩
      · exact absurd rfl (hnew t (Table.find?_mem ht))
      · cases hs
  | transferred ha hv hr ho hsw hrw hsown hown hne hle =>
    rcases mem_posted.mp hp.1 with hmem | rfl
    · rcases mem_posted.mp hmem with hmem | rfl
      · rw [ho.transactions] at hmem
        exact absurd hmem hp.not_mem
      · refine ⟨_, rfl, congrArg some (.symm ?_)⟩
        exact (balanceOf_transferred hsw hrw hne _ _).trans ((if_neg hne).trans (if_pos rfl))
    · exact stamped_of_balance (mem_moved_of_ne hrw hne.symm) rfl rfl rfl
  | refundInitiated => exact absurd rfl hk
  | refundAbandoned => exact absurd rfl hk
  | refunded hr hs ht hread htw hw => exact stamped_of_posted hp rfl hw rfl hp.1

/-- **Solvency of every run.**  From non-negative balances no run of `WalletService` makes one
negative, and the rows that a balance-changing call writes or settles carry the balance right after
it. -/
theorem balances_nonneg_and_stamped (cfg : Settings) (engine : Engine) (users : Table User)
    (wallets : Table Wallet) (h : ∀ w ∈ wallets, 0 ≤ w.balance) (ops : List Op) :
    (∀ w ∈ (run (step cfg) (.ofWallets users wallets engine) ops).wallets, 0 ≤ w.balance) ∧
    ∀ op txn,
      let db := run (step cfg) (.ofWallets users wallets engine) ops
      MovesBalance db (step cfg db op) → Posts db (step cfg db op) txn →
        Stamped (step cfg db op) txn := by
  refine ⟨(solvent_run cfg (solvent_ofWallets h) ops).wallets, ?_⟩
  intro op txn db hm hp
  exact stamped_effect (step_effect cfg db op) hm hp

theorem balances_nonneg_and_stamped_sample :
    (∀ w ∈ (run (step {}) (.ofWallets sampleUsers sampleWallets)
        [.addBalance 1 (.finite 100 0) "Deposit" none "deposit" none none,
          .transferBalance 1 "+912" (.finite 305 (-1)) none]).wallets, 0 ≤ w.balance) ∧
    ∀ op txn,
      let db := run (step {}) (.ofWallets sampleUsers sampleWallets)
        [.addBalance 1 (.finite 100 0) "Deposit" none "deposit" none none,
          .transferBalance 1 "+912" (.finite 305 (-1)) none]
      MovesBalance db (step {} db op) → Posts db (step {} db op) txn →
        Stamped (step {} db op) txn :=
  balances_nonneg_and_stamped {} .sqlite sampleUsers sampleWallets (by decide) _

/-! ## Settled rows -/

/-- The ledger has the row, but for its description. -/
def OnLedger (txn : Transaction) (txns : Table Transaction) : Prop :=
  ∃ d, { txn with description := d } ∈ txns

variable {txns : Table Transaction}

theorem OnLedger.added (h : OnLedger txn txns) {mk : ℕ → Transaction}
    (hmk : ∀ k, (mk k).id = k) : OnLedger txn (txns.add mk hmk) :=
  h.imp fun _ hmem => Table.mem_add.mpr (.inl hmem)

theorem OnLedger.set (h : OnLedger txn txns) (hs : txn.status = .success) {t x : Transaction}
    (ht : t ∈ txns) (hid : x.id = t.id)
    (hx : t.status = .success → x = { t with description := x.description }) :
    OnLedger txn (txns.set x) := by
  obtain ⟨d, h⟩ := h
  by_cases hsame : t.id = txn.id
  · obtain rfl := Table.eq_of_key ht h hsame
    exact ⟨x.description, Table.mem_set.mpr (.inr ⟨(hx hs).symm, _, h, hid.symm⟩)⟩
  · refine ⟨d, Table.mem_set.mpr (.inl ⟨h, fun heq => hsame ?_⟩)⟩
    exact hid.symm.trans heq.symm

theorem OnLedger.marked (h : OnLedger txn txns) (hs : txn.status = .success)
    {found : Option Transaction} {f : Transaction → Transaction} (hfound : ∀ t ∈ found, t ∈ txns)
    (hid : ∀ t, (f t).id = t.id)
    (hf : ∀ t ∈ found, t.status = .success → f t = { t with description := (f t).description }) :
    OnLedger txn (marked txns found f) := by
  rcases found with _ | t
  · exact h
  · exact h.set hs (hfound t rfl) (hid t) (hf t rfl)

/-- **One call keeps what is settled**: it rewrites rows that are not, and descriptions. -/
theorem OnLedger.effect (h : OnLedger txn db.transactions) (hs : txn.status = .success)
    (he : Effect cfg db op db') : OnLedger txn db'.transactions := by
  cases he with
  | unchanged => exact h
  | added ha hv ho =>
    rw [← ho.transactions] at h
    exact h.added fun _ => rfl
  | deducted ha hv ho hle =>
    rw [← ho.transactions] at h
    exact h.added fun _ => rfl
  | intentCreated ha hv ho hnew =>
    rw [← ho.transactions] at h
    exact h.added fun _ => rfl
  | captured ha hv ht htw hw hu hl hf hn =>
    rw [hn.transactions]
    exact h.set hs (Table.find?_mem ht) rfl fun hdone => absurd hdone (hl.found_ne ht)
  | intentFailed ht hl =>
    exact h.set hs (Table.find?_mem ht) rfl fun hdone => absurd hdone (hl.found_ne ht)
  | requested ha hv ho hle =>
    rw [← ho.transactions] at h
    exact h.added fun _ => rfl
  | approved hr hrequested hl =>
    refine h.marked hs (fun t ht => Table.find?_mem ht) (fun _ => rfl) fun t ht hdone => ?_
    exact absurd hdone (hl.found_ne ht)
  | rejected hr hrequested hw hrw hl hfr hfw hfs =>
    refine (h.added fun _ => rfl).marked hs (fun t ht => ?_) (fun _ => rfl) fun t ht hdone => ?_
    · exact Table.mem_add.mpr (.inl (Table.find?_mem ht))
    · exact absurd hdone (hl.found_ne ht)
  | transferred ha hv hr ho hsw hrw hsown hown hne hle =>
    rw [← ho.transactions] at h
    exact (h.added fun _ => rfl).added fun _ => rfl
  | refundInitiated => exact h
  | refundAbandoned => exact h
  | refunded hr hpending ht hread htw hw => exact h.added fun _ => rfl

/-- **Settled rows are final.**  Whatever is called after a row of the ledger was settled, the row
stays: no call removes it or changes anything but its description. -/
theorem settled_rows_final (cfg : Settings) (h : txn ∈ db.transactions)
    (hs : txn.status = .success) (ops : List Op) :
    OnLedger txn (run (step cfg) db ops).transactions :=
  run_invariant (I := fun db => OnLedger txn db.transactions)
    (fun s op hrow => hrow.effect hs (step_effect cfg s op)) ⟨_, h⟩ ops

/-- The deposit of user 1. -/
def sampleDeposit : Transaction :=
  entry ⟨1, 1, 10000⟩ 10000 .credit "deposit" .success "Deposit" none none none 1

theorem settled_rows_final_sample :
    OnLedger sampleDeposit (run (step {}) (run (step {}) (.ofWallets sampleUsers sampleWallets)
        [.addBalance 1 (.finite 100 0) "Deposit" none "deposit" none none])
      [.transferBalance 1 "+912" (.finite 305 (-1)) none]).transactions :=
  settled_rows_final {} (List.mem_of_mem_head? rfl) rfl _

end WezuBackend.Wallet.Balance
