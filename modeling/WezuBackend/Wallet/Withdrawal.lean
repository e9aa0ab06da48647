import WezuBackend.Wallet.Effects
import WezuBackend.Lib.Runs

/-!
# Withdrawals conserve money

Requests, approvals and rejections of withdrawals in any order: what a wallet holds, what it has on
hold and what was paid out of it add up to the same amount as long as the balances are amounts that
their columns keep (`total_effect`), and a request that was decided stays as it is
(`decided_effect`).
-/

namespace WezuBackend.Wallet.Withdrawal

open Lib.Tables Lib.Runs Core.Base Core.Amounts Core.Floats Financial.Model
open Wallet.Operations Wallet.Effects

/-- The calls that concern withdrawals. -/
inductive WithdrawalOp where
  | request (userId : ℕ) (amount : Amount) (bankDetails : String)
  | approve (requestId : ℕ) (payoutReference : Option String)
  | reject (requestId : ℕ) (reason : Option String)

def WithdrawalOp.op : WithdrawalOp → Op
  | .request u a b => .requestWithdrawal u a b
  | .approve k p => .approveWithdrawalRequest k p
  | .reject k r => .rejectWithdrawalRequest k r

/-- The stored state after a call that concerns withdrawals. -/
def withdrawalStep (cfg : Settings) (db : Db) (o : WithdrawalOp) : Db := step cfg db o.op

def requestAmount (status : WithdrawalStatus) (walletId : ℕ) (r : WalletWithdrawalRequest) : ℤ :=
  if r.walletId = walletId ∧ r.status = status then r.amount else 0

/-- What the wallet holds, has on hold and has paid out. -/
def total (db : Db) (walletId : ℕ) : ℤ :=
  db.balance walletId + db.withdrawalRequests.sum (requestAmount .requested walletId) +
    db.withdrawalRequests.sum (requestAmount .processed walletId)

def claimAmount (walletId : ℕ) (r : WalletWithdrawalRequest) : ℤ :=
  requestAmount .requested walletId r + requestAmount .processed walletId r

theorem total_eq (db : Db) (k : ℕ) :
    total db k = db.balance k + db.withdrawalRequests.sum (claimAmount k) := by
  have hsum : db.withdrawalRequests.sum (claimAmount k) =
      db.withdrawalRequests.sum (requestAmount .requested k) +
        db.withdrawalRequests.sum (requestAmount .processed k) := Table.sum_add_distrib _ _ _
  rw [total, hsum]
  omega

variable {r : WalletWithdrawalRequest}

theorem claimAmount_of_live (h : r.status = .requested ∨ r.status = .processed) (k : ℕ) :
    claimAmount k r = if k = r.walletId then r.amount else 0 := by
  unfold claimAmount requestAmount
  rcases h with h | h <;> simp [h, eq_comm]

theorem claimAmount_rejected (h : r.status = .rejected) (k : ℕ) :
    claimAmount k r = 0 := by
  simp [claimAmount, requestAmount, h]

/-- The balances of the call are amounts that their column keeps: the one that is drawn on, and the
one that a rejection would leave. -/
def StaysKept (db : Db) : WithdrawalOp → Prop
  | .request userId _ _ => ∀ w ∈ db.wallets, w.userId = userId → Kept w.balance
  | .approve _ _ => True
  | .reject requestId _ => ∀ r ∈ db.withdrawalRequests, r.id = requestId →
    ∀ w ∈ db.wallets, w.id = r.walletId → Kept (w.balance + r.amount)

instance (db : Db) : DecidablePred (StaysKept db)
  | .request _ _ _ => inferInstanceAs (Decidable (∀ _ ∈ _, _ → _))
  | .approve _ _ => inferInstanceAs (Decidable True)
  | .reject _ _ => inferInstanceAs (Decidable (∀ _ ∈ _, _ → ∀ _ ∈ _, _ → _))

variable {cfg : Settings} {db db' : Db} {o : WithdrawalOp}

/-- **Conservation**, one call. -/
theorem total_effect (ho : StaysKept db o) (he : Effect cfg db o.op db') (k : ℕ) :
    total db' k = total db k := by
  rw [total_eq, total_eq]
  cases o with
  | request u a b =>
    cases he with
    | unchanged => rfl
    | @requested _ _ _ v w db₁ ha hv hop hle =>
      have hw : Kept w.balance := by
        rcases hop.empty_of_new w hop.mem with hw | hw
        · exact ho w hw hop.owner
        · rw [hw]
          decide
      have hb := balanceOf_moved_of_kept hop.mem (a := -v) (hw.of_le (by omega) (by omega)) k
      have hk := hop.balance k
      have hc := claimAmount_of_live (r := ⟨db₁.withdrawalRequests.freshKey, w.id, v,
        b, .requested⟩)
        (.inl rfl) k
      dsimp only [posted, Db.balance] at hb hk hc ⊢
      rw [Table.sum_add, column_of_kept (hw.of_le hv.le hle), hc, hb, hk, hop.withdrawalRequests]
      split_ifs <;> omega
  | approve j p =>
    cases he with
    | unchanged => rfl
    | @approved _ _ r hr hs =>
      obtain ⟨-, rfl⟩ := Table.get?_eq_some.mp hr
      have hc := claimAmount_of_live (.inl hs) k
      have hc' := claimAmount_of_live (r := { r with status := .processed }) (.inr rfl) k
      have hset := Table.sum_set (r := { r with status := .processed }) hr (claimAmount k)
      dsimp only [Db.balance] at hc' hset ⊢
      omega
  | reject j why =>
    cases he with
    | unchanged => rfl
    | @rejected _ _ r w _ hr hs hw hrw =>
      obtain ⟨hmem, rfl⟩ := Table.get?_eq_some.mp hr
      have hb := balanceOf_moved_of_kept hw (ho r hmem rfl w hw hrw.symm) k
      have hc := claimAmount_of_live (.inl hs) k
      have hc' := claimAmount_rejected (r := { r with status := .rejected }) rfl k
      have hset := Table.sum_set (r := { r with status := .rejected }) hr (claimAmount k)
      rw [hrw] at hc
      dsimp only [Db.balance] at hb hc' hset ⊢
      omega

variable {k : ℕ}

/-- **Decisions are final**, one call: a request that is no longer open stays as it is. -/
theorem decided_effect (he : Effect cfg db o.op db')
    (hr : db.withdrawalRequests.get? k = some r) (hs : r.status ≠ .requested) :
    db'.withdrawalRequests.get? k = some r := by
  have hset : ∀ r₀ r' : WalletWithdrawalRequest, r₀.status = .requested →
      db.withdrawalRequests.get? r₀.id = some r₀ → r'.id = r₀.id →
      (db.withdrawalRequests.set r').get? k = some r := by
    intro r₀ r' hs₀ hr₀ hid
    have hne : k ≠ r'.id := by
      rintro rfl
      rw [hid, hr₀] at hr
      cases hr
      exact hs hs₀
    exact (Table.get?_set_ne hne).trans hr
  cases o with
  | request u a b =>
    cases he with
    | unchanged => exact hr
    | requested ha hv ho hle =>
      rw [← ho.withdrawalRequests] at hr
      exact Table.get?_add_of_some hr
  | approve j p =>
    cases he with
    | unchanged => exact hr
    | approved hj hsj =>
      obtain ⟨-, rfl⟩ := Table.get?_eq_some.mp hj
      exact hset _ _ hsj hj rfl
  | reject j why =>
    cases he with
    | unchanged => exact hr
    | rejected hj hsj =>
      obtain ⟨-, rfl⟩ := Table.get?_eq_some.mp hj
      exact hset _ _ hsj hj rfl

/-! ## Runs -/

theorem total_run {db : Db} {ops : List WithdrawalOp}
    (hops : Along (withdrawalStep cfg) StaysKept db ops) (k : ℕ) :
    total (run (withdrawalStep cfg) db ops) k = total db k :=
  run_invariant_of_along (I := fun db' => total db' k = total db k)
    (fun s o h ho => (total_effect ho (step_effect cfg s o.op) k).trans h) rfl hops

theorem decided_run (cfg : Settings) {db : Db}
    (hr : db.withdrawalRequests.get? k = some r) (hs : r.status ≠ .requested)
    (ops : List WithdrawalOp) :
    (run (withdrawalStep cfg) db ops).withdrawalRequests.get? k = some r :=
  run_invariant (I := fun db' : Db => db'.withdrawalRequests.get? k = some r)
    (fun s o h => decided_effect (step_effect cfg s o.op) h hs) hr ops

def IsOpen (db : Db) (requestId : ℕ) : Prop :=
  ∃ r, db.withdrawalRequests.get? requestId = some r ∧ r.status = .requested

/-- A call by which the request stops being open. -/
def Leaves (db db' : Db) (requestId : ℕ) : Prop := IsOpen db requestId ∧ ¬ IsOpen db' requestId

theorem kept_effect (he : Effect cfg db o.op db') (hr : db.withdrawalRequests.get? k = some r) :
    ∃ r', db'.withdrawalRequests.get? k = some r' := by
  have hset : ∀ x, ∃ r', (db.withdrawalRequests.set x).get? k = some r' := fun x =>
    ⟨_, by rw [Table.get?_set, hr]; rfl⟩
  cases o with
  | request u a b =>
    cases he with
    | unchanged => exact ⟨r, hr⟩
    | requested ha hv ho hle =>
      rw [← ho.withdrawalRequests] at hr
      exact ⟨r, Table.get?_add_of_some hr⟩
  | approve j p =>
    cases he with
    | unchanged => exact ⟨r, hr⟩
    | approved hj hsj => exact hset _
  | reject j why =>
    cases he with
    | unchanged => exact ⟨r, hr⟩
    | rejected hj hsj => exact hset _

theorem not_open_run {db : Db}
    (h : Leaves db (withdrawalStep cfg db o) k) (ops : List WithdrawalOp) :
    ¬ IsOpen (run (withdrawalStep cfg) (withdrawalStep cfg db o) ops) k := by
  obtain ⟨⟨r, hr, -⟩, hclosed⟩ := h
  obtain ⟨r', hr'⟩ := kept_effect (step_effect cfg db o.op) hr
  have hs : r'.status ≠ .requested := fun hs => hclosed ⟨r', hr', hs⟩
  rintro ⟨x, hx, hsx⟩
  cases hx.symm.trans (decided_run cfg hr' hs ops)
  exact hs hsx

theorem unchanged_of_error {db : Db} {e : Exc} (h : (exec cfg db o.op).1 = .error e) :
    (exec cfg db o.op).2 = db := by
  cases o with
  | request => exact discard_error atomic_requestWithdrawal h
  | approve => exact discard_error atomic_approveWithdrawalRequest h
  | reject => exact discard_error atomic_rejectWithdrawalRequest h

/-- **Withdrawal conservation.**  In every run of withdrawal requests, approvals and rejections from
any state: each wallet's total is constant, if the balances are amounts that their columns keep; a
processed or rejected request stays as it is; a request stops being open at most once; and a call
that raises changes nothing. -/
theorem withdrawal_conservation (cfg : Settings) (db : Db) (ops : List WithdrawalOp) :
    (Along (withdrawalStep cfg) StaysKept db ops →
      ∀ k, total (run (withdrawalStep cfg) db ops) k = total db k) ∧
    (∀ pre post k r, ops = pre ++ post →
      (run (withdrawalStep cfg) db pre).withdrawalRequests.get? k = some r →
      r.status = .processed ∨ r.status = .rejected →
      (run (withdrawalStep cfg) db ops).withdrawalRequests.get? k = some r) ∧
    (∀ pre o mid o' post k, ops = pre ++ o :: (mid ++ o' :: post) →
      Leaves (run (withdrawalStep cfg) db pre) (run (withdrawalStep cfg) db (pre ++ [o])) k →
      ¬ Leaves (run (withdrawalStep cfg) db (pre ++ o :: mid))
        (run (withdrawalStep cfg) db (pre ++ o :: (mid ++ [o']))) k) ∧
    (∀ pre o post e, ops = pre ++ o :: post →
      (exec cfg (run (withdrawalStep cfg) db pre) o.op).1 = .error e →
      (exec cfg (run (withdrawalStep cfg) db pre) o.op).2 = run (withdrawalStep cfg) db pre) := by
  refine ⟨total_run, ?_, ?_, fun pre o post e _ herr => unchanged_of_error herr⟩
  · rintro pre post k r rfl hr hs
    rw [run_append]
    exact decided_run cfg hr (by rcases hs with h | h <;> simp [h]) post
  · rintro pre o mid o' post k rfl hleave ⟨hopen, -⟩
    rw [run_concat] at hleave
    rw [run_append, run_cons] at hopen
    exact not_open_run hleave mid hopen

/-- A wallet of 60.00 with an open request of 40.00, whose row has a status that can be loaded. -/
def openRequest : Db :=
  { Db.ofWallets sampleUsers ⟨[⟨1, 1, 6000⟩], by decide⟩ with
    withdrawalRequests := ⟨[⟨1, 1, 4000, "bank", .requested⟩], by decide⟩
    transactions := ⟨[{
      id := 1, userId := 1, walletId := some 1, amount := -4000, balanceAfter := some 6000,
      type := some .debit, category := some "withdrawal_request", status := .other "PENDING",
      description := none, referenceType := some "withdrawal_request",
      referenceId := some "1" }], by decide⟩ }

/-- The request is rejected; the one made after it cannot be. -/
theorem withdrawal_conservation_sample :
    (run (withdrawalStep {}) openRequest [.request 1 (.finite 10 0) "bank", .reject 1 none,
      .reject 2 none]).balance 1 = 9000 ∧
    total (run (withdrawalStep {}) openRequest [.request 1 (.finite 10 0) "bank",
      .reject 1 none, .reject 2 none]) 1 = total openRequest 1 :=
  ⟨by decide +kernel, (withdrawal_conservation {} openRequest _).1 (by decide +kernel) 1⟩

/-- Two requests of 0.01, of a wallet with a hundred trillion rupees: what is left is rounded to a
64th each time. -/
theorem withdrawals_not_conserved :
    ¬ ∀ (db : Db) (ops : List WithdrawalOp) (k : ℕ),
      total (run (withdrawalStep {}) db ops) k = total db k := by
  intro h
  have hw := h (.ofWallets sampleUsers ⟨[⟨1, 1, 10000000000000000⟩], by decide⟩)
    [.request 1 (.finite 1 (-2)) "bank", .request 1 (.finite 1 (-2)) "bank"] 1
  revert hw
  decide +kernel

end WezuBackend.Wallet.Withdrawal
