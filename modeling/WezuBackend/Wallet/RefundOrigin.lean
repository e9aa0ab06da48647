import WezuBackend.Wallet.Effects
import WezuBackend.Lib.Runs

/-!
# What a refund gives back

`initiate_refund` asks of the original transaction that it is a credit, not that it is settled, so
a pending credit can be refunded, as long as its status is one that can be loaded
(`pending_refunded`).  In a run in which no accepted refund is for an unsettled credit, every refund
paid is for a transaction that was settled when the refund was initiated (`refund_of_settled`).  Of
a ledger with rows of the service alone nothing is ever refunded (`never_refunded`).
-/

namespace WezuBackend.Wallet.RefundOrigin

open Lib.Tables Lib.Runs Core.Amounts Financial.Model Wallet.Service Wallet.Operations
open Wallet.Effects

/-- The transaction moved money; the second text is the member of the `Enum`. -/
def Settled (txn : Transaction) : Prop := txn.status = .success ∨ txn.status = .other "SUCCESS"

/-- `initiate_refund` accepts a refund of the transaction. -/
def RefundAccepted (db : Db) (txn : Transaction) (amount : Option Amount) : Prop :=
  db.transactions.get? txn.id = some txn ∧ txn.status.Readable ∧ txn.type = some .credit ∧
    db.refunds.find? (isOpenRefundOf txn.id) = none ∧
    ∃ v, toMoney (amount.getD (.ofMoney txn.amount)) = .ok v ∧ 0 < v ∧ Fits txn.amount ∧
      v ≤ txn.amount

/-- The call initiates no refund of an unsettled credit. -/
def SettledOnly (db : Db) (op : Op) : Prop :=
  ∀ now k amount why txn, op = .initiateRefund now k amount why → txn.id = k →
    RefundAccepted db txn amount → Settled txn

def IsRefundOf (refundId transactionId : ℕ) (db : Db) : Prop :=
  ∃ r, db.refunds.get? refundId = some r ∧ r.transactionId = transactionId

variable {cfg : Settings} {db db' : Db}

/-- **Where refunds come from**: a call that makes a refund be there initiates it. -/
theorem initiated_effect {op : Op} (he : Effect cfg db op db')
    {j k : ℕ} (h : ¬ IsRefundOf j k db) (h' : IsRefundOf j k db') :
    ∃ now amount why txn, op = .initiateRefund now k amount why ∧ txn.id = k ∧
      RefundAccepted db txn amount := by
  have hset : ∀ r r' : Refund, db'.refunds = db.refunds.set r' →
      db.refunds.get? r.id = some r → r'.id = r.id →
      r'.transactionId = r.transactionId → False := by
    intro r r' hdb hr hid htxn
    obtain ⟨x, hx, hxk⟩ := h'
    rw [hdb, Table.get?_set] at hx
    obtain ⟨y, hy, hyx⟩ := Option.map_eq_some_iff.mp hx
    refine h ⟨y, hy, ?_⟩
    rw [← hxk, ← hyx]
    split_ifs with hk
    · have hyr : y = r := Table.eq_of_key (Table.get?_eq_some.mp hy).1 (Table.get?_eq_some.mp hr).1
        (hk.trans hid)
      rw [hyr, htxn]
    · rfl
  have hsame : db'.refunds = db.refunds → False := by
    intro hdb
    obtain ⟨x, hx, hxk⟩ := h'
    rw [hdb] at hx
    exact h ⟨x, hx, hxk⟩
  cases he with
  | unchanged => exact (hsame rfl).elim
  | added ha hv ho => exact (hsame ho.refunds).elim
  | deducted ha hv ho hle => exact (hsame ho.refunds).elim
  | intentCreated ha hv ho hnew => exact (hsame ho.refunds).elim
  | captured ha hv ht htw hw hu hl hf hn => exact (hsame (by rw [hn.rest])).elim
  | intentFailed => exact (hsame rfl).elim
  | requested ha hv ho hle => exact (hsame ho.refunds).elim
  | approved => exact (hsame rfl).elim
  | rejected => exact (hsame rfl).elim
  | transferred ha hv hr ho hsw hrw hsown hown hne hle => exact (hsame ho.refunds).elim
  | @refundInitiated now i a why t v ht hread hc hnone ha hv hf hle =>
    obtain ⟨x, hx, hxk⟩ := h'
    obtain ⟨hmem, hid⟩ := Table.get?_eq_some.mp hx
    obtain ⟨-, rfl⟩ := Table.get?_eq_some.mp ht
    rcases Table.mem_add.mp hmem with hmem | rfl
    · exact absurd ⟨x, Table.get?_eq_some.mpr ⟨hmem, hid⟩, hxk⟩ h
    · obtain rfl : t.id = k := hxk
      exact ⟨now, a, why, t, rfl, rfl, ht, hread, hc, hnone, v, ha, hv, hf, hle⟩
  | refundAbandoned hr hs =>
    obtain ⟨-, rfl⟩ := Table.get?_eq_some.mp hr
    exact (hset _ _ rfl hr rfl rfl).elim
  | refunded hr hs ht hread htw hw =>
    obtain ⟨-, rfl⟩ := Table.get?_eq_some.mp hr
    exact (hset _ _ rfl hr rfl rfl).elim

/-- A `process_refund` that moves a balance pays the refund of its id. -/
theorem paid_effect {j : ℕ}
    (he : Effect cfg db (.processRefund j) db') (hm : ∃ k, db'.balance k ≠ db.balance k) :
    ∃ r, db.refunds.get? j = some r := by
  obtain ⟨k, hk⟩ := hm
  cases he with
  | unchanged => exact absurd rfl hk
  | refundAbandoned => exact absurd rfl hk
  | refunded hr => exact ⟨_, hr⟩

/-- Every call of `process_refund` in the run that moves a balance pays a refund that an earlier
call initiated, on a transaction that was settled at that time. -/
def RefundsSettled (cfg : Settings) (db : Db) (ops : List Op) : Prop :=
  ∀ pre j post, ops = pre ++ .processRefund j :: post →
    (∃ k, (run (step cfg) db (pre ++ [.processRefund j])).balance k ≠
      (run (step cfg) db pre).balance k) →
    ∃ before now txn amount why after r,
      pre = before ++ .initiateRefund now txn.id amount why :: after ∧
      (run (step cfg) db pre).refunds.get? j = some r ∧ r.transactionId = txn.id ∧
      ¬ IsRefundOf j txn.id (run (step cfg) db before) ∧
      IsRefundOf j txn.id (run (step cfg) db (before ++ [.initiateRefund now txn.id amount why])) ∧
      (run (step cfg) db before).transactions.get? txn.id = some txn ∧ Settled txn

/-- **Refunds are of settled transactions**, in a run from a store without refunds that initiates no
refund of an unsettled credit. -/
theorem refund_of_settled (cfg : Settings) (db : Db) (h : db.refunds.rows = []) (ops : List Op)
    (hops : Along (step cfg) SettledOnly db ops) : RefundsSettled cfg db ops := by
  rintro pre j post rfl hm
  rw [run_concat] at hm
  obtain ⟨r, hr⟩ := paid_effect (step_effect cfg _ _) hm
  have hstart : ¬ IsRefundOf j r.transactionId db := by
    rintro ⟨x, hx, -⟩
    have hmem := (Table.get?_eq_some.mp hx).1
    rw [Table.mem_def, h] at hmem
    cases hmem
  obtain ⟨before, op, after, rfl, hbefore, hafter⟩ := exists_switch hstart ⟨r, hr, rfl⟩
  obtain ⟨now, amount, why, txn, rfl, hid, hacc⟩ :=
    initiated_effect (step_effect cfg _ op) hbefore hafter
  have halong := (along_append.mp (along_append.mp hops).1).2.1
  refine ⟨before, now, txn, amount, why, after, r, by rw [hid], hr, hid.symm, by rwa [hid], ?_,
    hacc.1, halong _ _ _ _ txn rfl hid hacc⟩
  rw [run_concat, hid]
  exact hafter

def credit (status : TxnStatus) : Transaction :=
  { id := 1, userId := 1, walletId := some 1, amount := 10000, balanceAfter := some 0,
    type := some .credit, category := some "deposit", status, description := none }

/-- A store with a credit of 100.00. -/
def credited (status : TxnStatus) : Db :=
  { Db.ofWallets sampleUsers sampleWallets with
    transactions := Table.empty.add fun id => { credit status with id } }

def refund : List Op := [.initiateRefund 0 1 none "Customer Request", .processRefund 1]

theorem refund_of_settled_sample :
    RefundsSettled {} (credited (.other "SUCCESS")) refund := by
  refine refund_of_settled {} _ rfl refund ⟨?_, ?_, trivial⟩
  · rintro _ _ _ _ txn ⟨⟩ - hacc
    have hsettled : ∀ t ∈ (credited (.other "SUCCESS")).transactions,
        t.status = .other "SUCCESS" := by
      decide
    exact .inr (hsettled txn (Table.get?_eq_some.mp hacc.1).1)
  · rintro _ _ _ _ _ ⟨⟩

/-- The refund of a credit that is pending raises the balance. -/
theorem pending_refunded :
    ¬ ∀ (db : Db), db.refunds.rows = [] → ∀ ops : List Op, RefundsSettled {} db ops := by
  intro h
  obtain ⟨before, now, txn, amount, why, after, r, hpre, -, -, -, -, htxn, hs⟩ :=
    h (credited (.other "PENDING")) rfl refund (refund.take 1) 1 [] rfl ⟨1, by decide⟩
  have hpending : ∀ t ∈ (credited (.other "PENDING")).transactions,
      t.status = .other "PENDING" := by
    decide
  rcases before with _ | ⟨op, before⟩
  · have hstatus := hpending txn (Table.get?_eq_some.mp htxn).1
    rcases hs with hs | hs
    · cases hstatus.symm.trans hs
    · exact absurd (TxnStatus.other.inj (hstatus.symm.trans hs)) (by decide)
  · have hlen := congrArg List.length hpre
    simp [refund] at hlen

/-- **What the service wrote is not refunded.** -/
theorem never_refunded (cfg : Settings) {db : Db} (h : Unloadable db) (ops : List Op) (refundId : ℕ)
    (k : ℕ) : (run (step cfg) db (ops ++ [.processRefund refundId])).balance k =
      (run (step cfg) db ops).balance k := by
  rw [run_concat]
  have hrows : Unloadable (run (step cfg) db ops) :=
    run_invariant (fun db op h => h.effect (step_effect cfg db op)) h ops
  generalize run (step cfg) db ops = db₁ at hrows ⊢
  have he := step_effect cfg db₁ (.processRefund refundId)
  generalize step cfg db₁ (.processRefund refundId) = db₂ at he ⊢
  cases he with
  | unchanged => rfl
  | refundAbandoned => rfl
  | refunded hr hs ht hread => exact absurd hread (hrows _ (Table.get?_eq_some.mp ht).1)

end WezuBackend.Wallet.RefundOrigin
