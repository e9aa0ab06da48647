import WezuBackend.Wallet.Operations

/-!
# `step_effect`

Every program of `WalletService` is peeled apart once, for the calls that return
(`addBalance_effect` and its siblings).  A call that raises changes nothing, but for the two ways
in which something is raised after a commit: `process_refund` gives a refund up
(`processRefund_raised`), and a row written cannot be loaded again (`refreshed_effect`).
-/

namespace WezuBackend.Wallet.Effects

open Lib.Tables Lib.Atomicity Lib.Atomicity.Tx Core.Base Core.Amounts Financial.Model Wallet.Service
open Wallet.Operations

/-! ## Completed calls -/

section Completed

variable {cfg : Settings} {db : Db} {t : Session Db}

theorem addBalance_effect {u a d g c rt ri w}
    (h : addBalance u a d g c rt ri (.fresh db) = (.ok w, t)) :
    Effect cfg db (.addBalance u a d g c rt ri) t.committed := by
  simp only [addBalance, bind_ok, money_ok, stored_ok, ensure_ok, saveWallet_ok, addTransaction_ok,
    commitLedger_ok, pure_ok] at h
  obtain ⟨v, _, ⟨ha, rfl⟩, _, _, ⟨hv, rfl⟩, w, s, hw, _, _, ⟨⟨-, rfl⟩, rfl⟩, h⟩ := h
  obtain ⟨_, _, rfl, _, _, ⟨⟨-, rfl⟩, rfl⟩, _, _, ⟨-, rfl⟩, _, _, ⟨-, rfl⟩, -, rfl⟩ := h
  exact .added ha hv (getWallet_ok hw).2

theorem deductBalance_effect {u a d w} (h : deductBalance u a d (.fresh db) = (.ok w, t)) :
    Effect cfg db (.deductBalance u a d) t.committed := by
  simp only [deductBalance, bind_ok, money_ok, stored_ok, ensure_ok, saveWallet_ok,
    addTransaction_ok, commitLedger_ok, pure_ok] at h
  obtain ⟨v, _, ⟨ha, rfl⟩, _, _, ⟨hv, rfl⟩, w, s, hw, _, _, ⟨⟨-, rfl⟩, rfl⟩, h⟩ := h
  obtain ⟨_, _, ⟨hle, rfl⟩, _, _, rfl, _, _, ⟨⟨-, rfl⟩, rfl⟩, _, _, ⟨-, rfl⟩, h⟩ := h
  obtain ⟨_, _, ⟨-, rfl⟩, -, rfl⟩ := h
  exact .deducted ha hv (getWallet_ok hw).2 hle

theorem requestWithdrawal_effect {u a b r} (h : requestWithdrawal u a b (.fresh db) = (.ok r, t)) :
    Effect cfg db (.requestWithdrawal u a b) t.committed := by
  simp only [requestWithdrawal, bind_ok, money_ok, stored_ok, ensure_ok, saveWallet_ok,
    addTransaction_ok, addWithdrawalRequest_ok, commitLedger_ok, pure_ok] at h
  obtain ⟨v, _, ⟨ha, rfl⟩, _, _, ⟨hv, rfl⟩, w, s, hw, _, _, ⟨⟨-, rfl⟩, rfl⟩, h⟩ := h
  obtain ⟨_, _, ⟨hle, rfl⟩, _, _, ⟨rfl, rfl⟩, _, _, rfl, _, _, ⟨⟨-, rfl⟩, rfl⟩, h⟩ := h
  obtain ⟨_, _, ⟨-, rfl⟩, _, _, ⟨-, rfl⟩, -, rfl⟩ := h
  exact .requested ha hv (getWallet_ok hw).2 hle

theorem approveWithdrawalRequest_effect {k p r}
    (h : approveWithdrawalRequest k p (.fresh db) = (.ok r, t)) :
    Effect cfg db (.approveWithdrawalRequest k p) t.committed := by
  simp only [approveWithdrawalRequest, bind_ok, look_ok, demand_ok, ensure_ok, firstTransaction_ok,
    saveWithdrawalRequest_ok, Session.working_fresh] at h
  obtain ⟨_, _, ⟨rfl, rfl⟩, req, _, ⟨hr, rfl⟩, _, _, ⟨hs, rfl⟩, _, _, ⟨⟨hl, rfl⟩, rfl⟩, h⟩ := h
  obtain ⟨_, _, rfl, h⟩ := h
  obtain ⟨hmem, rfl⟩ := Table.get?_eq_some.mp hr
  have he : Effect cfg db (.approveWithdrawalRequest req.id p) _ := .approved hr hs hl
  rcases ht : db.transactions.find? (isWithdrawalOf req.id) with _ | txn
  all_goals
    simp only [ht, bind_ok, saveTransaction_ok, commitLedger_ok, pure_ok, marked,
      Session.working_fresh] at h he
  · obtain ⟨_, _, ⟨-, rfl⟩, -, rfl⟩ := h
    exact he
  · obtain ⟨_, _, rfl, _, _, ⟨-, rfl⟩, -, rfl⟩ := h
    exact he

theorem rejectWithdrawalRequest_effect {k reason r}
    (h : rejectWithdrawalRequest k reason (.fresh db) = (.ok r, t)) :
    Effect cfg db (.rejectWithdrawalRequest k reason) t.committed := by
  simp only [rejectWithdrawalRequest, bind_ok, look_ok, demand_ok, ensure_ok, firstTransaction_ok,
    stored_ok, saveWallet_ok, addTransaction_ok, Session.working_fresh] at h
  obtain ⟨_, _, ⟨rfl, rfl⟩, req, _, ⟨hr, rfl⟩, _, _, ⟨hs, rfl⟩, w, _, ⟨hw, rfl⟩, h⟩ := h
  obtain ⟨_, _, ⟨⟨hl, rfl⟩, rfl⟩, _, _, ⟨-, rfl⟩, _, _, ⟨⟨hfr, rfl⟩, rfl⟩, h⟩ := h
  obtain ⟨_, _, ⟨⟨hfw, rfl⟩, rfl⟩, _, _, rfl, h⟩ := h
  obtain ⟨_, _, ⟨⟨hfs, rfl⟩, rfl⟩, _, _, ⟨-, rfl⟩, h⟩ := h
  obtain ⟨-, rfl⟩ := Table.get?_eq_some.mp hr
  obtain ⟨hmem, hrw⟩ := Table.get?_eq_some.mp hw
  have he (d : String) : Effect cfg db (.rejectWithdrawalRequest req.id reason) _ :=
    .rejected (d := d) hr hs hmem hrw.symm hl hfr hfw hfs
  rcases hf : db.transactions.find? (isWithdrawalOf req.id) with _ | txn
  all_goals
    simp only [hf, bind_ok, saveTransaction_ok, saveWithdrawalRequest_ok, commitLedger_ok, pure_ok,
      marked, Session.working_fresh] at h he
  · obtain ⟨_, _, rfl, _, _, ⟨-, rfl⟩, -, rfl⟩ := h
    exact he _
  · obtain ⟨_, _, rfl, _, _, rfl, _, _, ⟨-, rfl⟩, -, rfl⟩ := h
    exact he _

theorem initiateRefund_effect {now k a why r}
    (h : initiateRefund now k a why (.fresh db) = (.ok r, t)) :
    Effect cfg db (.initiateRefund now k a why) t.committed := by
  simp only [initiateRefund, bind_ok, getTransaction_ok, Session.working_fresh] at h
  obtain ⟨_, _, ⟨⟨hread, rfl⟩, rfl⟩, h⟩ := h
  rcases ht : db.transactions.get? k with _ | txn
  · simp only [ht, pure_ok] at h
    obtain ⟨-, rfl⟩ := h
    exact .unchanged _
  simp only [ht] at h
  split_ifs at h with hc
  · obtain ⟨-, rfl⟩ := pure_ok.mp h
    exact .unchanged _
  simp only [bind_ok, look_ok, Session.working_fresh] at h
  obtain ⟨_, _, ⟨rfl, rfl⟩, h⟩ := h
  rcases hf : db.refunds.find? (isOpenRefundOf k) with _ | existing
  · simp only [hf, bind_ok, money_ok, ensure_ok, stored_ok, addRefund_ok, commit_ok, pure_ok] at h
    obtain ⟨v, _, ⟨ha, rfl⟩, _, _, ⟨hv, rfl⟩, _, _, ⟨⟨hfits, rfl⟩, rfl⟩, _, _, ⟨hle, rfl⟩, h⟩ := h
    obtain ⟨_, _, ⟨-, rfl⟩, _, _, rfl, -, rfl⟩ := h
    exact .refundInitiated ht (hread txn ht) (not_not.mp hc) hf ha hv hfits hle
  · simp only [hf, pure_ok] at h
    obtain ⟨-, rfl⟩ := h
    exact .unchanged _

theorem processRefund_effect {k r} (h : processRefund k (.fresh db) = (.ok r, t)) :
    Effect cfg db (.processRefund k) t.committed := by
  simp only [processRefund, bind_ok, look_ok, demand_ok, Session.working_fresh] at h
  obtain ⟨_, _, ⟨rfl, rfl⟩, refund, _, ⟨hr, rfl⟩, h⟩ := h
  split_ifs at h with hp
  · obtain ⟨-, rfl⟩ := pure_ok.mp h
    exact .unchanged _
  simp only [bind_ok, ensure_ok, getTransaction_ok] at h
  obtain ⟨_, _, ⟨hs, rfl⟩, _, _, ⟨⟨hread, rfl⟩, rfl⟩, h⟩ := h
  simp only [Session.working_fresh] at hread h
  rcases ht : db.transactions.get? refund.transactionId with _ | txn
  · simp [ht, bind_ok] at h
  simp only [ht] at h
  rcases hw : txn.walletId.bind db.wallets.get? with _ | wallet
  · simp [hw, bind_ok] at h
  simp only [hw, bind_ok, stored_ok, saveWallet_ok, addTransaction_ok, saveRefund_ok,
    commitLedger_ok, pure_ok] at h
  obtain ⟨_, _, ⟨⟨-, rfl⟩, rfl⟩, _, _, ⟨⟨-, rfl⟩, rfl⟩, _, _, rfl, h⟩ := h
  obtain ⟨_, _, ⟨⟨-, rfl⟩, rfl⟩, _, _, ⟨-, rfl⟩, _, _, rfl, _, _, ⟨-, rfl⟩, -, rfl⟩ := h
  obtain ⟨wid, hwid, hget⟩ := Option.bind_eq_some_iff.mp hw
  obtain ⟨hmem, rfl⟩ := Table.get?_eq_some.mp hget
  obtain ⟨-, rfl⟩ := Table.get?_eq_some.mp hr
  exact .refunded hr hs ht (hread txn ht) hwid hmem

end Completed

/-! ## Calls that raise -/

section Raised

theorem tentative_money (a : Amount) : Tentative (money a) := (readOnly_lift _).tentative

theorem tentative_stored (m : ℤ) : Tentative (stored m) := tentative_money _

theorem tentative_look : Tentative (look : WalletTx Db) := readOnly_look.tentative

theorem tentative_ensure (p : Prop) [Decidable p] (e : Exc) :
    Tentative (ensure p e : WalletTx Unit) := (readOnly_ensure p e).tentative

theorem tentative_demand {α : Type} (o : Option α) (e : Exc) :
    Tentative (demand o e : WalletTx α) := (readOnly_demand o e).tentative

theorem readOnly_firstTransaction (p : Transaction → Bool) : ReadOnly (firstTransaction p) :=
  readOnly_look.bind fun _ => (readOnly_ensure _ _).bind fun _ => readOnly_pure _

theorem tentative_firstTransaction (p : Transaction → Bool) : Tentative (firstTransaction p) :=
  (readOnly_firstTransaction p).tentative

theorem tentative_getTransaction (k : ℕ) : Tentative (getTransaction k) :=
  tentative_look.bind fun _ => (tentative_ensure _ _).bind fun _ => (readOnly_pure _).tentative

theorem atomic_commitLedger {α : Type} (a : α) : Atomic (commitLedger >>= fun _ => pure a) := by
  have hcommit : Atomic commitLedger := atomic_bind tentative_look fun _ =>
    atomic_bind (tentative_ensure _ _) fun _ _ _ _ h => by cases h
  intro s e t h
  rcases bind_error.mp h with h | ⟨_, _, -, h⟩
  · exact hcommit s e t h
  · cases h

theorem tentative_addWallet (mk : ℕ → Wallet) (hmk) : Tentative (addWallet mk hmk) :=
  tentative_look.bind fun _ => (tentative_update _).bind fun _ => (readOnly_pure _).tentative

theorem tentative_addTransaction (mk : ℕ → Transaction) (hmk) :
    Tentative (addTransaction mk hmk) :=
  tentative_look.bind fun _ => (tentative_update _).bind fun _ => (readOnly_pure _).tentative

theorem tentative_addWithdrawalRequest (mk : ℕ → WalletWithdrawalRequest) (hmk) :
    Tentative (addWithdrawalRequest mk hmk) :=
  tentative_look.bind fun _ => (tentative_update _).bind fun _ => (readOnly_pure _).tentative

theorem tentative_addRefund (mk : ℕ → Refund) (hmk) : Tentative (addRefund mk hmk) :=
  tentative_look.bind fun _ => (tentative_update _).bind fun _ => (readOnly_pure _).tentative

theorem tentative_addNotification (mk : ℕ → Notification) (hmk) :
    Tentative (addNotification mk hmk) :=
  tentative_look.bind fun _ => (tentative_update _).bind fun _ => (readOnly_pure _).tentative

theorem tentative_addOutboxRow (mk : ℕ → NotificationOutbox) (hmk) :
    Tentative (addOutboxRow mk hmk) :=
  tentative_look.bind fun _ => (tentative_update _).bind fun _ => (readOnly_pure _).tentative

theorem tentative_getWallet (userId : ℕ) : Tentative (getWallet userId) := by
  refine tentative_look.bind fun db => ?_
  rcases db.wallets.find? fun w => w.userId = userId with _ | w
  · exact (tentative_demand _ _).bind fun _ => (tentative_addWallet _ _).bind fun _ =>
      (readOnly_pure _).tentative
  · exact (readOnly_pure w).tentative

theorem tentative_enqueue (cfg : Settings) (now : ℕ) (n : Notification) (at? : Option ℕ)
    (key : Option String) : Tentative (enqueue cfg now n at? key) := by
  refine tentative_look.bind fun db => ?_
  split
  · exact (readOnly_pure _).tentative
  · exact tentative_addOutboxRow _ _

theorem tentative_stage (cfg : Settings) (now userId : ℕ) (v : ℤ) (p : String) :
    Tentative (stageRechargeSuccessNotifications cfg now userId v p) := by
  unfold stageRechargeSuccessNotifications
  generalize rechargeChannels = cs
  induction cs with
  | nil => exact (readOnly_pure _).tentative
  | cons c cs ih =>
    exact Tentative.bind ((tentative_addNotification _ _).bind fun _ =>
      (tentative_enqueue _ _ _ _ _).bind fun _ => (readOnly_pure _).tentative) fun _ => ih

theorem atomic_addBalance {u a d g c rt ri} : Atomic (addBalance u a d g c rt ri) := by
  refine atomic_bind (tentative_money _) fun v => atomic_bind (tentative_ensure _ _) fun _ => ?_
  refine atomic_bind (tentative_getWallet _) fun w => atomic_bind (tentative_stored _) fun b => ?_
  refine atomic_bind (tentative_update _) fun _ => atomic_bind (tentative_stored _) fun b' => ?_
  exact atomic_bind (tentative_addTransaction _ _) fun _ => atomic_commitLedger _

theorem atomic_deductBalance {u a d} : Atomic (deductBalance u a d) := by
  refine atomic_bind (tentative_money _) fun v => atomic_bind (tentative_ensure _ _) fun _ => ?_
  refine atomic_bind (tentative_getWallet _) fun w => atomic_bind (tentative_stored _) fun b => ?_
  refine atomic_bind (tentative_ensure _ _) fun _ => atomic_bind (tentative_update _) fun _ => ?_
  refine atomic_bind (tentative_stored _) fun b' => ?_
  exact atomic_bind (tentative_addTransaction _ _) fun _ => atomic_commitLedger _

theorem atomic_requestWithdrawal {u a b} : Atomic (requestWithdrawal u a b) := by
  refine atomic_bind (tentative_money _) fun v => atomic_bind (tentative_ensure _ _) fun _ => ?_
  refine atomic_bind (tentative_getWallet _) fun w => atomic_bind (tentative_stored _) fun b => ?_
  refine atomic_bind (tentative_ensure _ _) fun _ => ?_
  refine atomic_bind (tentative_addWithdrawalRequest _ _) fun r => ?_
  refine atomic_bind (tentative_update _) fun _ => atomic_bind (tentative_stored _) fun b' => ?_
  exact atomic_bind (tentative_addTransaction _ _) fun _ => atomic_commitLedger _

theorem atomic_approveWithdrawalRequest {k p} : Atomic (approveWithdrawalRequest k p) := by
  refine atomic_bind tentative_look fun db => atomic_bind (tentative_demand _ _) fun r => ?_
  refine atomic_bind (tentative_ensure _ _) fun _ => ?_
  refine atomic_bind (tentative_firstTransaction _) fun _ => ?_
  refine atomic_bind (tentative_update _) fun _ => ?_
  split
  · exact atomic_commitLedger _
  · exact atomic_bind (tentative_update _) fun _ => atomic_commitLedger _

theorem atomic_rejectWithdrawalRequest {k reason} :
    Atomic (rejectWithdrawalRequest k reason) := by
  refine atomic_bind tentative_look fun db => atomic_bind (tentative_demand _ _) fun r => ?_
  refine atomic_bind (tentative_ensure _ _) fun _ => atomic_bind (tentative_demand _ _) fun w => ?_
  refine atomic_bind (tentative_firstTransaction _) fun _ => ?_
  refine atomic_bind (tentative_ensure _ _) fun _ => atomic_bind (tentative_stored _) fun v => ?_
  refine atomic_bind (tentative_stored _) fun b => atomic_bind (tentative_update _) fun _ => ?_
  refine atomic_bind (tentative_stored _) fun b' => ?_
  refine atomic_bind (tentative_addTransaction _ _) fun _ => ?_
  split
  · exact atomic_bind (tentative_update _) fun _ => atomic_commitLedger _
  · exact atomic_bind (tentative_update _) fun _ => atomic_bind (tentative_update _) fun _ =>
      atomic_commitLedger _

theorem atomic_initiateRefund {now k a why} : Atomic (initiateRefund now k a why) := by
  refine atomic_bind (tentative_getTransaction _) fun txn => ?_
  split
  · exact (readOnly_pure _).tentative.atomic
  split_ifs
  · exact (readOnly_pure _).tentative.atomic
  refine atomic_bind tentative_look fun db => ?_
  split
  · exact (readOnly_pure _).tentative.atomic
  · refine atomic_bind (tentative_money _) fun v => atomic_bind (tentative_ensure _ _) fun _ => ?_
    refine atomic_bind (tentative_stored _) fun m => atomic_bind (tentative_ensure _ _) fun _ => ?_
    exact atomic_bind (tentative_addRefund _ _) fun _ => atomic_commit _

/-- `process_refund` is not atomic: a refund it cannot pay is left failed. -/
theorem processRefund_raised {db : Db} {k : ℕ} {e : Exc} {t : Session Db}
    (h : processRefund k (.fresh db) = (.error e, t)) :
    t.committed = db ∨ ∃ r, db.refunds.get? k = some r ∧ r.status = .pending ∧
      t.committed = { db with refunds := db.refunds.set { r with status := .failed } } := by
  rcases readOnly_look.bind_error h with rfl | ⟨_, hl, h⟩
  · exact .inl rfl
  obtain ⟨rfl, -⟩ := look_ok.mp hl
  rcases (readOnly_demand _ _).bind_error h with rfl | ⟨r, hr, h⟩
  · exact .inl rfl
  obtain ⟨hr, -⟩ := demand_ok.mp hr
  dsimp only at h
  split_ifs at h with hp
  · cases h
  rcases (readOnly_ensure _ _).bind_error h with rfl | ⟨_, hs, h⟩
  · exact .inl rfl
  obtain ⟨hs, -⟩ := ensure_ok.mp hs
  have habandoned : ∀ e', (saveRefund { r with status := .failed } >>= fun _ => commit >>= fun _ =>
        raise e' : WalletTx Refund) (.fresh db) = (.error e, t) →
      t.committed = { db with refunds := db.refunds.set { r with status := .failed } } := by
    intro e' h
    obtain ⟨-, rfl⟩ := Prod.mk.inj h
    rfl
  rcases bind_error.mp h with h | ⟨_, _, hload, h⟩
  · exact .inl ((tentative_getTransaction _).eq h)
  obtain ⟨⟨-, rfl⟩, rfl⟩ := getTransaction_ok.mp hload
  rcases ht : db.transactions.get? r.transactionId with _ | txn
  · simp only [Session.working_fresh, ht] at h
    exact .inr ⟨r, hr, hs, habandoned _ h⟩
  rcases hw : txn.walletId.bind db.wallets.get? with _ | wallet
  · simp only [Session.working_fresh, ht, hw] at h
    exact .inr ⟨r, hr, hs, habandoned _ h⟩
  · simp only [Session.working_fresh, ht, hw] at h
    refine .inl (atomic_bind (tentative_stored _) (fun v => ?_) _ _ _ h)
    refine atomic_bind (tentative_stored _) fun b => atomic_bind (tentative_update _) fun _ => ?_
    refine atomic_bind (tentative_stored _) fun b' => ?_
    exact atomic_bind (tentative_addTransaction _ _) fun _ =>
      atomic_bind (tentative_update _) fun _ => atomic_commitLedger _

end Raised

/-! ## Operations that load their row again -/

section Refreshed

variable {cfg : Settings} {db : Db}

/-- What the operation has committed stays, also where the refresh raises. -/
theorem refreshed_effect {α : Type} {row : α → Option Transaction} {operation : WalletTx α}
    {op : Op}
    (hok : ∀ a t, operation (.fresh db) = (.ok a, t) → Effect cfg db op t.committed)
    (hatomic : Atomic operation) :
    Effect cfg db op (refreshed row operation (.fresh db)).2.committed := by
  rw [refreshed_snd]
  rcases h : operation (.fresh db) with ⟨e | a, t⟩
  · have hsame : t.committed = db := hatomic _ _ _ h
    rw [hsame]
    exact .unchanged op
  · exact hok a t h

theorem createRechargeIntent_effect (u : ℕ) (a : Amount) (o d : String) :
    Effect cfg db (.createRechargeIntent u a o d)
      (createRechargeIntent u a o d (.fresh db)).2.committed := by
  unfold createRechargeIntent
  refine refreshed_effect (fun r t h => ?_) ?_
  · simp only [bind_ok, money_ok, ensure_ok, firstTransaction_ok] at h
    obtain ⟨_, _, ⟨-, rfl⟩, v, _, ⟨ha, rfl⟩, _, _, ⟨hv, rfl⟩, w, s, hw, h⟩ := h
    obtain ⟨_, _, ⟨⟨-, rfl⟩, rfl⟩, h⟩ := h
    obtain ⟨hc, hop⟩ := getWallet_ok hw
    rcases hf : s.working.transactions.find? fun t => t.walletId = some w.id ∧ isRechargeOf o t
      with _ | existing
    · simp only [hf, bind_ok, stored_ok, addTransaction_ok, commitLedger_ok, pure_ok] at h
      obtain ⟨_, _, ⟨⟨-, rfl⟩, rfl⟩, _, _, ⟨-, rfl⟩, _, _, ⟨-, rfl⟩, -, rfl⟩ := h
      refine .intentCreated ha hv hop fun t ht htw => ?_
      rw [hop.transactions] at hf
      simpa [htw] using Table.find?_eq_none.mp hf t ht
    · simp only [hf, pure_ok] at h
      obtain ⟨-, rfl⟩ := h
      rw [hc]
      exact .unchanged _
  · refine atomic_bind (tentative_ensure _ _) fun _ => atomic_bind (tentative_money _) fun v => ?_
    refine atomic_bind (tentative_ensure _ _) fun _ => ?_
    refine atomic_bind (tentative_getWallet _) fun w => ?_
    refine atomic_bind (tentative_firstTransaction _) fun txn => ?_
    split
    · exact (readOnly_pure _).tentative.atomic
    · refine atomic_bind (tentative_stored _) fun b => ?_
      exact atomic_bind (tentative_addTransaction _ _) fun _ => atomic_commitLedger _

theorem applyRechargeCapture_effect (now : ℕ) (o p : String) (a : Amount) (n : Option ℕ) :
    Effect cfg db (.applyRechargeCapture now o p a n)
      (applyRechargeCapture cfg now o p a n (.fresh db)).2.committed := by
  unfold applyRechargeCapture
  refine refreshed_effect (fun r t h => ?_) ?_
  · simp only [bind_ok, money_ok, ensure_ok, look_ok, demand_ok, firstTransaction_ok] at h
    obtain ⟨v, _, ⟨ha, rfl⟩, _, _, ⟨hv, rfl⟩, _, _, ⟨⟨hl, rfl⟩, rfl⟩, intent, _, ⟨ht, rfl⟩, h⟩ := h
    obtain ⟨_, _, ⟨rfl, rfl⟩, w, _, ⟨hw, rfl⟩, _, _, ⟨hu, rfl⟩, h⟩ := h
    obtain ⟨k, hk, hget⟩ := Option.bind_eq_some_iff.mp hw
    obtain ⟨hmem, rfl⟩ := Table.get?_eq_some.mp hget
    split_ifs at h with hs
    · obtain ⟨-, rfl⟩ := pure_ok.mp h
      exact .unchanged _
    · simp only [bind_ok, stored_ok, saveWallet_ok, saveTransaction_ok, commitLedger_ok,
        pure_ok] at h
      obtain ⟨_, _, ⟨⟨-, rfl⟩, rfl⟩, _, _, rfl, _, _, ⟨⟨hf, rfl⟩, rfl⟩, _, _, rfl, h⟩ := h
      obtain ⟨_, s, hn, _, _, ⟨-, rfl⟩, -, rfl⟩ := h
      exact .captured ha hv ht hk hmem hu hl hf (announced_of_stage hn)
  · refine atomic_bind (tentative_money _) fun v => atomic_bind (tentative_ensure _ _) fun _ => ?_
    refine atomic_bind (tentative_firstTransaction _) fun _ => ?_
    refine atomic_bind (tentative_demand _ _) fun t => atomic_bind tentative_look fun db => ?_
    refine atomic_bind (tentative_demand _ _) fun w => ?_
    refine atomic_bind (tentative_ensure _ _) fun _ => ?_
    split_ifs
    · exact (readOnly_pure _).tentative.atomic
    · refine atomic_bind (tentative_stored _) fun b => atomic_bind (tentative_update _) fun _ => ?_
      refine atomic_bind (tentative_stored _) fun b' => atomic_bind (tentative_update _) fun _ => ?_
      exact atomic_bind (tentative_stage _ _ _ _ _) fun _ => atomic_commitLedger _

theorem markRechargeIntentFailed_effect (o : String) (p : Option String) :
    Effect cfg db (.markRechargeIntentFailed o p)
      (markRechargeIntentFailed o p (.fresh db)).2.committed := by
  unfold markRechargeIntentFailed
  refine refreshed_effect (fun r t h => ?_) ?_
  · simp only [bind_ok, firstTransaction_ok, Session.working_fresh] at h
    obtain ⟨_, _, ⟨⟨hl, rfl⟩, rfl⟩, h⟩ := h
    rcases ht : db.transactions.find? (isRechargeOf o) with _ | intent
    · simp only [ht, pure_ok] at h
      obtain ⟨-, rfl⟩ := h
      exact .unchanged _
    · simp only [ht] at h
      split_ifs at h with hs
      · obtain ⟨-, rfl⟩ := pure_ok.mp h
        exact .unchanged _
      · simp only [bind_ok, saveTransaction_ok, commitLedger_ok, pure_ok] at h
        obtain ⟨_, _, rfl, _, _, ⟨-, rfl⟩, -, rfl⟩ := h
        exact .intentFailed ht hl
  · refine atomic_bind (tentative_firstTransaction _) fun txn => ?_
    split
    · exact (readOnly_pure _).tentative.atomic
    · split_ifs
      · exact (readOnly_pure _).tentative.atomic
      · exact atomic_bind (tentative_update _) fun _ => atomic_commitLedger _

theorem moveBalance_effect {u : ℕ} {phone : String} {a : Amount} {note : Option String}
    {r : Transaction} {t : Session Db} (h : moveBalance u phone a note (.fresh db) = (.ok r, t)) :
    Effect cfg db (.transferBalance u phone a note) t.committed := by
  simp only [moveBalance, bind_ok, money_ok, look_ok, demand_ok, ensure_ok, stored_ok,
    saveWallet_ok, addTransaction_ok, commitLedger_ok, pure_ok] at h
  obtain ⟨v, _, ⟨ha, rfl⟩, _, _, ⟨hv, rfl⟩, _, _, ⟨rfl, rfl⟩, recipient, _, ⟨hr, rfl⟩, h⟩ := h
  obtain ⟨_, _, ⟨hne, rfl⟩, wa, s₁, hwa, wb, s₂, hwb, h⟩ := h
  obtain ⟨_, _, ⟨⟨-, rfl⟩, rfl⟩, _, _, ⟨hle, rfl⟩, _, _, rfl, _, _, ⟨⟨-, rfl⟩, rfl⟩, h⟩ := h
  obtain ⟨_, _, ⟨-, rfl⟩, _, _, ⟨⟨-, rfl⟩, rfl⟩, _, _, rfl, _, _, ⟨⟨-, rfl⟩, rfl⟩, h⟩ := h
  obtain ⟨_, _, ⟨-, rfl⟩, _, _, ⟨-, rfl⟩, -, rfl⟩ := h
  have hoa := (getWallet_ok hwa).2
  have hob := (getWallet_ok hwb).2
  have hmema := hob.kept wa hoa.mem
  have ho := hoa.toExtended.trans hob.toExtended
  have hids : wa.userId ≠ wb.userId → wa.id ≠ wb.id := fun h hid =>
    h (congrArg Wallet.userId (Table.eq_of_key hmema hob.mem hid))
  rcases Nat.lt_or_gt_of_ne hne with hlt | hlt
  · have hua : wa.userId = recipient.id := hoa.owner.trans (min_eq_right hlt.le)
    have hub : wb.userId = u := hob.owner.trans (max_eq_left hlt.le)
    have hsw : (if wa.userId = u then wa else wb) = wb := if_neg (hua ▸ hne)
    have hrw : (if wb.userId = recipient.id then wb else wa) = wa := if_neg (hub ▸ hne.symm)
    rw [hsw] at hle
    rw [hsw, hrw]
    exact .transferred ha hv hr ho hob.mem hmema hub hua
      (hids (by rw [hua, hub]; exact hne)).symm hle
  · have hua : wa.userId = u := hoa.owner.trans (min_eq_left hlt.le)
    have hub : wb.userId = recipient.id := hob.owner.trans (max_eq_right hlt.le)
    have hsw : (if wa.userId = u then wa else wb) = wa := if_pos hua
    have hrw : (if wb.userId = recipient.id then wb else wa) = wb := if_pos hub
    rw [hsw] at hle
    rw [hsw, hrw]
    exact .transferred ha hv hr ho hmema hob.mem hua hub
      (hids (by rw [hua, hub]; exact hne.symm)) hle

theorem atomic_moveBalance {u phone a note} : Atomic (moveBalance u phone a note) := by
  refine atomic_bind (tentative_money _) fun v => atomic_bind (tentative_ensure _ _) fun _ => ?_
  refine atomic_bind tentative_look fun db => atomic_bind (tentative_demand _ _) fun r => ?_
  refine atomic_bind (tentative_ensure _ _) fun _ => ?_
  refine atomic_bind (tentative_getWallet _) fun wa => ?_
  refine atomic_bind (tentative_getWallet _) fun wb => ?_
  refine atomic_bind (tentative_stored _) fun b => ?_
  refine atomic_bind (tentative_ensure _ _) fun _ => atomic_bind (tentative_update _) fun _ => ?_
  refine atomic_bind (tentative_stored _) fun b' => ?_
  refine atomic_bind (tentative_addTransaction _ _) fun t => ?_
  refine atomic_bind (tentative_stored _) fun b => atomic_bind (tentative_update _) fun _ => ?_
  refine atomic_bind (tentative_stored _) fun b' => ?_
  exact atomic_bind (tentative_addTransaction _ _) fun _ => atomic_commitLedger _

theorem transferBalance_effect (u : ℕ) (phone : String) (a : Amount) (note : Option String) :
    Effect cfg db (.transferBalance u phone a note)
      (transferBalance u phone a note (.fresh db)).2.committed :=
  refreshed_effect (fun _ _ h => moveBalance_effect h) atomic_moveBalance

end Refreshed

theorem call_discard {α : Type} (x : WalletTx α) (db : Db) :
    ((x >>= fun _ => pure () : WalletTx Unit).call db).2 = (x (.fresh db)).2.committed := by
  rcases hx : x (.fresh db) with ⟨e | a, t⟩
  · rw [call_eq (bind_of_error hx)]
  · have hrun : (x >>= fun _ => pure () : WalletTx Unit) (.fresh db) = (.ok (), t) :=
      bind_of_ok hx
    rw [call_eq hrun]

theorem discard_error {α : Type} {x : WalletTx α} (hx : Atomic x) {db : Db} {e : Exc}
    (h : ((x >>= fun _ => pure () : WalletTx Unit).call db).1 = .error e) :
    ((x >>= fun _ => pure () : WalletTx Unit).call db).2 = db := by
  rw [call_discard]
  rcases hrun : x (.fresh db) with ⟨e | a, t⟩
  · exact hx _ _ _ hrun
  · have hok : (x >>= fun _ => pure () : WalletTx Unit) (.fresh db) = (.ok (), t) :=
      bind_of_ok hrun
    rw [call_eq hok] at h
    cases h

theorem effect_discard {α : Type} {x : WalletTx α} {cfg : Settings} {db : Db} {op : Op}
    (h : Effect cfg db op (x (.fresh db)).2.committed) :
    Effect cfg db op ((x >>= fun _ => pure () : WalletTx Unit).call db).2 := by
  rw [call_discard]
  exact h

theorem exec_discard {α : Type} {x : WalletTx α} {db : Db} {P : Db → Prop}
    (hok : ∀ a t, x (.fresh db) = (.ok a, t) → P t.committed)
    (herr : ∀ e t, x (.fresh db) = (.error e, t) → P t.committed) :
    P ((x >>= fun _ => pure ()).call db).2 := by
  rw [call_discard]
  rcases hx : x (.fresh db) with ⟨e | a, t⟩
  · exact herr e t hx
  · exact hok a t hx

theorem step_effect (cfg : Settings) (db : Db) (op : Op) : Effect cfg db op (step cfg db op) := by
  have hatomic {α : Type} {x : WalletTx α} (op : Op) (hx : Atomic x) (e : Exc) (t : Session Db)
      (h : x (.fresh db) = (.error e, t)) : Effect cfg db op t.committed := by
    rw [hx _ _ _ h]
    exact .unchanged op
  cases op with
  | addBalance =>
    exact exec_discard (fun _ _ h => addBalance_effect h) (hatomic _ atomic_addBalance)
  | deductBalance =>
    exact exec_discard (fun _ _ h => deductBalance_effect h) (hatomic _ atomic_deductBalance)
  | createRechargeIntent u a o d =>
    exact effect_discard (createRechargeIntent_effect u a o d)
  | applyRechargeCapture now o p a n =>
    exact effect_discard (applyRechargeCapture_effect now o p a n)
  | markRechargeIntentFailed o p =>
    exact effect_discard (markRechargeIntentFailed_effect o p)
  | requestWithdrawal =>
    exact exec_discard (fun _ _ h => requestWithdrawal_effect h)
      (hatomic _ atomic_requestWithdrawal)
  | approveWithdrawalRequest =>
    exact exec_discard (fun _ _ h => approveWithdrawalRequest_effect h)
      (hatomic _ atomic_approveWithdrawalRequest)
  | rejectWithdrawalRequest =>
    exact exec_discard (fun _ _ h => rejectWithdrawalRequest_effect h)
      (hatomic _ atomic_rejectWithdrawalRequest)
  | transferBalance u phone a note =>
    exact effect_discard (transferBalance_effect u phone a note)
  | initiateRefund =>
    exact exec_discard (fun _ _ h => initiateRefund_effect h) (hatomic _ atomic_initiateRefund)
  | processRefund k =>
    refine exec_discard (fun _ _ h => processRefund_effect h) fun e t h => ?_
    rcases processRefund_raised h with ht | ⟨r, hr, hs, ht⟩
    · rw [ht]
      exact .unchanged _
    · rw [ht]
      exact .refundAbandoned hr hs

/-! ## Rows that cannot be loaded -/

/-- No row of the ledger can be loaded. -/
def Unloadable (db : Db) : Prop := ∀ t ∈ db.transactions, ¬ t.status.Readable

theorem unloadable_ofWallets (users : Table User) (wallets : Table Wallet) (engine : Engine) :
    Unloadable (.ofWallets users wallets engine) := fun t ht => absurd ht (Table.not_mem_empty t)

variable {cfg : Settings} {db db' : Db} {op : Op} {p : Transaction → Bool} {t : Transaction}

theorem Unloadable.extended (h : Unloadable db) (ho : Extended db db') : Unloadable db' := by
  unfold Unloadable
  rw [ho.transactions]
  exact h

theorem Unloadable.added (h : Unloadable db) {mk : ℕ → Transaction} (hmk : ∀ k, (mk k).id = k)
    (hs : ∀ k, ¬ (mk k).status.Readable) {t : Transaction}
    (ht : t ∈ db.transactions.add mk hmk) : ¬ t.status.Readable := by
  rcases (Table.mem_add_mk hmk).mp ht with ht | rfl
  · exact h t ht
  · exact hs _

theorem Unloadable.posted (h : Unloadable db) {w : Wallet} {a : ℤ} {ty c st d rt ri g}
    (hs : ¬ st.Readable) : Unloadable (posted db w a ty c st d rt ri g) :=
  fun _ => h.added (fun _ => rfl) fun _ => hs

theorem Unloadable.set (h : Unloadable db) {x t : Transaction} (hx : ¬ x.status.Readable)
    (ht : t ∈ db.transactions.set x) : ¬ t.status.Readable := by
  rcases Table.mem_set.mp ht with ⟨ht, -⟩ | ⟨rfl, -⟩
  · exact h t ht
  · exact hx

/-- A call that loads a row it has found does not return. -/
theorem Unloadable.not_loadable (h : Unloadable db) (ht : t ∈ db.transactions) (hp : p t = true) :
    ¬ Loadable db.transactions p := fun hl => h t ht (hl t ht hp)

/-- **What the service writes cannot be loaded.** -/
theorem Unloadable.effect (h : Unloadable db) (he : Effect cfg db op db') : Unloadable db' := by
  cases he with
  | unchanged => exact h
  | added ha hv ho => exact (h.extended ho.toExtended).posted (by simp)
  | deducted ha hv ho hle => exact (h.extended ho.toExtended).posted (by simp)
  | intentCreated ha hv ho hnew =>
    exact fun _ => (h.extended ho.toExtended).added (fun _ => rfl) fun _ => by
      simp [entry, inColumns]
  | captured ha hv ht htw hw hu hl hf hn =>
    unfold Unloadable
    rw [hn.transactions]
    exact fun _ => h.set (by simp [captured, inColumns])
  | intentFailed ht hl => exact fun _ => h.set (by simp [failedIntent])
  | requested ha hv ho hle => exact (h.extended ho.toExtended).posted (by simp)
  | approved hr hs hl =>
    intro t ht
    rcases mem_marked ht with ht | ⟨x, -, rfl⟩
    · exact h t ht
    · exact not_readable_success
  | rejected hr hs hw hrw hl hfr hfw hfs =>
    intro t ht
    rcases mem_marked ht with ht | ⟨x, -, rfl⟩
    · exact h.added (fun _ => rfl) (fun _ => by simp [entry, inColumns]) ht
    · exact not_readable_failed
  | transferred ha hv hr ho hsw hrw hsown hown hne hle =>
    exact ((h.extended ho).posted (by simp)).posted (by simp)
  | refundInitiated => exact h
  | refundAbandoned => exact h
  | refunded hr hs ht hread htw hw =>
    exact h.posted (by simp)

end WezuBackend.Wallet.Effects
