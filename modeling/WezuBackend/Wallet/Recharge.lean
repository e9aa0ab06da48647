import WezuBackend.Wallet.Effects
import WezuBackend.Lib.Runs

/-!
# A recharge is credited once

The calls for one gateway order by one user: its intent is created, captured and marked failed in
any order and any number of times.  `OneIntent` is the invariant: the order has at most one row, on
the user's wallet.  A settled intent is a latch (`settled_idle`): the call that settles it credits
the wallet and stages the announcements (`credit_of_settled`), and nothing happens after it.

An intent that the service has created itself cannot be loaded, so it is never captured
(`Uncaptured`).
-/

namespace WezuBackend.Wallet.Recharge

open Lib.Tables Lib.Runs Core.Amounts Core.Floats Financial.Model Wallet.Service Wallet.Operations
open Wallet.Effects

/-- The calls that concern one recharge. -/
inductive RechargeOp where
  | create (amount : Amount) (description : String)
  | capture (now : ℕ) (paymentId : String) (amount : Amount) (notedUserId : Option ℕ)
  | fail (paymentId : Option String)

def RechargeOp.op (userId : ℕ) (orderId : String) : RechargeOp → Op
  | .create a d => .createRechargeIntent userId a orderId d
  | .capture now p a n => .applyRechargeCapture now orderId p a n
  | .fail p => .markRechargeIntentFailed orderId p

/-- The stored state after a call for the user and the order. -/
def rechargeStep (cfg : Settings) (userId : ℕ) (orderId : String) (db : Db) (o : RechargeOp) : Db :=
  step cfg db (o.op userId orderId)

/-- The order has at most one row, on the user's wallet. -/
structure OneIntent (userId : ℕ) (orderId : String) (db : Db) : Prop where
  unique : ∀ t ∈ db.transactions, ∀ t' ∈ db.transactions,
    isRechargeOf orderId t → isRechargeOf orderId t' → t = t'
  owned : ∀ t ∈ db.transactions, isRechargeOf orderId t →
    ∃ w, db.wallets.find? (fun w => w.userId = userId) = some w ∧ t.walletId = some w.id
  keyed : OutboxKeyed db

def Settled (orderId : String) (db : Db) : Prop :=
  ∃ t ∈ db.transactions, isRechargeOf orderId t ∧ t.status = .success

variable {o : String} {u : ℕ}

variable {t : Transaction}

theorem OneIntent.found {db : Db} (h : OneIntent u o db)
    (ht : t ∈ db.transactions) (hr : isRechargeOf o t) :
    db.transactions.find? (isRechargeOf o) = some t := by
  rcases hf : db.transactions.find? (isRechargeOf o) with _ | x
  · rw [Table.find?_eq_none.mp hf t ht] at hr
    cases hr
  · rw [h.unique x (Table.find?_mem hf) t ht (Table.find?_prop hf) hr]

variable {db db' : Db}

/-- The row of the order rewritten, with the wallet's owner kept. -/
theorem OneIntent.rewritten (h : OneIntent u o db)
    (ht : t ∈ db.transactions) (hr : isRechargeOf o t) (t' : Transaction)
    (hid : t'.id = t.id) (hw : t'.walletId = t.walletId)
    (htxns : db'.transactions = db.transactions.set t')
    (hwallets : ∀ w, db.wallets.find? (fun w => w.userId = u) = some w →
      ∃ w', db'.wallets.find? (fun w => w.userId = u) = some w' ∧ w'.id = w.id)
    (hk : OutboxKeyed db') : OneIntent u o db' := by
  have honly : ∀ x ∈ db'.transactions, isRechargeOf o x → x = t' := by
    intro x hx hxr
    rw [htxns] at hx
    rcases Table.mem_set.mp hx with ⟨hx, hne⟩ | ⟨rfl, -⟩
    · rw [h.unique x hx t ht hxr hr] at hne
      exact absurd hid.symm hne
    · rfl
  refine ⟨fun x hx y hy hxr hyr => (honly x hx hxr).trans (honly y hy hyr).symm, ?_, hk⟩
  intro x hx hxr
  obtain ⟨w, hf, htw⟩ := h.owned t ht hr
  obtain ⟨w', hf', hid'⟩ := hwallets w hf
  exact ⟨w', hf', by rw [honly x hx hxr, hw, htw, hid']⟩

theorem owner_moved {wallets : Table Wallet} {w : Wallet} (hw : w ∈ wallets) (a : ℤ) (u : ℕ)
    {x : Wallet} (hx : wallets.find? (fun w => w.userId = u) = some x) :
    ∃ x', (wallets.set (moved w a)).find? (fun w => w.userId = u) = some x' ∧ x'.id = x.id := by
  have hset := Table.find?_set (t := wallets) (r := moved w a) (p := fun w => w.userId = u)
    fun y hy hk => by rw [Table.eq_of_key hy hw hk]; rfl
  rw [hx] at hset
  refine ⟨_, hset, ?_⟩
  simp only [key_wallet]
  split_ifs with hk
  · exact hk.symm
  · rfl

variable {cfg : Settings} {r : RechargeOp}

theorem OneIntent.effect
    (h : OneIntent u o db) (he : Effect cfg db (r.op u o) db') : OneIntent u o db' := by
  cases r with
  | create a d =>
    cases he with
    | unchanged => exact h
    | @intentCreated _ _ _ _ v w db₁ ha hv ho hnew =>
      -- a row of the order would be on the wallet the code looked at
      have hnone : ∀ t ∈ db.transactions, isRechargeOf o t = false := by
        intro t ht
        by_contra hr
        obtain ⟨x, hf, htw⟩ := h.owned t ht (by simpa using hr)
        rw [ho.same x hf] at htw
        exact hr (hnew t ht htw)
      have honly : ∀ t ∈ db₁.transactions.add (entry w v .credit "deposit" .pending d
          (some "wallet_recharge") (some o) none), isRechargeOf o t →
          t = entry w v .credit "deposit" .pending d (some "wallet_recharge") (some o) none
            db₁.transactions.freshKey := by
        intro t ht hr
        rcases Table.mem_add.mp ht with ht | rfl
        · rw [ho.transactions] at ht
          rw [hnone t ht] at hr
          cases hr
        · rfl
      refine ⟨fun x hx y hy hxr hyr => (honly x hx hxr).trans (honly y hy hyr).symm, ?_, ?_⟩
      · intro t ht hr
        exact ⟨w, ho.found, by rw [honly t ht hr]; rfl⟩
      · have hk := h.keyed
        rw [ho.rest]
        exact hk
  | capture now p a n =>
    cases he with
    | unchanged => exact h
    | @captured _ _ _ _ _ v t w _ ha hv ht htw hw hu hl hf hn =>
      refine h.rewritten (Table.find?_mem ht) (Table.find?_prop ht) (captured t v _ p) rfl rfl
        hn.transactions ?_ (hn.keyed h.keyed)
      rw [hn.wallets]
      exact fun x hx => owner_moved hw v u hx
  | fail p =>
    cases he with
    | unchanged => exact h
    | @intentFailed _ _ t ht hs =>
      exact h.rewritten (Table.find?_mem ht) (Table.find?_prop ht) (failedIntent p t) rfl rfl rfl
        (fun w hw => ⟨w, hw, rfl⟩) h.keyed

/-- **A settled intent is final**: no call does anything any more. -/
theorem settled_idle
    (h : OneIntent u o db) (hs : Settled o db) (he : Effect cfg db (r.op u o) db') : db' = db := by
  obtain ⟨t, ht, hr, hst⟩ := hs
  have hf := h.found ht hr
  cases r with
  | create a d =>
    cases he with
    | unchanged => rfl
    | intentCreated ha hv ho hnew =>
      obtain ⟨x, hx, htw⟩ := h.owned t ht hr
      rw [ho.same x hx] at htw
      rw [hnew t ht htw] at hr
      cases hr
  | capture now p a n =>
    cases he with
    | unchanged => rfl
    | captured ha hv ht' htw hw hu hl hf' hn =>
      cases hf.symm.trans ht'
      exact absurd hst (hl.found_ne ht')
  | fail p =>
    cases he with
    | unchanged => rfl
    | intentFailed ht' hl =>
      cases hf.symm.trans ht'
      exact absurd hst (hl.found_ne ht')

/-- Nothing of the recharge is paid: no intent is settled, no balance moved and nothing staged since
`db₀`. -/
structure Unpaid (orderId : String) (db₀ db : Db) : Prop where
  unsettled : ¬ Settled orderId db
  balance : ∀ k, db.balance k = db₀.balance k
  outbox : db.notificationOutbox = db₀.notificationOutbox

/-- The capture of the intent: it is settled with the amount that its wallet is credited, no other
balance moves, and one outbox row is staged for each channel.  The columns keep what they can. -/
structure Credited (orderId paymentId : String) (amount : ℤ) (db db' : Db) : Prop where
  positive : 0 < amount
  intent : ∃ t w, db.transactions.find? (isRechargeOf orderId) = some t ∧ t.status ≠ .success ∧
    w ∈ db.wallets ∧ t.walletId = some w.id ∧
    db'.transactions.find? (isRechargeOf orderId) =
      some (captured t amount (w.balance + amount) paymentId) ∧
    (∀ k, db'.balance k = if k = w.id then column (db.balance k + amount) else db.balance k) ∧
    ∃ rows, db'.notificationOutbox.rows = db.notificationOutbox.rows ++ rows ∧
      rows.map (fun r => (r.userId, r.channel, r.idempotencyKey)) = rechargeChannels.map fun c =>
        (w.userId, c, some s!"wallet_recharge_captured:{paymentId}:{c}")

theorem credit_of_settled
    (h : OneIntent u o db) (hs : ¬ Settled o db) (he : Effect cfg db (r.op u o) db')
    (hs' : Settled o db') :
    ∃ now p a n v, r = .capture now p a n ∧ toMoney a = .ok v ∧ Credited o p v db db' := by
  have h' := h.effect he
  obtain ⟨x, hx, hxr, hxs⟩ := hs'
  cases r with
  | create a d =>
    cases he with
    | unchanged => exact absurd ⟨x, hx, hxr, hxs⟩ hs
    | @intentCreated _ _ _ _ v w db₁ ha hv ho hnew =>
      rcases (Table.mem_add_mk fun _ => rfl).mp hx with hx | rfl
      · rw [ho.transactions] at hx
        exact absurd ⟨x, hx, hxr, hxs⟩ hs
      · cases hxs
  | capture now p a n =>
    cases he with
    | unchanged => exact absurd ⟨x, hx, hxr, hxs⟩ hs
    | @captured _ _ _ _ _ v t w _ ha hv ht htw hw hu hl hf hn =>
      have hr : isRechargeOf o t := Table.find?_prop ht
      refine ⟨now, p, a, n, v, rfl, ha, hv, t, w, ht, hl.found_ne ht, hw, htw, ?_, ?_,
        hn.outbox h.keyed⟩
      · refine h'.found ?_ hr
        rw [hn.transactions]
        exact Table.mem_set.mpr (.inr ⟨rfl, t, Table.find?_mem ht, rfl⟩)
      · intro k
        rw [Db.balance, hn.wallets, Db.balance]
        refine (balanceOf_moved hw v k).trans ?_
        split_ifs with hk
        · rw [hk, balanceOf_mem hw]
        · rfl
  | fail p =>
    cases he with
    | unchanged => exact absurd ⟨x, hx, hxr, hxs⟩ hs
    | @intentFailed _ _ t ht hst =>
      rcases Table.mem_set.mp hx with ⟨hx, -⟩ | ⟨rfl, -⟩
      · exact absurd ⟨x, hx, hxr, hxs⟩ hs
      · cases hxs

theorem Unpaid.effect {db₀ db db' : Db}
    (h : Unpaid o db₀ db) (he : Effect cfg db (r.op u o) db') (hs : ¬ Settled o db') :
    Unpaid o db₀ db' := by
  cases r with
  | create a d =>
    cases he with
    | unchanged => exact h
    | intentCreated ha hv ho hnew =>
      refine ⟨hs, fun k => (ho.balance k).trans (h.balance k), ?_⟩
      rw [ho.rest]
      exact h.outbox
  | capture now p a n =>
    cases he with
    | unchanged => exact h
    | @captured _ _ _ _ _ v t w _ ha hv ht htw hw hu hl hf hn =>
      have hr : isRechargeOf o t := Table.find?_prop ht
      refine absurd ⟨captured t v (w.balance + v) p, ?_, hr, rfl⟩ hs
      rw [hn.transactions]
      exact Table.mem_set.mpr (.inr ⟨rfl, t, Table.find?_mem ht, rfl⟩)
  | fail p =>
    cases he with
    | unchanged => exact h
    | intentFailed ht hst => exact ⟨hs, h.balance, h.outbox⟩

/-- The run pays nothing; or exactly one of its calls pays: up to it nothing is paid, it credits the
wallet of the intent and stages its announcements, and after it nothing changes. -/
def PaidAtMostOnce (step : Db → RechargeOp → Db) (orderId : String) (db : Db)
    (ops : List RechargeOp) : Prop :=
  (∀ pre post, ops = pre ++ post → Unpaid orderId db (run step db pre)) ∨
  ∃ pre now paymentId a noted post amount,
    ops = pre ++ .capture now paymentId a noted :: post ∧
    (∀ p q, pre = p ++ q → Unpaid orderId db (run step db p)) ∧
    toMoney a = .ok amount ∧
    Credited orderId paymentId amount (run step db pre)
      (run step db (pre ++ [.capture now paymentId a noted])) ∧
    ∀ p q, post = p ++ q → run step db (pre ++ .capture now paymentId a noted :: p) =
      run step db (pre ++ [.capture now paymentId a noted])

/-- No call has captured anything, and no row of the order can be loaded. -/
structure Uncaptured (orderId : String) (db₀ db : Db) : Prop where
  pending : ∀ t ∈ db.transactions, isRechargeOf orderId t → t.status = .pending
  balance : ∀ k, db.balance k = db₀.balance k
  outbox : db.notificationOutbox = db₀.notificationOutbox

theorem Uncaptured.unloadable {db₀ db : Db} (h : Uncaptured o db₀ db)
    (hl : Loadable db.transactions (isRechargeOf o))
    (ht : db.transactions.find? (isRechargeOf o) = some t) : False := by
  have hread := hl t (Table.find?_mem ht) (Table.find?_prop ht)
  rw [h.pending t (Table.find?_mem ht) (Table.find?_prop ht)] at hread
  exact hread

theorem Uncaptured.effect {db₀ db db' : Db} (h : Uncaptured o db₀ db)
    (he : Effect cfg db (r.op u o) db') : Uncaptured o db₀ db' := by
  cases r with
  | create a d =>
    cases he with
    | unchanged => exact h
    | intentCreated ha hv ho hnew =>
      refine ⟨fun t ht hr => ?_, fun k => (ho.balance k).trans (h.balance k), ?_⟩
      · rcases (Table.mem_add_mk fun _ => rfl).mp ht with ht | rfl
        · rw [ho.transactions] at ht
          exact h.pending t ht hr
        · rfl
      · rw [ho.rest]
        exact h.outbox
  | capture now p a n =>
    cases he with
    | unchanged => exact h
    | captured ha hv ht htw hw hu hl hf hn => exact (h.unloadable hl ht).elim
  | fail p =>
    cases he with
    | unchanged => exact h
    | intentFailed ht hl => exact (h.unloadable hl ht).elim

theorem Uncaptured.unpaid {db₀ db : Db} (h : Uncaptured o db₀ db) : Unpaid o db₀ db := by
  refine ⟨?_, h.balance, h.outbox⟩
  rintro ⟨t, ht, hr, hs⟩
  cases hs.symm.trans (h.pending t ht hr)

theorem paid_at_most_once {db : Db} (h₀ : OneIntent u o db) (hopen : ¬ Settled o db)
    (ops : List RechargeOp) : PaidAtMostOnce (rechargeStep cfg u o) o db ops := by
  have hI : ∀ s r, OneIntent u o s → OneIntent u o (rechargeStep cfg u o s r) :=
    fun s r hs => hs.effect (step_effect cfg s _)
  have hunpaid : ∀ pre, (∀ p q, pre = p ++ q →
      ¬ Settled o (run (rechargeStep cfg u o) db p)) →
      Unpaid o db (run (rechargeStep cfg u o) db pre) := fun pre hpre =>
    before_latch (D := Settled o) hI (fun s r _ hu hs => hu.effect (step_effect cfg s _) hs)
      h₀ ⟨hopen, fun _ => rfl, rfl⟩ hpre
  rcases latch_split hI (fun s r hs hd => settled_idle hs hd (step_effect cfg s _)) h₀ hopen ops
    with hno | ⟨pre, r, post, rfl, hpre, hset, hpost⟩
  · refine .inl fun pre post hp => hunpaid pre ?_
    rintro p q rfl
    exact hno p (q ++ post) (by rw [hp, List.append_assoc])
  · have hpre' : ∀ p q, pre = p ++ q → Unpaid o db (run (rechargeStep cfg u o) db p) := by
      rintro p q rfl
      refine hunpaid p ?_
      rintro p' q' rfl
      exact hpre p' (q' ++ q) (List.append_assoc _ _ _)
    have hbefore := run_invariant hI h₀ pre
    obtain ⟨now, p, a, n, v, rfl, ha, hcredit⟩ := credit_of_settled hbefore
      (hpre' pre [] (List.append_nil _).symm).unsettled (step_effect cfg _ _) hset
    refine .inr ⟨pre, now, p, a, n, post, v, rfl, hpre', ha, ?_, ?_⟩
    · rw [run_concat]
      exact hcredit
    · intro p' q hp
      rw [run_concat]
      exact hpost p' q hp

/-- **Exactly once.**  A run of creations, captures and failures for an order pays at most once, and
not at all if the order has no intent before it. -/
theorem recharge_exactly_once (cfg : Settings) (userId : ℕ) (orderId : String) (db : Db)
    (h : OneIntent userId orderId db) (hopen : ¬ Settled orderId db) (ops : List RechargeOp) :
    PaidAtMostOnce (rechargeStep cfg userId orderId) orderId db ops ∧
    ((∀ t ∈ db.transactions, isRechargeOf orderId t = false) → ∀ pre post, ops = pre ++ post →
      Unpaid orderId db (run (rechargeStep cfg userId orderId) db pre)) := by
  refine ⟨paid_at_most_once h hopen ops, fun hnone pre post _ => ?_⟩
  have hstart : Uncaptured orderId db db :=
    ⟨fun t ht hr => by simp [hnone t ht] at hr, fun _ => rfl, rfl⟩
  have hrun : Uncaptured orderId db (run (rechargeStep cfg userId orderId) db pre) :=
    run_invariant (fun s r hs => hs.effect (step_effect cfg s _)) hstart pre
  exact hrun.unpaid

/-- An intent of 100.00 that another program has written, with a name of the `Enum`. -/
def foreignIntent : Transaction :=
  { id := 1, userId := 1, walletId := some 1, amount := 10000, balanceAfter := some 0,
    type := some .credit, category := some "deposit", status := .other "PENDING",
    description := none, referenceType := some "wallet_recharge", referenceId := some "order_1" }

def foreignStore : Db :=
  { Db.ofWallets sampleUsers sampleWallets with transactions := ⟨[foreignIntent], by decide⟩ }

/-- A failure after the capture, and a second capture. -/
def capturedTwice : List RechargeOp :=
  [.create (.finite 100 0) "recharge", .capture 7 "pay_1" (.finite 99 0) none, .fail none,
    .capture 9 "pay_1" (.finite 99 0) none]

theorem recharge_exactly_once_sample :
    (PaidAtMostOnce (rechargeStep {} 1 "order_1") "order_1" foreignStore capturedTwice ∧
      ((∀ t ∈ foreignStore.transactions, isRechargeOf "order_1" t = false) →
        ∀ pre post, capturedTwice = pre ++ post →
          Unpaid "order_1" foreignStore (run (rechargeStep {} 1 "order_1") foreignStore pre))) ∧
      (run (rechargeStep {} 1 "order_1") foreignStore capturedTwice).balance 1 = 9900 := by
  refine ⟨recharge_exactly_once {} 1 "order_1" foreignStore ⟨by decide, ?_, ?_⟩ ?_ capturedTwice,
    by decide⟩
  · exact fun t ht _ => ⟨⟨1, 1, 0⟩, rfl, by rw [List.mem_singleton.mp ht]; rfl⟩
  · exact fun o ho => absurd ho (Table.not_mem_empty o)
  · rintro ⟨t, ht, -, hs⟩
    rw [List.mem_singleton.mp ht] at hs
    cases hs

end WezuBackend.Wallet.Recharge
