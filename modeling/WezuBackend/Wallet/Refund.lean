import WezuBackend.Wallet.Effects
import WezuBackend.Wallet.Webhook
import WezuBackend.Lib.Runs

/-!
# Refunds conserve money, as long as the webhooks leave paid refunds alone

Refunds are initiated and processed by `WalletService`, and their status is overwritten by the
refund events of the payment gateway.  `RefundBooks` is the invariant: the ledger has at most one
row for a refund, such a refund is processed, and of the refunds of one transaction at most one is
live, that is, pending or paid.  A refund event that moves a paid refund out of `processed`, or one
that reopens a refund beside a live one, breaks it (`refund_paid_twice`); runs without such events
keep it.
-/

namespace WezuBackend.Wallet.Refund

open Lib.Tables Lib.Runs Lib.Atomicity Lib.Atomicity.Tx Core.Base Core.Amounts Core.Floats Core.Text
open Financial.Model Wallet.Service Wallet.Webhook Wallet.Operations Wallet.Effects

/-- The calls that concern refunds. -/
inductive RefundOp where
  | initiate (now transactionId : ℕ) (amount : Option Amount) (reason : String)
  | process (refundId : ℕ)
  | webhook (event : RefundEvent) (entity : Option RefundEntity)

def eventText : RefundEvent → String
  | .created => "refund.created"
  | .processed => "refund.processed"
  | .failed => "refund.failed"

/-- The stored state after a call that concerns refunds. -/
def refundStep (cfg : Settings) (db : Db) : RefundOp → Db
  | .initiate now k a why => step cfg db (.initiateRefund now k a why)
  | .process k => step cfg db (.processRefund k)
  | .webhook event entity =>
    ((processEvent cfg 0 { event := some (eventText event), refund := entity }).call db).2

/-! ## What a refund event does -/

theorem refundStep_webhook (cfg : Settings) (db : Db) (event : RefundEvent)
    (entity : Option RefundEntity) :
    refundStep cfg db (.webhook event entity) = ((handleRefundEvent event entity).call db).2 := by
  have htext : lower (strip (eventText event)) = eventText event := by cases event <;> decide
  have hne : lower (strip (eventText event)) ≠ "" := by cases event <;> decide
  have hrun : processEvent cfg 0 { event := some (eventText event), refund := entity } =
      handleRefundEvent event entity := by
    funext s
    simp only [processEvent, Option.getD_some, htext]
    rw [ensure_bind hne]
    cases event <;> simp [eventText]
  rw [refundStep, hrun]

def overwritten (event : RefundEvent) (entity : RefundEntity) (r : Financial.Model.Refund) :
    Financial.Model.Refund :=
  { r with status := event.status, gatewayRefundId := (truthy entity.id).or r.gatewayRefundId }

/-- A fold that keeps the best so far or takes the next element ends with one of them. -/
theorem mem_of_foldl_choice {α : Type} {f : Option α → α → Option α}
    (hf : ∀ best x, f best x = best ∨ f best x = some x) {l : List α} {best : Option α} {y : α}
    (h : l.foldl f best = some y) : best = some y ∨ y ∈ l := by
  induction l generalizing best with
  | nil => exact .inl h
  | cons x l ih =>
    rcases ih h with h | h
    · rcases hf best x with hkeep | htake
      · exact .inl (hkeep ▸ h)
      · rw [htake] at h
        exact .inr (by rw [Option.some.inj h]; exact List.mem_cons_self)
    · exact .inr (List.mem_cons_of_mem _ h)

variable {r : Financial.Model.Refund}

theorem mem_latest {refunds : List Financial.Model.Refund} (h : latest refunds = some r) :
    r ∈ refunds := by
  refine (mem_of_foldl_choice (fun best x => ?_) h).resolve_left (by simp)
  rcases best with _ | b
  · exact .inr rfl
  · dsimp only
    split_ifs
    · exact .inr rfl
    · exact .inl rfl

variable {s t : Session Db} {found : Option Financial.Model.Refund}

theorem readOnly_resolveRefund {g p : Option String} : ReadOnly (resolveRefund g p) := by
  refine readOnly_look.bind fun db => ?_
  split
  · exact readOnly_pure _
  · split
    · exact readOnly_pure _
    · exact (readOnly_firstTransaction _).bind fun _ => readOnly_pure _

theorem resolveRefund_ok {g p : Option String} (h : resolveRefund g p s = (.ok found, t)) :
    s = t ∧ ∀ r ∈ found, r ∈ s.working.refunds := by
  refine ⟨(readOnly_resolveRefund.eq h).symm, ?_⟩
  rintro r rfl
  simp only [resolveRefund, bind_ok, look_ok] at h
  obtain ⟨_, _, ⟨rfl, rfl⟩, h⟩ := h
  rcases hg : (truthy g).bind fun gateway =>
    s.working.refunds.find? fun r => r.gatewayRefundId = some gateway with _ | r'
  · rcases hp : truthy p with _ | payment
    · simp [hg, hp] at h
    · simp only [hg, hp, bind_ok, pure_ok] at h
      obtain ⟨_, _, -, hlatest, -⟩ := h
      obtain ⟨_, -, hlatest⟩ := Option.bind_eq_some_iff.mp hlatest
      exact (Table.mem_filter.mp (mem_latest hlatest)).1
  · simp only [hg, pure_ok] at h
    obtain rfl : r' = r := Option.some.inj h.1
    obtain ⟨_, -, hfind⟩ := Option.bind_eq_some_iff.mp hg
    exact Table.find?_mem hfind

/-- The refund that an event is about. -/
def Resolves (db : Db) (entity : RefundEntity) (r : Financial.Model.Refund) : Prop :=
  (resolveRefund entity.id entity.paymentId (.fresh db)).1 = .ok (some r)

theorem webhook_effect (cfg : Settings) (db : Db) (event : RefundEvent)
    (entity : Option RefundEntity) :
    refundStep cfg db (.webhook event entity) = db ∨
    ∃ e r, entity = some e ∧ Resolves db e r ∧ r ∈ db.refunds ∧
      refundStep cfg db (.webhook event entity) =
        { db with refunds := db.refunds.set (overwritten event e r) } := by
  rw [refundStep_webhook]
  rcases entity with _ | e
  · exact .inl rfl
  rcases hr : resolveRefund e.id e.paymentId (.fresh db) with ⟨x | found, t⟩
  · have hrun : handleRefundEvent event (some e) (.fresh db) = (.error x, t) := by
      rw [handleRefundEvent, demand_bind rfl, bind_of_error hr]
    exact .inl (by rw [call_eq hrun, readOnly_resolveRefund.eq hr]; rfl)
  obtain ⟨rfl, hmem⟩ := resolveRefund_ok hr
  rcases found with _ | r
  · have hrun : handleRefundEvent event (some e) (.fresh db) =
        (.ok (.ignored "refund record not found"), .fresh db) := by
      rw [handleRefundEvent, demand_bind rfl, bind_of_ok hr]
      rfl
    exact .inl (by rw [call_eq hrun]; rfl)
  · have hrun : handleRefundEvent event (some e) (.fresh db) =
        (.ok .ok, .fresh { db with refunds := db.refunds.set (overwritten event e r) }) := by
      rw [handleRefundEvent, demand_bind rfl, bind_of_ok hr]
      rfl
    exact .inr ⟨e, r, rfl, congrArg Prod.fst hr, hmem r rfl, by rw [call_eq hrun]; rfl⟩

/-! ## The books of the refunds -/

def IsRefundRow (refundId : ℕ) (txn : Transaction) : Prop :=
  txn.referenceType = some "refund" ∧ txn.referenceId = some (toString refundId)

instance (refundId : ℕ) (txn : Transaction) : Decidable (IsRefundRow refundId txn) := by
  unfold IsRefundRow
  infer_instance

theorem IsRefundRow.id_eq {j k : ℕ} {txn : Transaction} (h : IsRefundRow j txn)
    (h' : IsRefundRow k txn) : j = k :=
  eq_of_toString_eq (Option.some.inj (h.2.symm.trans h'.2))

def Paid (db : Db) (refundId : ℕ) : Prop := ∃ t ∈ db.transactions, IsRefundRow refundId t

/-- The refund was credited, or will be when it is processed. -/
def Live (db : Db) (r : Financial.Model.Refund) : Prop := r.status = .pending ∨ Paid db r.id

/-- The part of a row that refunds put into a wallet. -/
def refundedTo (walletId : ℕ) (txn : Transaction) : ℤ :=
  if txn.walletId = some walletId ∧ txn.referenceType = some "refund" then txn.amount else 0

/-- The rows that refunds of a transaction wrote. -/
def IsRowOf (db : Db) (transactionId : ℕ) (txn : Transaction) : Prop :=
  ∃ r ∈ db.refunds, r.transactionId = transactionId ∧ IsRefundRow r.id txn

instance (db : Db) (transactionId : ℕ) (txn : Transaction) :
    Decidable (IsRowOf db transactionId txn) :=
  decidable_of_iff (∃ r ∈ db.refunds.rows, r.transactionId = transactionId ∧ IsRefundRow r.id txn)
    Iff.rfl

def refundedOf (db : Db) (transactionId : ℕ) : ℤ :=
  db.transactions.sum fun t => if IsRowOf db transactionId t then t.amount else 0

/-- The books of the refunds since `db₀`. -/
structure RefundBooks (db₀ db : Db) : Prop where
  balance : ∀ k, db.balance k = db₀.balance k + db.transactions.sum (refundedTo k)
  rows : ∀ t ∈ db.transactions, t.referenceType = some "refund" →
    ∃ r ∈ db.refunds, IsRefundRow r.id t ∧ t.amount = r.amount ∧ r.status = .processed
  once : ∀ k, db.transactions.Unique (IsRefundRow k)
  live : ∀ k, db.refunds.Unique fun r => r.transactionId = k ∧ Live db r
  bounded : ∀ r ∈ db.refunds, ∃ t ∈ db.transactions, t.id = r.transactionId ∧
    t.type = some .credit ∧ r.amount ≤ t.amount

/-- A store without refunds. -/
structure NoRefunds (db : Db) : Prop where
  refunds : db.refunds.rows = []
  rows : ∀ t ∈ db.transactions, t.referenceType ≠ some "refund"

theorem refundBooks_of_noRefunds {db : Db} (h : NoRefunds db) : RefundBooks db db where
  balance k := by
    have hzero : db.transactions.sum (refundedTo k) = 0 :=
      Table.sum_eq_zero fun t ht => if_neg fun hk => h.rows t ht hk.2
    rw [hzero, add_zero]
  rows t ht hr := absurd hr (h.rows t ht)
  once k t ht _ _ hr _ := absurd hr.1 (h.rows t ht)
  live k r hr := by
    rw [Table.mem_def, h.refunds] at hr
    cases hr
  bounded r hr := by
    rw [Table.mem_def, h.refunds] at hr
    cases hr

variable {db₀ db : Db}

theorem RefundBooks.processed_of_paid (h : RefundBooks db₀ db)
    (hr : r ∈ db.refunds) (hp : Paid db r.id) : r.status = .processed := by
  obtain ⟨t, ht, hrow⟩ := hp
  obtain ⟨r', hr', hrow', -, hs⟩ := h.rows t ht hrow.1
  rw [Table.eq_of_key hr hr' (hrow.id_eq hrow')]
  exact hs

/-- A refund's status is written.  A paid refund must be left processed, and a refund that becomes
pending must be the only live one of its transaction. -/
theorem RefundBooks.rewritten (h : RefundBooks db₀ db)
    (hr : r ∈ db.refunds) (r' : Financial.Model.Refund) (hid : r'.id = r.id)
    (htxn : r'.transactionId = r.transactionId) (hamount : r'.amount = r.amount)
    (hpaid : Paid db r.id → r'.status = .processed)
    (hlive : r'.status = .pending → ∀ x ∈ db.refunds, x.transactionId = r.transactionId →
      x.id ≠ r.id → ¬ Live db x) :
    RefundBooks db₀ { db with refunds := db.refunds.set r' } where
  balance := h.balance
  rows t ht hrt := by
    obtain ⟨x, hx, hrow, ha, hs⟩ := h.rows t ht hrt
    by_cases hxr : x.id = r.id
    · rw [Table.eq_of_key hx hr hxr] at hrow ha
      exact ⟨r', Table.mem_set.mpr (.inr ⟨rfl, r, hr, hid.symm⟩), by rw [hid]; exact hrow,
        by rw [hamount, ha], hpaid ⟨t, ht, hrow⟩⟩
    · exact ⟨x, Table.mem_set.mpr (.inl ⟨hx, by simpa [hid] using hxr⟩), hrow, ha, hs⟩
  once := h.once
  live k := by
    -- what is live after the write was live, except that `r'` may have become pending
    have hlive' : ∀ x ∈ db.refunds.set r', x.transactionId = k → Live db x →
        x = r' ∨ (x ∈ db.refunds ∧ x.id ≠ r.id) := by
      intro x hx _ _
      rcases Table.mem_set.mp hx with ⟨hx, hne⟩ | ⟨rfl, -⟩
      · exact .inr ⟨hx, by simpa [hid] using hne⟩
      · exact .inl rfl
    have hboth : ∀ x ∈ db.refunds, x.id ≠ r.id → x.transactionId = k → Live db x →
        r'.transactionId = k → ¬ Live db r' := by
      rintro x hx hne hxk hxl hrk (hp | hp)
      · exact hlive hp x hx (by rw [hxk, ← htxn, hrk]) hne hxl
      · rw [hid] at hp
        rw [htxn] at hrk
        have hxr := h.live k x hx r hr ⟨hxk, hxl⟩ ⟨hrk, .inr hp⟩
        rw [hxr] at hne
        exact hne rfl
    rintro x hx y hy ⟨hxk, hxl⟩ ⟨hyk, hyl⟩
    rcases hlive' x hx hxk hxl with rfl | ⟨hx', hxne⟩ <;>
      rcases hlive' y hy hyk hyl with rfl | ⟨hy', hyne⟩
    · rfl
    · exact absurd hxl (hboth y hy' hyne hyk hyl hxk)
    · exact absurd hyl (hboth x hx' hxne hxk hxl hyk)
    · exact h.live k x hx' y hy' ⟨hxk, hxl⟩ ⟨hyk, hyl⟩
  bounded x hx := by
    rcases Table.mem_set.mp hx with ⟨hx, -⟩ | ⟨rfl, -⟩
    · exact h.bounded x hx
    · rw [htxn, hamount]
      exact h.bounded r hr

/-- A refund is initiated on a transaction that has no open one. -/
theorem RefundBooks.initiated (h : RefundBooks db₀ db) {mk : ℕ → Financial.Model.Refund}
    (hmk : ∀ k, (mk k).id = k) {T : Transaction} (hT : T ∈ db.transactions)
    (hc : T.type = some .credit) (hnone : db.refunds.find? (isOpenRefundOf T.id) = none)
    (htxn : ∀ k, (mk k).transactionId = T.id) (hle : ∀ k, (mk k).amount ≤ T.amount) :
    RefundBooks db₀ { db with refunds := db.refunds.add mk hmk } where
  balance := h.balance
  rows t ht hrt := by
    obtain ⟨x, hx, hrow, ha, hs⟩ := h.rows t ht hrt
    exact ⟨x, (Table.mem_add_mk hmk).mpr (.inl hx), hrow, ha, hs⟩
  once := h.once
  live k := by
    have hdead : ∀ x ∈ db.refunds, x.transactionId = T.id → ¬ Live db x := by
      rintro x hx hxT hl
      have hopen := Table.find?_eq_none.mp hnone x hx
      rcases hl with hp | hp
      · simp [isOpenRefundOf, hxT, hp] at hopen
      · simp [isOpenRefundOf, hxT, h.processed_of_paid hx hp] at hopen
    rintro x hx y hy ⟨hxk, hxl⟩ ⟨hyk, hyl⟩
    rcases (Table.mem_add_mk hmk).mp hx with hx | rfl <;>
      rcases (Table.mem_add_mk hmk).mp hy with hy | rfl
    · exact h.live k x hx y hy ⟨hxk, hxl⟩ ⟨hyk, hyl⟩
    · exact absurd hxl (hdead x hx (by rw [hxk, ← hyk, htxn]))
    · exact absurd hyl (hdead y hy (by rw [hyk, ← hxk, htxn]))
    · rfl
  bounded x hx := by
    rcases (Table.mem_add_mk hmk).mp hx with hx | rfl
    · exact h.bounded x hx
    · exact ⟨T, hT, (htxn _).symm, hc, hle _⟩

def repaid (db : Db) (w : Wallet) (r : Financial.Model.Refund) (description : String) : Db :=
  posted db w r.amount .credit "refund" .success description (some "refund")
    (some (toString r.id)) none

/-- A pending refund is processed: its wallet is credited and its row written. -/
theorem RefundBooks.credited (h : RefundBooks db₀ db)
    (hr : r ∈ db.refunds) (hs : r.status = .pending) {w : Wallet} (hw : w ∈ db.wallets)
    (ha : Kept r.amount) (hk : Kept (w.balance + r.amount)) {d : String} :
    RefundBooks db₀
      { repaid db w r d with refunds := db.refunds.set { r with status := .processed } } := by
  have hunpaid : ∀ t ∈ db.transactions, ¬ IsRefundRow r.id t := by
    intro t ht hrow
    rw [h.processed_of_paid hr ⟨t, ht, hrow⟩] at hs
    cases hs
  have hmem : ∀ x ∈ db.refunds.set { r with status := .processed },
      ∃ y ∈ db.refunds, y.id = x.id ∧ y.transactionId = x.transactionId ∧ y.amount = x.amount ∧
        (x.status = .pending → y.status = .pending) := by
    intro x hx
    rcases Table.mem_set.mp hx with ⟨hx, -⟩ | ⟨rfl, -⟩
    · exact ⟨x, hx, rfl, rfl, rfl, id⟩
    · exact ⟨r, hr, rfl, rfl, rfl, fun _ => hs⟩
  refine ⟨fun k => ?_, fun t ht hrt => ?_, fun k x hx y hy hxk hyk => ?_,
    fun k x hx y hy hxk hyk => ?_, fun x hx => ?_⟩
  · have hsum : (repaid db w r d).transactions.sum (refundedTo k) =
        db.transactions.sum (refundedTo k) + if k = w.id then r.amount else 0 := by
      rw [repaid, sum_posted]
      simp [refundedTo, entry, inColumns, shifted, column_of_kept ha, eq_comm]
    have hbal : (repaid db w r d).balance k = db.balance k + if k = w.id then r.amount else 0 :=
      balanceOf_moved_of_kept hw hk k
    have hbk := h.balance k
    change (repaid db w r d).balance k = db₀.balance k +
      (repaid db w r d).transactions.sum (refundedTo k)
    rw [hsum, hbal]
    omega
  · rcases mem_posted.mp ht with ht | rfl
    · obtain ⟨x, hx, hrow, ha, hsx⟩ := h.rows t ht hrt
      have hne : x.id ≠ r.id := by
        intro hid
        rw [Table.eq_of_key hx hr hid, hs] at hsx
        cases hsx
      exact ⟨x, Table.mem_set.mpr (.inl ⟨hx, hne⟩), hrow, ha, hsx⟩
    · exact ⟨_, Table.mem_set.mpr (.inr ⟨rfl, r, hr, rfl⟩), ⟨rfl, rfl⟩, column_of_kept ha, rfl⟩
  · rcases mem_posted.mp hx with hx | rfl <;> rcases mem_posted.mp hy with hy | rfl
    · exact h.once k x hx y hy hxk hyk
    · obtain rfl : k = r.id := hyk.id_eq ⟨rfl, rfl⟩
      exact absurd hxk (hunpaid x hx)
    · obtain rfl : k = r.id := hxk.id_eq ⟨rfl, rfl⟩
      exact absurd hyk (hunpaid y hy)
    · rfl
  · -- what is live now was live before
    have hlive : ∀ x ∈ db.refunds.set { r with status := .processed }, x.transactionId = k →
        Live { repaid db w r d with refunds := db.refunds.set { r with status := .processed } }
          x → ∃ y ∈ db.refunds, y.id = x.id ∧ y.transactionId = k ∧ Live db y := by
      rintro x hx hxk hl
      obtain ⟨y, hy, hid, htxn, -, hpend⟩ := hmem x hx
      refine ⟨y, hy, hid, htxn.trans hxk, ?_⟩
      rcases hl with hp | ⟨t, ht, hrow⟩
      · exact .inl (hpend hp)
      · rcases mem_posted.mp ht with ht | rfl
        · exact .inr ⟨t, ht, by rw [hid]; exact hrow⟩
        · have hxr : x.id = r.id := hrow.id_eq ⟨rfl, rfl⟩
          rw [Table.eq_of_key hy hr (hid.trans hxr)]
          exact .inl hs
    obtain ⟨x', hx', hxid, hxl⟩ := hlive x hx hxk.1 hxk.2
    obtain ⟨y', hy', hyid, hyl⟩ := hlive y hy hyk.1 hyk.2
    have hsame := h.live k x' hx' y' hy' hxl hyl
    exact Table.eq_of_key hx hy (by rw [key_refund, key_refund, ← hxid, ← hyid, hsame])
  · obtain ⟨y, hy, -, htxn, ha, -⟩ := hmem x hx
    obtain ⟨T, hT, hid, hc, hle⟩ := h.bounded y hy
    exact ⟨T, mem_posted.mpr (.inl hT), by rw [hid, htxn], hc, by rw [← ha]; exact hle⟩

/-! ## Runs -/

/-- The call is not a refund event that moves a paid refund out of `processed`, or that makes a
refund pending while another one of its transaction is pending or paid; and its amounts are such
that their columns keep them. -/
def Benign (db : Db) : RefundOp → Prop
  | .initiate _ transactionId _ _ => ∀ t ∈ db.transactions.get? transactionId, Kept t.amount
  | .process refundId => ∀ r ∈ db.refunds.get? refundId, Kept r.amount ∧
    ∀ t ∈ db.transactions.get? r.transactionId, ∀ w ∈ db.wallets, t.walletId = some w.id →
      Kept (w.balance + r.amount)
  | .webhook event entity => ∀ e ∈ entity, ∀ r, Resolves db e r →
    (Paid db r.id → event = .processed) ∧
    (event = .created → ∀ x ∈ db.refunds, x.transactionId = r.transactionId → x.id ≠ r.id →
      ¬ Live db x)

theorem RefundBooks.step {cfg : Settings} (h : RefundBooks db₀ db) {op : RefundOp}
    (hop : Benign db op) : RefundBooks db₀ (refundStep cfg db op) := by
  cases op with
  | initiate now k a why =>
    have he := step_effect cfg db (.initiateRefund now k a why)
    change Effect cfg db _ (refundStep cfg db (.initiate now k a why)) at he
    generalize refundStep cfg db (.initiate now k a why) = db' at he ⊢
    cases he with
    | unchanged => exact h
    | @refundInitiated _ _ _ _ t v ht hread hc hnone ha hv hf hle =>
      have hkept : column v = v := column_of_kept ((hop t ht).of_le hv.le hle)
      obtain ⟨hT, rfl⟩ := Table.get?_eq_some.mp ht
      exact h.initiated (fun _ => rfl) hT hc hnone (fun _ => rfl) (fun _ => hkept.trans_le hle)
  | process k =>
    have he := step_effect cfg db (.processRefund k)
    change Effect cfg db _ (refundStep cfg db (.process k)) at he
    generalize refundStep cfg db (.process k) = db' at he ⊢
    cases he with
    | unchanged => exact h
    | @refundAbandoned _ r hr hs =>
      have hmem := (Table.get?_eq_some.mp hr).1
      refine h.rewritten hmem { r with status := .failed } rfl rfl rfl (fun hp => ?_) (fun hp => ?_)
      · rw [h.processed_of_paid hmem hp] at hs
        cases hs
      · cases hp
    | refunded hr hs ht hread htw hw =>
      obtain ⟨hamount, hbalance⟩ := hop _ hr
      obtain ⟨hmem, rfl⟩ := Table.get?_eq_some.mp hr
      exact h.credited hmem hs hw hamount (hbalance _ ht _ hw htw)
  | webhook event entity =>
    rcases webhook_effect cfg db event entity with hsame | ⟨e, r, rfl, hr, hmem, hset⟩
    · rw [hsame]
      exact h
    · obtain ⟨hpaid, hcreated⟩ := hop e rfl r hr
      rw [hset]
      refine h.rewritten hmem (overwritten event e r) rfl rfl rfl
        (fun hp => ?_) (fun hp => hcreated ?_)
      · rw [hpaid hp]
        rfl
      · cases event
        · rfl
        · cases hp
        · cases hp

/-- What was credited by refunds: all that the balances gained since `db₀`, at most once for each
refund, and for no transaction more than its amount. -/
structure RefundsConserved (db₀ db : Db) : Prop where
  balance : ∀ k, db.balance k = db₀.balance k + db.transactions.sum (refundedTo k)
  once : ∀ r ∈ db.refunds, (db.transactions.filter fun t => IsRefundRow r.id t).length ≤ 1
  bounded : ∀ t ∈ db.transactions, t.type = some .credit → 0 ≤ t.amount →
    refundedOf db t.id ≤ t.amount

theorem RefundBooks.conserved (h : RefundBooks db₀ db) : RefundsConserved db₀ db := by
  refine ⟨h.balance, fun r hr => ?_, fun T hT hc hpos => ?_⟩
  · refine Table.length_filter_le_one fun x hx y hy hxr hyr => ?_
    exact h.once r.id x hx y hy (of_decide_eq_true hxr) (of_decide_eq_true hyr)
  · refine Table.sum_le_of_unique (fun x hx y hy hxT hyT => ?_) (fun x hx hxT => ?_) hpos
    · obtain ⟨r, hr, hrT, hrow⟩ := hxT
      obtain ⟨r', hr', hrT', hrow'⟩ := hyT
      have hsame := h.live T.id r hr r' hr' ⟨hrT, .inr ⟨x, hx, hrow⟩⟩ ⟨hrT', .inr ⟨y, hy, hrow'⟩⟩
      rw [← hsame] at hrow'
      exact h.once r.id x hx y hy hrow hrow'
    · obtain ⟨r, hr, hrT, hrow⟩ := hxT
      obtain ⟨r', hr', hrow', ha, -⟩ := h.rows x hx hrow.1
      obtain ⟨t, ht, hid, -, hle⟩ := h.bounded r hr
      rw [← Table.eq_of_key hr hr' (hrow.id_eq hrow')] at ha
      rw [ha, ← Table.eq_of_key ht hT (hid.trans hrT)]
      exact hle

/-- **Refund conservation.**  In a run of initiations, processings and refund events from a store
without refunds, whose refund events leave paid refunds processed and reopen no refund beside a live
one, and whose amounts the columns keep, each refund is credited at most once, and no transaction is
refunded beyond its amount. -/
theorem refund_conservation (cfg : Settings) (db : Db) (h : NoRefunds db) (ops : List RefundOp)
    (hops : Along (refundStep cfg) Benign db ops) :
    ∀ pre post, ops = pre ++ post → RefundsConserved db (run (refundStep cfg) db pre) := by
  rintro pre post rfl
  have hpre := (along_append.mp hops).1
  exact (run_invariant_of_along (fun s op hs hop => hs.step hop)
    (refundBooks_of_noRefunds h) hpre).conserved

/-- A settled payment of 100.00 by the first user, with a status that can be loaded. -/
def payment : Transaction :=
  { id := 1, userId := 1, walletId := some 1, amount := 10000, balanceAfter := some 0,
    type := some .credit, category := some "deposit", status := .other "SUCCESS",
    description := none, razorpayPaymentId := some "pay_1" }

def paidStore : Db :=
  { Db.ofWallets sampleUsers sampleWallets with transactions := ⟨[payment], by decide⟩ }

theorem noRefunds_paidStore : NoRefunds paidStore := ⟨rfl, by decide⟩

/-- The payment is refunded, and the gateway confirms it. -/
def confirmedRefund : List RefundOp :=
  [.initiate 0 1 none "Customer Request", .process 1,
    .webhook .processed (some { id := some "rfnd_1", paymentId := some "pay_1" })]

theorem refund_conservation_sample :
    RefundsConserved paidStore (run (refundStep {}) paidStore confirmedRefund) := by
  refine refund_conservation {} paidStore noRefunds_paidStore confirmedRefund ⟨?_, ?_, ?_, trivial⟩
    confirmedRefund [] (List.append_nil _).symm
  · rintro t ⟨⟩
    decide
  · rintro r ⟨⟩
    exact ⟨by decide, by decide⟩
  · rintro e ⟨⟩ r -
    exact ⟨fun _ => rfl, fun h => by cases h⟩

/-- The payment is refunded, the gateway reports the refund as created, and it is processed again.
-/
def recreatedRefund : List RefundOp :=
  [.initiate 0 1 none "Customer Request", .process 1,
    .webhook .created (some { id := some "rfnd_1", paymentId := some "pay_1" }), .process 1]

/-- The refund of 100.00 is credited twice. -/
theorem refund_paid_twice :
    ¬ ∀ (db : Db), NoRefunds db → ∀ ops : List RefundOp,
      RefundsConserved db (run (refundStep {}) db ops) := by
  intro h
  have hbounded := (h paidStore noRefunds_paidStore recreatedRefund).bounded
  revert hbounded
  decide

end WezuBackend.Wallet.Refund
